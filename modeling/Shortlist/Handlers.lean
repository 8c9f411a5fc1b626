import Shortlist.Field
import Shortlist.Keyed
import Shortlist.Operand
import Shortlist.Progress

/-!
# Handlers

A handler is a rule of its own for the filters of a field, used in place of the operator.
Handlers are kept under keys: the key of a name is its runs of ASCII letters and digits, each
with a capital first letter, so the spellings of one name share a handler.
-/

namespace Shortlist

/-- The key of a name, after a character that is a letter or digit when `inRun` holds. -/
def Handlers.keyFrom (inRun : Bool) : List Char → List Char
  | [] => []
  | c :: cs =>
    if c.isAlphanum then (if inRun then c else c.toUpper) :: keyFrom true cs
    else keyFrom false cs

/-- The key of a name: its runs of ASCII letters and digits, each with a capital first
letter. -/
def Handlers.keyOf (s : String) : String :=
  String.ofList (keyFrom false s.toList)

/-- What a handler does with the filter of a field. -/
abbrev Handler (σ : Type) := σ → Field → Operand → Progress σ

/-- Handlers by key, in ascending order of the keys. -/
structure Handlers (σ : Type) where
  slots : List (String × Handler σ)

namespace Handlers

variable {σ : Type}

/-- No handlers. -/
def empty : Handlers σ := ⟨[]⟩

/-- Registers the handler of a name, in place of the one registered before. -/
def register (h : Handlers σ) (name : String) (handler : Handler σ) : Handlers σ :=
  ⟨Keyed.putSorted (keyOf name) handler h.slots⟩

/-- The handler of a name. -/
def get? (h : Handlers σ) (name : String) : Option (Handler σ) :=
  Keyed.get? (keyOf name) h.slots

/-- Whether a name has a handler. -/
def contains (h : Handlers σ) (name : String) : Bool := (h.get? name).isSome

/-- The number of handlers. -/
def size (h : Handlers σ) : Nat := h.slots.length

/-- The keys in ascending order. -/
def keys (h : Handlers σ) : List String := Keyed.keys h.slots

/-- The list of the keys, each between quotes. -/
def description (h : Handlers σ) : String :=
  "HandlerRegistry \x7b fields: ["
    ++ ", ".intercalate (h.keys.map fun k => "\"" ++ k ++ "\"") ++ "] \x7d"

theorem get?_register (h : Handlers σ) (name other : String) (handler : Handler σ) :
  (h.register name handler).get? other
    = if keyOf name = keyOf other then some handler else h.get? other
  := Keyed.get?_putSorted (keyOf name) (keyOf other) handler h.slots

end Handlers

end Shortlist
