import Shortlist.Query.Basic

/-!
# Numbered parameters

A statement is put together from pieces that name their parameters, and is sent with numbers
in place of the names.  `Numbering.assign` goes over the pieces once: a name met for the first
time is looked up among the bound parameters and gets the next number, a name met again keeps
the number it has, and a name that is not bound stops it.
-/

namespace Shortlist

/-- A part of a statement: text, a value written into it, or a placeholder for a parameter. -/
inductive Piece (ρ : Type) where
  | text (s : String)
  | literal (v : Value)
  | placeholder (r : ρ)

namespace Piece

variable {ρ σ : Type}

/-- The piece with its placeholder replaced. -/
def map (f : ρ → σ) : Piece ρ → Piece σ
  | .text s => .text s
  | .literal v => .literal v
  | .placeholder r => .placeholder (f r)

/-- What a placeholder stands for. -/
def placeholder? : Piece ρ → Option ρ
  | .placeholder r => some r
  | .text _ | .literal _ => none

/-- The spelling of a numbered piece in a dialect. -/
def sql (d : Dialect) : Piece Nat → String
  | .text s => s
  | .literal v => d.literal v
  | .placeholder k => d.placeholder k

end Piece

/-- The parameters met so far: the number of each, and their values in the order of the
numbers. -/
structure Numbering where
  numbers : List (String × Nat)
  values : List Value

namespace Numbering

/-- The numbering before any parameter. -/
def empty : Numbering := ⟨[], []⟩

/-- The number of a parameter, and the numbering that has it. -/
def refer (bound : List (String × Value)) (n : Numbering) (name : String) :
    Except Error (Nat × Numbering) :=
  match Keyed.get? name n.numbers with
  | some k => .ok (k, n)
  | none =>
    match Keyed.get? name bound with
    | none => .error (.unbound name)
    | some v =>
      let k := n.values.length + 1
      .ok (k, ⟨Keyed.put name k n.numbers, n.values ++ [v]⟩)

/-- The pieces with numbers in place of names, and the numbering after them. -/
def assign (bound : List (String × Value)) (n : Numbering) :
    List (Piece String) → Except Error (List (Piece Nat) × Numbering)
  | [] => .ok ([], n)
  | .text s :: ps => (assign bound n ps).map fun (ps, n) => (.text s :: ps, n)
  | .literal v :: ps => (assign bound n ps).map fun (ps, n) => (.literal v :: ps, n)
  | .placeholder name :: ps =>
    match n.refer bound name with
    | .error e => .error e
    | .ok (k, n) => (assign bound n ps).map fun (ps, n) => (.placeholder k :: ps, n)

end Numbering

end Shortlist
