import Shortlist.Json.Number

/-!
# Reading JSON documents

`Json.read?` accepts one JSON value with blanks around it and nothing else.  At most 127
arrays and objects may be open at once.  A repeated member keeps its first place and takes
its last value, so the members of an object that was read have distinct names.  An escaped
surrogate must be one of a pair.
-/

namespace Shortlist.Json

/-- The blanks between the tokens of a document. -/
def isSpace (c : Char) : Bool :=
  c == ' ' || c == '\t' || c == '\n' || c == '\r'

/-- The text from its first character that is no blank. -/
def skipSpace (cs : List Char) : List Char := cs.dropWhile isSpace

/-- The value of a hexadecimal digit. -/
def hexDigit? (c : Char) : Option Nat :=
  if c.isDigit then some (c.toNat - '0'.toNat)
  else if 'a' ≤ c ∧ c ≤ 'f' then some (c.toNat - 'a'.toNat + 10)
  else if 'A' ≤ c ∧ c ≤ 'F' then some (c.toNat - 'A'.toNat + 10)
  else none

/-- The value of a run of hexadecimal digits. -/
def hexValue? (cs : List Char) : Option Nat :=
  cs.foldlM (fun n c => (hexDigit? c).map (16 * n + ·)) 0

/-- The character of an escape with one letter. -/
def escaped? : Char → Option Char
  | '\x22' => some '\x22'
  | '\\' => some '\\'
  | '/' => some '/'
  | 'b' => some '\x08'
  | 'f' => some '\x0c'
  | 'n' => some '\n'
  | 'r' => some '\r'
  | 't' => some '\t'
  | _ => none

/-- The character of a pair of surrogates. -/
def ofSurrogates (high low : Nat) : Char :=
  Char.ofNat (0x10000 + (high - 0xD800) * 0x400 + (low - 0xDC00))

/-- Reads a string after its opening quote, and returns the rest of the text after the
closing quote. -/
def readString? : List Char → Option (List Char × List Char)
  | [] => none
  | '\\' :: 'u' :: a :: b :: c :: d :: cs =>
    match hexValue? [a, b, c, d] with
    | none => none
    | some n =>
      if n < 0xD800 ∨ 0xDFFF < n then
        (readString? cs).map fun (s, rest) => (Char.ofNat n :: s, rest)
      else if 0xDC00 ≤ n then none
      else match cs with
        | '\\' :: 'u' :: a :: b :: c :: d :: cs =>
          match hexValue? [a, b, c, d] with
          | none => none
          | some m =>
            if 0xDC00 ≤ m ∧ m ≤ 0xDFFF then
              (readString? cs).map fun (s, rest) => (ofSurrogates n m :: s, rest)
            else none
        | _ => none
  | '\\' :: c :: cs =>
    match escaped? c with
    | none => none
    | some e => (readString? cs).map fun (s, rest) => (e :: s, rest)
  | c :: cs =>
    if c = '\x22' then some ([], cs)
    else if c = '\\' ∨ c < ' ' then none
    else (readString? cs).map fun (s, rest) => (c :: s, rest)

mutual

/-- Reads a value with at most `depth` open arrays and objects. -/
def readValue? : Nat → Nat → List Char → Option (Json × List Char)
  | 0, _, _ => none
  | fuel + 1, depth, cs =>
    match skipSpace cs with
    | 'n' :: 'u' :: 'l' :: 'l' :: cs => some (.null, cs)
    | 't' :: 'r' :: 'u' :: 'e' :: cs => some (.bool true, cs)
    | 'f' :: 'a' :: 'l' :: 's' :: 'e' :: cs => some (.bool false, cs)
    | '\x22' :: cs => (readString? cs).map fun (s, rest) => (.string (String.ofList s), rest)
    | '[' :: cs =>
      match depth with
      | 0 => none
      | depth + 1 =>
        match skipSpace cs with
        | ']' :: cs => some (.array [], cs)
        | cs => (readItems? fuel depth cs).map fun (items, rest) => (.array items, rest)
    | '\x7b' :: cs =>
      match depth with
      | 0 => none
      | depth + 1 =>
        match skipSpace cs with
        | '\x7d' :: cs => some (.object [], cs)
        | cs => (readMembers? fuel depth [] cs).map fun (ms, rest) => (.object ms, rest)
    | cs => (Number.read? cs).map fun (n, rest) => (.number n, rest)

/-- Reads the items of an array and its closing bracket. -/
def readItems? : Nat → Nat → List Char → Option (List Json × List Char)
  | 0, _, _ => none
  | fuel + 1, depth, cs =>
    match readValue? fuel depth cs with
    | none => none
    | some (item, rest) =>
      match skipSpace rest with
      | ',' :: cs => (readItems? fuel depth cs).map fun (items, rest) => (item :: items, rest)
      | ']' :: cs => some ([item], cs)
      | _ => none

/-- Reads the members of an object and its closing brace, after those already read. -/
def readMembers? : Nat → Nat → List (String × Json) → List Char →
    Option (List (String × Json) × List Char)
  | 0, _, _, _ => none
  | fuel + 1, depth, members, cs =>
    match skipSpace cs with
    | '\x22' :: cs =>
      match readString? cs with
      | none => none
      | some (name, rest) =>
        match skipSpace rest with
        | ':' :: cs =>
          match readValue? fuel depth cs with
          | none => none
          | some (value, rest) =>
            let members := Keyed.put (String.ofList name) value members
            match skipSpace rest with
            | ',' :: cs => readMembers? fuel depth members cs
            | '\x7d' :: cs => some (members, cs)
            | _ => none
        | _ => none
    | _ => none

end

/-- The arrays and objects that may be open at once. -/
def maxDepth : Nat := 127

/-- The value a document holds.  Every call reads a character or passes on to a call that
does, so twice the length of the text bounds the calls. -/
def read? (s : String) : Option Json :=
  match readValue? (2 * s.toList.length + 2) maxDepth s.toList with
  | some (value, rest) => if (skipSpace rest).isEmpty then some value else none
  | none => none

end Shortlist.Json
