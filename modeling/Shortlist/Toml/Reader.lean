import Shortlist.Toml.Scalar
import Shortlist.Toml.Table
import Shortlist.Toml.Text

/-!
# Reading TOML documents

`Toml.read?` reads a document line by line into a tree whose objects have their members in
ascending order.  At most 80 arrays and inline tables may be open at once, and a dotted key or
a header has at most 80 keys.
-/

namespace Shortlist.Toml

/-- The text after blanks, line breaks and comments; `none` when a comment holds a control
character. -/
def skipBlanks? (inComment : Bool) : List Char → Option (List Char)
  | [] => some []
  | '\n' :: cs => skipBlanks? false cs
  | '\r' :: '\n' :: cs => skipBlanks? false cs
  | c :: cs =>
    if inComment then (if isPrintable c then skipBlanks? true cs else none)
    else if c = '#' then skipBlanks? true cs
    else if isSpace c then skipBlanks? false cs
    else some (c :: cs)

/-- The text from the end of a comment. -/
def skipComment? : List Char → Option (List Char)
  | [] => some []
  | '\n' :: cs => some ('\n' :: cs)
  | '\r' :: '\n' :: cs => some ('\n' :: cs)
  | c :: cs => if isPrintable c then skipComment? cs else none

/-- The text after the end of a line, which may hold a comment. -/
def afterLine? (cs : List Char) : Option (List Char) :=
  let ended (cs : List Char) : Option (List Char) :=
    if cs.isEmpty then some [] else afterBreak? cs
  match skipSpaces cs with
  | '#' :: cs => (skipComment? cs).bind ended
  | cs => ended cs

/-- The characters of a key without quotes. -/
def isKeyChar (c : Char) : Bool := c.isAlphanum || c == '_' || c == '-'

/-- Reads a key. -/
def readKey? (cs : List Char) : Option (String × List Char) :=
  match quoted? false cs with
  | some key => some key
  | none =>
    let key := cs.takeWhile isKeyChar
    if key.isEmpty then none else some (String.ofList key, cs.dropWhile isKeyChar)

/-- Reads at most `count` keys with dots between them, and the spaces that follow. -/
def readKeys? : (count : Nat) → List Char → Option (List String × List Char)
  | 0, _ => none
  | count + 1, cs =>
    match readKey? (skipSpaces cs) with
    | none => none
    | some (key, rest) =>
      match skipSpaces rest with
      | '.' :: cs => (readKeys? count cs).map fun (keys, rest) => (key :: keys, rest)
      | rest => some ([key], rest)

/-- The keys that may stand in one path. -/
def maxKeys : Nat := 80

/-- Reads the path of a header or an assignment, and the spaces that follow. -/
def readPath? (cs : List Char) : Option (List String × List Char) := readKeys? maxKeys cs

/-- Reads the keys of a member of an inline table up to its value.  Line breaks and comments
may stand on both sides of the equals sign, but not at the dots between the keys. -/
def readMemberPath? (cs : List Char) : Option (List String × List Char) :=
  match readPath? cs with
  | none => none
  | some (path, rest) =>
    match skipBlanks? false rest with
    | some ('=' :: rest) => (skipBlanks? false rest).map (path, ·)
    | _ => none

/-- The characters of an unquoted value. -/
def isScalarChar (c : Char) : Bool :=
  c.isAlphanum || c == '+' || c == '-' || c == '_' || c == '.' || c == ':'

/-- Takes an unquoted value off a text.  A date may be followed by a space and a time. -/
def scanScalar (cs : List Char) : List Char × List Char :=
  let word := cs.takeWhile isScalarChar
  let rest := cs.dropWhile isScalarChar
  match afterDate? word, rest with
  | some [], ' ' :: c :: cs =>
    if c.isDigit then
      (word ++ ' ' :: (c :: cs).takeWhile isScalarChar, (c :: cs).dropWhile isScalarChar)
    else (word, rest)
  | _, _ => (word, rest)

mutual

/-- Reads a value with at most `depth` open arrays and inline tables. -/
def readValue? : Nat → Nat → List Char → Option (Json × List Char)
  | 0, _, _ => none
  | fuel + 1, depth, cs =>
    match cs with
    | '[' :: cs =>
      match depth with
      | 0 => none
      | depth + 1 => (readItems? fuel depth cs).map fun (items, rest) => (.array items, rest)
    | '\x7b' :: cs =>
      match depth with
      | 0 => none
      | depth + 1 =>
        (readMembers? fuel depth [] cs).map fun (t, rest) => (.object (membersToJson t), rest)
    | '\x22' :: _ => (quoted? true cs).map fun (s, rest) => (.string s, rest)
    | '\x27' :: _ => (quoted? true cs).map fun (s, rest) => (.string s, rest)
    | cs =>
      let (word, rest) := scanScalar cs
      (scalar? word).map (·, rest)

/-- Reads the items of an array, each but the last followed by a comma, and the closing
bracket. -/
def readItems? : Nat → Nat → List Char → Option (List Json × List Char)
  | 0, _, _ => none
  | fuel + 1, depth, cs =>
    match skipBlanks? false cs with
    | none => none
    | some (']' :: cs) => some ([], cs)
    | some cs =>
      match readValue? fuel depth cs with
      | none => none
      | some (item, rest) =>
        match skipBlanks? false rest with
        | some (',' :: cs) =>
          (readItems? fuel depth cs).map fun (items, rest) => (item :: items, rest)
        | some (']' :: cs) => some ([item], cs)
        | _ => none

/-- Reads the members of an inline table, each but the last followed by a comma, and the
closing brace, after those already read. -/
def readMembers? : Nat → Nat → Members → List Char → Option (Members × List Char)
  | 0, _, _, _ => none
  | fuel + 1, depth, t, cs =>
    match skipBlanks? false cs with
    | none => none
    | some ('\x7d' :: cs) => some (t, cs)
    | some cs =>
      match readMemberPath? cs with
      | none => none
      | some (path, rest) =>
        match readValue? fuel depth rest with
        | none => none
        | some (j, rest) =>
          match Members.assign (path.getLastD "") j path.dropLast t with
          | none => none
          | some t =>
            match skipBlanks? false rest with
            | some (',' :: cs) => readMembers? fuel depth t cs
            | some ('\x7d' :: cs) => some (t, cs)
            | _ => none

end

/-- The arrays and inline tables that may be open at once. -/
def maxDepth : Nat := 80

/-- A line of a document that is neither blank nor only a comment. -/
inductive Line where
  | table (path : List String)
  | element (path : List String)
  | assign (path : List String) (key : String) (j : Json)

/-- Reads a line up to its end. -/
def readLine? (cs : List Char) : Option (Line × List Char) :=
  match cs with
  | '[' :: '[' :: cs =>
    match readPath? cs with
    | some (path, ']' :: ']' :: rest) => some (.element path, rest)
    | _ => none
  | '[' :: cs =>
    match readPath? cs with
    | some (path, ']' :: rest) => some (.table path, rest)
    | _ => none
  | cs =>
    match readPath? cs with
    | some (path, '=' :: rest) =>
      (readValue? (2 * cs.length + 2) maxDepth (skipSpaces rest)).map fun (j, rest) =>
        (.assign path.dropLast (path.getLastD "") j, rest)
    | _ => none

/-- Reads the lines of a document into its tables, under the header that is open. -/
def readLines? : Nat → List String → Members → List Char → Option Members
  | 0, _, _, _ => none
  | fuel + 1, header, t, cs =>
    match skipBlanks? false cs with
    | none => none
    | some [] => some t
    | some cs =>
      match readLine? cs with
      | none => none
      | some (line, rest) =>
        match afterLine? rest with
        | none => none
        | some rest =>
          match line with
          | .table path =>
            (Members.openTable path t).bind fun t => readLines? fuel path t rest
          | .element path =>
            (Members.openElement path t).bind fun t => readLines? fuel path t rest
          | .assign path key j =>
            (Members.assignUnder header path key j t).bind fun t =>
              readLines? fuel header t rest

/-- The tree of a document, which may begin with a byte order mark. -/
def read? (s : String) : Option Json :=
  let cs := match s.toList with
    | '\ufeff' :: cs => cs
    | cs => cs
  (readLines? (cs.length + 1) [] [] cs).map fun t => .object (membersToJson t)

end Shortlist.Toml
