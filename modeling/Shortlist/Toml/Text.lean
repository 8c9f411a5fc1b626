import Shortlist.Json.Reader

/-!
# Strings of a TOML document

A string is basic, with escapes, or literal, without; either may span several lines between
triple quotes.  In a string of several lines a line break right after the opening quotes is
dropped, every other one stays as it is written, and up to two quotes may stand right before
the closing ones.
-/

namespace Shortlist.Toml

/-- Spaces and tabs. -/
def isSpace (c : Char) : Bool := c == ' ' || c == '\t'

/-- The text from its first character that is no space. -/
def skipSpaces (cs : List Char) : List Char := cs.dropWhile isSpace

/-- The characters that may stand in comments and strings: tabs and all that are no control
characters. -/
def isPrintable (c : Char) : Bool := c == '\t' || (' ' ≤ c && c != '\x7f')

/-- The rest of a text after a line break. -/
def afterBreak? : List Char → Option (List Char)
  | '\n' :: cs => some cs
  | '\r' :: '\n' :: cs => some cs
  | _ => none

/-- The text after spaces and line breaks. -/
def skipLines : List Char → List Char
  | '\r' :: '\n' :: cs => skipLines cs
  | c :: cs => if isSpace c || c == '\n' then skipLines cs else c :: cs
  | [] => []

/-- The character of `n` hexadecimal digits, and the rest of the text. -/
def codePoint? (n : Nat) (cs : List Char) : Option (Char × List Char) :=
  if (cs.take n).length < n then none
  else match Json.hexValue? (cs.take n) with
    | none => none
    | some v => if Nat.isValidChar v then some (Char.ofNat v, cs.drop n) else none

/-- The character of an escape, read after its backslash, and the rest of the text. -/
def escape? : List Char → Option (Char × List Char)
  | 'b' :: cs => some ('\x08', cs)
  | 't' :: cs => some ('\t', cs)
  | 'n' :: cs => some ('\n', cs)
  | 'f' :: cs => some ('\x0c', cs)
  | 'r' :: cs => some ('\r', cs)
  | 'e' :: cs => some ('\x1b', cs)
  | '\x22' :: cs => some ('\x22', cs)
  | '\\' :: cs => some ('\\', cs)
  | 'x' :: cs => codePoint? 2 cs
  | 'u' :: cs => codePoint? 4 cs
  | 'U' :: cs => codePoint? 8 cs
  | _ => none

/-- The rest of a text after a line break escaped by a backslash, without the blanks that
follow. -/
def afterEscapedBreak? (cs : List Char) : Option (List Char) :=
  (afterBreak? (skipSpaces cs)).map skipLines

/-- The quotes that belong to a string of several lines which two of the three closing quotes
have ended, and the rest of the text; `none` when the string goes on. -/
def closing? (quote : Char) : List Char → Option (List Char × List Char)
  | a :: b :: c :: d :: cs =>
    if a = quote ∧ b = quote then
      if c = quote then
        if d = quote then some ([quote, quote], cs) else some ([quote], d :: cs)
      else some ([], c :: d :: cs)
    else none
  | a :: b :: cs =>
    if a = quote ∧ b = quote then
      if cs = [quote] then some ([quote], []) else some ([], cs)
    else none
  | _ => none

/-- Reads a string after its opening quotes: of several lines or of one, basic or literal. -/
def readString? (several basic : Bool) (quote : Char) :
    Nat → List Char → Option (List Char × List Char)
  | 0, _ => none
  | _ + 1, [] => none
  | fuel + 1, c :: cs =>
    let goOn (c : Char) (cs : List Char) :=
      (readString? several basic quote fuel cs).map fun (s, rest) => (c :: s, rest)
    if c = quote then
      if several then
        match closing? quote cs with
        | some closed => some closed
        | none => goOn c cs
      else some ([], cs)
    else if c = '\\' ∧ basic then
      match (if several then afterEscapedBreak? cs else none) with
      | some cs => readString? several basic quote fuel cs
      | none =>
        match escape? cs with
        | some (e, cs) => goOn e cs
        | none => none
    else match afterBreak? (c :: cs) with
      | some _ => if several then goOn c cs else none
      | none => if isPrintable c then goOn c cs else none

/-- Reads a string, and returns the rest of the text after its closing quotes.  Whether it may
span several lines is for the caller to say. -/
def quoted? (mayBreak : Bool) (cs : List Char) : Option (String × List Char) :=
  match cs with
  | [] => none
  | quote :: rest =>
    if quote = '\x22' ∨ quote = '\x27' then
      let basic := quote == '\x22'
      let result := match rest with
        | a :: b :: inner =>
          if mayBreak && a == quote && b == quote then
            readString? true basic quote (inner.length + 1) ((afterBreak? inner).getD inner)
          else readString? false basic quote (rest.length + 1) rest
        | _ => readString? false basic quote (rest.length + 1) rest
      result.map fun (s, rest) => (String.ofList s, rest)
    else none

end Shortlist.Toml
