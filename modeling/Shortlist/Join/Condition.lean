import Shortlist.Text.Blank
import Shortlist.Text.Word

/-!
# Join conditions

A join condition is written into the statement as it is.  `isCondition` accepts a text that
is not blank, has at most 1000 bytes, has none of the forbidden fragments and has none of the
forbidden words standing alone, in any mix of cases.
-/

namespace Shortlist.Join

/-- The most bytes of a condition. -/
def maxConditionSize : Nat := 1000

/-- Fragments refused wherever they stand: comments, the end of a statement, backticks. -/
def forbiddenMarks : List String := ["--", "/*", "*/", ";", "`"]

/-- Words refused when they stand alone. -/
def forbiddenWords : List String :=
  ["select", "insert", "update", "delete", "drop", "truncate", "alter", "create", "grant",
    "revoke", "exec", "execute", "union", "into", "from", "where", "having", "group", "order",
    "limit", "offset", "fetch", "returning",
    "sleep", "benchmark", "waitfor", "pg_sleep", "dbms_lock",
    "load_file", "into_outfile", "into_dumpfile",
    "chr", "char", "ascii", "unicode", "hex", "unhex", "convert", "cast", "encode", "decode"]

/-- Fragments refused wherever they stand in the lower-case text: names of the system's own
tables, and hexadecimal numbers. -/
def forbiddenFragments : List String :=
  ["pg_", "sqlite_", "information_schema", "sys.", "0x", "\\x"]

/-- Whether a text may stand as the condition of a join. -/
def isCondition (s : String) : Bool :=
  let cs := s.toList
  let lower := cs.map Char.toLower
  cs.any (!Text.isBlank ·) && s.utf8ByteSize ≤ maxConditionSize
    && forbiddenMarks.all (!Text.occurs ·.toList cs)
    && forbiddenWords.all (!Text.occursAlone ·.toList false lower)
    && forbiddenFragments.all (!Text.occurs ·.toList lower)

end Shortlist.Join
