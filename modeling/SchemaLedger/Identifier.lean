import SchemaLedger.Text.Blank

/-!
# Identifiers

An identifier is written bare when it is an ASCII word that starts with a letter and is no
reserved word, and between backticks otherwise. A backtick inside the name is then written with a
backslash in front, and reading takes that backslash away again; other backslashes stand for
themselves.
-/

namespace SchemaLedger.Identifier

open Text

/-- Words that need backticks when they name something, in upper case. -/
def reserved : List String :=
  ["ALL", "AND", "ANY", "ARRAY", "AS", "ASC", "ASSERT_ROWS_MODIFIED", "AT", "BETWEEN", "BY",
    "CASE", "CAST", "COLLATE", "CONTAINS", "CREATE", "CROSS", "CUBE", "CURRENT", "DEFAULT",
    "DEFINE", "DESC", "DISTINCT", "ELSE", "END", "ENUM", "ESCAPE", "EXCEPT", "EXCLUDE", "EXISTS",
    "EXTRACT", "FALSE", "FETCH", "FOLLOWING", "FOR", "FROM", "FULL", "GROUP", "GROUPING",
    "GROUPS", "HASH", "HAVING", "IF", "IGNORE", "IN", "INNER", "INTERSECT", "INTERVAL", "INTO",
    "IS", "JOIN", "LATERAL", "LEFT", "LIKE", "LIMIT", "LOOKUP", "MERGE", "NATURAL", "NEW", "NO",
    "NOT", "NULL", "NULLS", "OF", "ON", "OR", "ORDER", "OUTER", "OVER", "PARTITION", "PRECEDING",
    "PROTO", "RANGE", "RECURSIVE", "RESPECT", "RIGHT", "ROLLUP", "ROWS", "SELECT", "SET", "SOME",
    "STRUCT", "TABLESAMPLE", "THEN", "TO", "TREAT", "TRUE", "UNBOUNDED", "UNION", "UNNEST",
    "USING", "WHEN", "WHERE", "WINDOW", "WITH", "WITHIN"]

/-- An ASCII letter followed by ASCII letters, digits and underscores. -/
def isWord : List Char → Bool
  | [] => false
  | c :: cs => c.isAlpha && cs.all fun c ↦ c.isAlphanum || c = '_'

/-- Can be written without backticks. -/
def isPlain (name : String) : Bool :=
  isWord name.toList && !reserved.contains name.toUpper

/-- Writes a backslash in front of every backtick. -/
def escape : List Char → List Char
  | [] => []
  | c :: cs => if c = '\x60' then '\\' :: c :: escape cs else c :: escape cs

/-- Takes away every backslash that stands in front of a backtick. -/
def unescape : List Char → List Char
  | '\\' :: '\x60' :: cs => '\x60' :: unescape cs
  | c :: cs => c :: unescape cs
  | [] => []

/-- The written form of a name. -/
def quote (name : String) : String :=
  if isPlain name then name else String.ofList ('\x60' :: (escape name.toList ++ ['\x60']))

/-- What stands between a backtick in front and one at the end. -/
def unwrap? : List Char → Option (List Char)
  | [] => none
  | c :: cs => if c = '\x60' ∧ cs.getLast? = some '\x60' then some cs.dropLast else none

/-- The name that a written form stands for; blanks around it do not count. -/
def unquote (text : String) : String :=
  match unwrap? (strip text.toList) with
  | some inner => String.ofList (unescape inner)
  | none => trim text

end SchemaLedger.Identifier
