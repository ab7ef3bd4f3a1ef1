import SchemaLedger.Digest.Hex
import SchemaLedger.Json.Number

/-!
# JSON values

Values keep the fields of an object in the order in which they were written, repeated names
included; `canonical` puts them in the order of their names and lets the last of a name win, which
is the form in which values are stored and compared.

There are two printers, one without any blanks and one indented by two spaces.
-/

namespace SchemaLedger

/-- A JSON value. -/
inductive Json where
  | null
  | bool (value : Bool)
  | number (value : Json.Number)
  | string (value : String)
  | array (items : List Json)
  | object (fields : List (String × Json))
  deriving Repr, Inhabited

namespace Json

/-- The value of a whole number. -/
def ofNat (n : Nat) : Json := .number (.int n)

/-- The list of strings. -/
def ofStrings (ss : List String) : Json := .array (ss.map .string)

/-- A value that may be missing is written as `null`. -/
def ofOption {α : Type} (f : α → Json) : Option α → Json
  | none => .null
  | some a => f a

/-! ## Fields in order -/

/-- Puts a field at its place in ascending order of names, in place of one of the same name. -/
def insertField (name : String) (value : Json) : List (String × Json) → List (String × Json)
  | [] => [(name, value)]
  | (n, v) :: rest =>
    if name < n then (name, value) :: (n, v) :: rest
    else if name = n then (name, value) :: rest
    else (n, v) :: insertField name value rest

/-- The fields in ascending order of names, the last of each name. -/
def sortFields (fields : List (String × Json)) : List (String × Json) :=
  fields.foldl (fun done f ↦ insertField f.1 f.2 done) []

mutual
/-- The same value with the fields of every object sorted and none repeated. -/
def canonical : Json → Json
  | .array items => .array (canonicalItems items)
  | .object fields => .object (sortFields (canonicalFields fields))
  | j => j
/-- `canonical` on the items of an array. -/
def canonicalItems : List Json → List Json
  | [] => []
  | j :: rest => canonical j :: canonicalItems rest
/-- `canonical` on the values of the fields of an object. -/
def canonicalFields : List (String × Json) → List (String × Json)
  | [] => []
  | (n, j) :: rest => (n, canonical j) :: canonicalFields rest
end

/-! ## Printing -/

/-- A character inside a string. -/
def escapeChar (c : Char) : List Char :=
  if c = '"' then ['\\', '"']
  else if c = '\\' then ['\\', '\\']
  else if c = '\n' then ['\\', 'n']
  else if c = '\r' then ['\\', 'r']
  else if c = '\t' then ['\\', 't']
  else if c = '\x08' then ['\\', 'b']
  else if c = '\x0c' then ['\\', 'f']
  else if c.toNat < 32 then ['\\', 'u', '0', '0'] ++ Digest.hexByte (UInt8.ofNat c.toNat)
  else [c]

/-- A string with its quotes. -/
def quoted (s : String) : List Char := '"' :: s.toList.flatMap escapeChar ++ ['"']

mutual
/-- The written form without blanks. -/
def compact : Json → List Char
  | .null => "null".toList
  | .bool true => "true".toList
  | .bool false => "false".toList
  | .number n => n.text
  | .string s => quoted s
  | .array items => '[' :: compactItems items ++ [']']
  | .object fields => '\x7b' :: compactFields fields ++ ['\x7d']
/-- The items of an array and the commas between them. -/
def compactItems : List Json → List Char
  | [] => []
  | [j] => compact j
  | j :: rest => compact j ++ ',' :: compactItems rest
/-- The fields of an object and the commas between them. -/
def compactFields : List (String × Json) → List Char
  | [] => []
  | [(n, j)] => quoted n ++ ':' :: compact j
  | (n, j) :: rest => quoted n ++ ':' :: compact j ++ ',' :: compactFields rest
end

/-- The written form without blanks, as a string. -/
def toText (j : Json) : String := String.ofList j.compact

/-- A line feed and the indentation of a level. -/
def newline (depth : Nat) : List Char := '\n' :: List.replicate (2 * depth) ' '

mutual
/-- The written form with one item or field on a line, indented by two spaces a level; empty
arrays and objects stay on one line. -/
def indented (depth : Nat) : Json → List Char
  | .array [] => ['[', ']']
  | .array items => '[' :: indentedItems (depth + 1) items ++ newline depth ++ [']']
  | .object [] => ['\x7b', '\x7d']
  | .object fields => '\x7b' :: indentedFields (depth + 1) fields ++ newline depth ++ ['\x7d']
  | j => compact j
/-- The items of an array on lines of their own. -/
def indentedItems (depth : Nat) : List Json → List Char
  | [] => []
  | [j] => newline depth ++ indented depth j
  | j :: rest => newline depth ++ indented depth j ++ ',' :: indentedItems depth rest
/-- The fields of an object on lines of their own. -/
def indentedFields (depth : Nat) : List (String × Json) → List Char
  | [] => []
  | [(n, j)] => newline depth ++ quoted n ++ ':' :: ' ' :: indented depth j
  | (n, j) :: rest =>
    newline depth ++ quoted n ++ ':' :: ' ' :: indented depth j ++ ',' :: indentedFields depth rest
end

/-- The indented form, as a string. -/
def pretty (j : Json) : String := String.ofList (indented 0 j)

end Json

end SchemaLedger
