import SchemaLedger.Json
import SchemaLedger.Text.Spelled

/-!
# Values in messages

A message that complains about a value spells it out with the kind of every part, so that the
string `"5"` and the number `5` look different.
-/

namespace SchemaLedger.Json

mutual
/-- A value in a message. -/
def debug : Json → List Char
  | .null => "Null".toList
  | .bool true => "Bool(true)".toList
  | .bool false => "Bool(false)".toList
  | .number n => "Number(".toList ++ n.text ++ [')']
  | .string s => "String(".toList ++ Text.spell s ++ [')']
  | .array items => "Array [".toList ++ debugItems items ++ [']']
  | .object fields => "Object ".toList ++ '\x7b' :: debugFields fields ++ ['\x7d']
/-- The items of an array in a message. -/
def debugItems : List Json → List Char
  | [] => []
  | [j] => debug j
  | j :: rest => debug j ++ ',' :: ' ' :: debugItems rest
/-- The fields of an object in a message. -/
def debugFields : List (String × Json) → List Char
  | [] => []
  | [(n, j)] => Text.spell n ++ ':' :: ' ' :: debug j
  | (n, j) :: rest => Text.spell n ++ ':' :: ' ' :: debug j ++ ',' :: ' ' :: debugFields rest
end

/-- A value in a message, as a string. -/
def debugText (j : Json) : String := String.ofList j.debug

end SchemaLedger.Json
