import SchemaLedger.Json
import SchemaLedger.Json.Outline

/-!
# Reading JSON

The value of an outline is found by reading its numbers and strings. A string may name a character
by the two halves of a surrogate pair; a half without its other one stands for nothing, and neither
does a number that is too large, so that not every outline has a value.

A reader that is after certain fields only passes over all others. A shape says what it is after,
and what lies outside of the shape need not have a value.
-/

namespace SchemaLedger.Json

/-! ## Strings -/

/-- The character of a 16-bit unit that is not half of a pair. -/
def unitChar? (n : Nat) : Option Char := if n.isValidChar then some (Char.ofNat n) else none

/-- The character of the two halves of a pair. -/
def joinHalves? (high low : Nat) : Option Char :=
  if 0xdc00 ≤ low ∧ low < 0xe000 then unitChar? (0x10000 + 0x400 * (high - 0xd800) + (low - 0xdc00))
  else none

/-- The characters that the body of a string stands for. -/
def unescape? : List Char → Option (List Char)
  | [] => some []
  | '\\' :: 'u' :: a :: b :: c :: d :: rest => do
    let n ← hexWord? a b c d
    if 0xd800 ≤ n ∧ n < 0xdc00 then
      match rest with
      | '\\' :: 'u' :: e :: f :: g :: h :: rest =>
        return (← joinHalves? n (← hexWord? e f g h)) :: (← unescape? rest)
      | _ => none
    else return (← unitChar? n) :: (← unescape? rest)
  | '\\' :: c :: rest => return (← unescapeChar? c) :: (← unescape? rest)
  | c :: rest => return c :: (← unescape? rest)

/-- The string of a body. -/
def stringOfBody? (body : List Char) : Option String := String.ofList <$> unescape? body

/-! ## Values -/

/-- What a reader is after: the whole value, or of a list its items, or of a record its known
fields, which may also stand one after another in an array. -/
inductive Shape where
  | whole
  | list (item : Shape)
  | record (fields : List (String × Shape))

namespace Shape

/-- The shapes of the first items of an array. -/
def positions : Shape → List Shape
  | record fields => fields.map (·.2)
  | _ => []

/-- The shape of all further items of an array. -/
def item : Shape → Shape
  | list s => s
  | _ => whole

/-- The shape of a field of an object, unless it is passed over. -/
def field? : Shape → String → Option Shape
  | record fields, name => fields.lookup name
  | _, _ => some whole

end Shape

namespace Outline

mutual
/-- What a shape shows of a value. The names of all fields are read where some are passed over. -/
def value? (s : Shape) : Outline → Option Json
  | null => some .null
  | bool b => some (.bool b)
  | number n => .number <$> n.value?
  | string body => .string <$> stringOfBody? body
  | array items => .array <$> itemValues? s.positions s.item items
  | object fields => .object <$> fieldValues? s fields
/-- What shapes, and another one behind them, show of the items of an array. -/
def itemValues? (shapes : List Shape) (further : Shape) : List Outline → Option (List Json)
  | [] => some []
  | o :: rest => do
    return (← value? (shapes.headD further) o) :: (← itemValues? shapes.tail further rest)
/-- What a shape shows of the fields of an object. -/
def fieldValues? (s : Shape) : List (List Char × Outline) → Option (List (String × Json))
  | [] => some []
  | (body, o) :: rest => do
    let name ← stringOfBody? body
    match s.field? name with
    | some shape => return (name, ← value? shape o) :: (← fieldValues? s rest)
    | none => fieldValues? s rest
end

end Outline

/-! ## Texts -/

/-- The deepest nesting of a text that is read as a whole. -/
def maxDepth : Nat := 127

/-- How deep a text nests after one more token. -/
def depthAfter (depth : Nat) : Token → Nat
  | .openArray => depth + 1
  | .openObject => depth + 1
  | .closeArray => depth - 1
  | .closeObject => depth - 1
  | _ => depth

/-- No value nests deeper than `maxDepth`. -/
def nestsWithin (depth : Nat) : List Token → Bool
  | [] => true
  | t :: ts => depthAfter depth t ≤ maxDepth && nestsWithin (depthAfter depth t) ts

/-- The value of a text, with the fields of objects in the order in which they are written. -/
def ofText? (s : String) : Option Json := do
  let ts ← tokens? s.toList
  if nestsWithin 0 ts then (← Outline.ofTokens? ts).value? .whole else none

/-- What a shape shows of the value of a text. What it passes over may nest as deep as it likes. -/
def ofTextWithin? (s : Shape) (text : String) : Option Json := do (← Outline.ofText? text).value? s

end SchemaLedger.Json
