import SchemaLedger.Json.Double

/-!
# Numbers of JSON

A number is an integer of the signed or unsigned 64-bit range, or a decimal: an integer part that
lies outside the range, a fraction or an exponent makes it one, and so does a negative zero. The
two never agree: `1` and `1.0` are different numbers, and are written differently.

A decimal stands for a double, the one that its text is read as. It is the shortest that does: a
sign, a whole number without trailing zeros and a power of ten, so `1.50` and `15e-1` are one
number. It is written positionally as long as the point stands within sixteen places after the
first digit or four zeros before it, always with a fraction, and otherwise with an exponent, which
has a sign in any case.
-/

namespace SchemaLedger.Json

/-- A decimal: `± digits · 10 ^ exponent`, where `digits` does not end in zero, or both are zero. -/
structure Decimal where
  negative : Bool
  digits : Nat
  exponent : Int
  normal : digits % 10 ≠ 0 ∨ digits = 0 ∧ exponent = 0
  deriving DecidableEq, Repr

/-- A number as JSON tells numbers apart. -/
inductive Number where
  | int (value : Int)
  | decimal (value : Decimal)
  deriving DecidableEq, Repr

namespace Decimal

/-- The decimal of a whole number and a power of ten. -/
def ofScientific (negative : Bool) (digits : Nat) (exponent : Int) : Decimal :=
  if digits = 0 then ⟨negative, 0, 0, .inr ⟨rfl, rfl⟩⟩
  else if h : digits % 10 = 0 then ofScientific negative (digits / 10) (exponent + 1)
  else ⟨negative, digits, exponent, .inl h⟩
  termination_by digits
  decreasing_by omega

/-- Where the point stands: `10 ^ (point - 1) ≤ value < 10 ^ point`. -/
def point (d : Decimal) : Int := (Nat.toDigits 10 d.digits).length + d.exponent

/-- The digits and the point or exponent, without the sign. -/
def magnitude (d : Decimal) : List Char :=
  let ds := Nat.toDigits 10 d.digits
  let point := d.point
  if d.digits = 0 then ['0', '.', '0']
  else if 0 ≤ d.exponent ∧ point ≤ 16 then
    ds ++ List.replicate d.exponent.toNat '0' ++ ['.', '0']
  else if 0 < point ∧ point ≤ 16 then
    ds.take point.toNat ++ '.' :: ds.drop point.toNat
  else if -5 < point ∧ point ≤ 0 then
    '0' :: '.' :: List.replicate (-point).toNat '0' ++ ds
  else
    let fraction := if ds.length = 1 then [] else '.' :: ds.drop 1
    let sign := if 0 < point then ['+'] else []
    ds.take 1 ++ fraction ++ 'e' :: sign ++ (toString (point - 1)).toList

/-- The written form. -/
def text (d : Decimal) : List Char := if d.negative then '-' :: d.magnitude else d.magnitude

end Decimal

namespace Number

/-- The written form. -/
def text : Number → List Char
  | .int i => (toString i).toList
  | .decimal d => d.text

end Number

/-! ## Reading -/

/-- A number as it is written: a sign, the digits before the point and behind it, and an
exponent. -/
structure Numeral where
  negative : Bool
  whole : List Char
  fraction : Option (List Char)
  exponent : Option Int
  deriving DecidableEq, Repr

namespace Numeral

/-- The value of a list of decimal digits. -/
def digitsValue (ds : List Char) : Nat := ds.foldl (fun n d ↦ 10 * n + (d.toNat - 48)) 0

/-- An integer part has no superfluous zero. -/
def isIntegerPart : List Char → Bool
  | [] => false
  | ['0'] => true
  | c :: cs => c != '0' && (c :: cs).all Char.isDigit

/-- Reads an exponent with its mark; no text stands for none. -/
def exponent? : List Char → Option (Option Int)
  | [] => some none
  | e :: cs =>
    let (negative, ds) := match cs with
      | '-' :: ds => (true, ds)
      | '+' :: ds => (false, ds)
      | ds => (false, ds)
    if (e = 'e' ∨ e = 'E') ∧ ds ≠ [] ∧ ds.all Char.isDigit then
      some (some (if negative then -(digitsValue ds : Int) else digitsValue ds))
    else none

/-- Reads a fraction with its point; no text stands for none. -/
def fraction? : List Char → Option (Option (List Char))
  | [] => some none
  | c :: ds => if c = '.' ∧ ds ≠ [] ∧ ds.all Char.isDigit then some (some ds) else none

/-- Takes a text apart. -/
def ofText? (cs : List Char) : Option Numeral := do
  let (negative, cs) := match cs with
    | '-' :: cs => (true, cs)
    | cs => (false, cs)
  let (mantissa, tail) := cs.span fun c ↦ c != 'e' && c != 'E'
  let (whole, tail') := mantissa.span (· != '.')
  let fraction ← fraction? tail'
  let exponent ← exponent? tail
  if isIntegerPart whole then some { negative, whole, fraction, exponent } else none

/-- The largest absolute value of an integer of a sign. -/
def limit (negative : Bool) : Nat := if negative then 9223372036854775808 else 18446744073709551615

/-- The number that is meant; one that is too large for a double is none. -/
def value? (n : Numeral) : Option Number :=
  let whole := digitsValue n.whole
  if n.fraction.isNone ∧ n.exponent.isNone ∧ whole ≤ limit n.negative ∧
      ¬(n.negative ∧ whole = 0) then
    some (.int (if n.negative then -(whole : Int) else whole))
  else do
    let f ← Double.ofDigits? n.whole (n.fraction.getD []) (n.exponent.getD 0)
    let (digits, exponent) := Double.shortest f
    return .decimal (.ofScientific n.negative digits exponent)

end Numeral

end SchemaLedger.Json
