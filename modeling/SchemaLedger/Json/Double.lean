/-!
# Doubles in decimal

A number with a fraction or an exponent is a double. It is read from its leading digits, as many
as fit in 64 bits, and a power of ten; conversion and scaling round one after the other, so the
result may lie a step beside the nearest double.

It is written with the fewest digits that lie nearer to it than to any other double: on each
decimal grid, from the coarsest to the finest, the two neighbours of the value are tested in exact
arithmetic. Of two that fit the nearer is taken, and the even one of two equally near.
-/

namespace SchemaLedger.Json.Double

/-! ## Reading -/

/-- A power of ten, rounded. -/
def power (exponent : Nat) : Float := Float.ofScientific 1 false exponent

/-- The largest exponent whose power of ten is finite. -/
def maxPower : Nat := 308

/-- Multiplies by a power of ten. A result that is too large is none; a scale below all powers is
taken in steps, after a few of which nothing is left. -/
def scale (f : Float) (exponent : Int) : Nat → Option Float
  | 0 => some 0
  | steps + 1 =>
    if f == 0 then some f
    else if maxPower < exponent then none
    else if 0 ≤ exponent then
      let g := f * power exponent.toNat
      if g.isFinite then some g else none
    else if -maxPower ≤ exponent then some (f / power (-exponent).toNat)
    else scale (f / power maxPower) (exponent + maxPower) steps

/-- Takes digits behind a number as long as it fits in 64 bits, and returns those that do not. -/
def takeDigits (n : Nat) : List Char → Nat × List Char
  | [] => (n, [])
  | d :: ds =>
    let next := 10 * n + (d.toNat - 48)
    if next < UInt64.size then takeDigits next ds else (n, d :: ds)

/-- The double of the digits before and behind the point and an exponent. -/
def ofDigits? (whole fraction : List Char) (exponent : Int) : Option Float :=
  let (n, left) := takeDigits 0 whole
  let (n, left') := takeDigits n fraction
  let point : Int := left.length - (fraction.length - left'.length : Int)
  scale (Float.ofNat n) (exponent + point) 5

/-! ## Writing -/

/-- Whole number and power of two whose product is a finite double without its sign. -/
def decode (f : Float) : Nat × Int :=
  let bits := f.toBits.toNat
  let fraction := bits % 0x10000000000000
  let exponent := bits / 0x10000000000000 % 0x800
  if exponent = 0 then (fraction, -1074) else (fraction + 0x10000000000000, exponent - 1075)

/-- The reals that are read as a double, its value among them, as whole numbers over a common
denominator; the ends belong to it or not. -/
structure Interval where
  low : Nat
  value : Nat
  high : Nat
  denominator : Nat
  closed : Bool

/-- The interval of a positive double. Its ends lie half way to the neighbours; below a power of
two the neighbour is half as far away. -/
def interval (mantissa : Nat) (exponent : Int) : Interval :=
  let up := Nat.pow 2 (exponent - 2).toNat
  let below := if mantissa = 0x10000000000000 ∧ -1074 < exponent then 1 else 2
  { low := (4 * mantissa - below) * up
    value := 4 * mantissa * up
    high := (4 * mantissa + 2) * up
    denominator := Nat.pow 2 (2 - exponent).toNat
    closed := mantissa % 2 == 0 }

namespace Interval

/-- The interval on a grid of a power of ten, whose points become the whole numbers. -/
def scaled (i : Interval) (exponent : Int) : Interval :=
  let up := Nat.pow 10 (-exponent).toNat
  { i with
    low := i.low * up
    value := i.value * up
    high := i.high * up
    denominator := i.denominator * Nat.pow 10 exponent.toNat }

/-- The whole number lies in the interval. -/
def contains (i : Interval) (n : Nat) : Bool :=
  let m := n * i.denominator
  if i.closed then i.low ≤ m && m ≤ i.high else i.low < m && m < i.high

/-- The neighbour of the value on the whole numbers that lies in the interval, the nearer of
two. -/
def neighbour? (i : Interval) : Option Nat :=
  let n := i.value / i.denominator
  let rest := i.value % i.denominator
  match i.contains n, i.contains (n + 1) with
  | true, true =>
    if 2 * rest < i.denominator ∨ (2 * rest = i.denominator ∧ n % 2 = 0) then some n
    else some (n + 1)
  | true, false => some n
  | false, true => some (n + 1)
  | false, false => none

end Interval

/-- Digits and exponent of a double, without its sign. -/
def shortest (f : Float) : Nat × Int :=
  let (mantissa, exponent) := decode f
  if mantissa = 0 then (0, 0)
  else
    let i := interval mantissa exponent
    let top : Int := (mantissa.log2 + exponent) * 30103 / 100000 + 2
    let grids := (List.range 22).map fun (n : Nat) ↦ top - (n : Int)
    (grids.findSome? fun k ↦ ((i.scaled k).neighbour?).map (·, k)).getD (0, 0)

end SchemaLedger.Json.Double
