/-!
# Hexadecimal digits

Bytes in lower-case hexadecimal, two digits each.
-/

namespace SchemaLedger.Digest

/-- The lower-case digit of a number below sixteen. -/
def hexDigit (n : Nat) : Char :=
  if n < 10 then Char.ofNat (48 + n) else Char.ofNat (87 + n)

/-- The two digits of a byte. -/
def hexByte (b : UInt8) : List Char := [hexDigit (b.toNat / 16), hexDigit (b.toNat % 16)]

/-- The digits of a list of bytes. -/
def hex (bs : List UInt8) : List Char := bs.flatMap hexByte

theorem length_hex (bs : List UInt8) : (hex bs).length = 2 * bs.length := by
  induction bs with
  | nil => rfl
  | cons b bs ih =>
    simp only [hex, List.flatMap_cons, List.length_append] at ih ⊢
    simp [ih, hexByte]
    omega

end SchemaLedger.Digest
