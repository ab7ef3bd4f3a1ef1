/-!
# Blanks

A blank is a character with the Unicode property `White_Space`. Every place where texts are
trimmed or words are kept apart uses this one class, so a no-break space separates two keywords
just as a space does.
-/

namespace SchemaLedger.Text

/-- Has the Unicode property `White_Space`. -/
def isBlank (c : Char) : Bool :=
  c = ' ' || (9 ≤ c.toNat && c.toNat ≤ 13) || c = '\u0085' || c = '\u00A0' || c = '\u1680' ||
    (0x2000 ≤ c.toNat && c.toNat ≤ 0x200A) || c = '\u2028' || c = '\u2029' || c = '\u202F' ||
    c = '\u205F' || c = '\u3000'

/-- Without the blanks in front. -/
def stripLeft (cs : List Char) : List Char := cs.dropWhile isBlank

/-- Without the blanks at the end. -/
def stripRight (cs : List Char) : List Char := (stripLeft cs.reverse).reverse

/-- Without the blanks at either end. -/
def strip (cs : List Char) : List Char := stripRight (stripLeft cs)

/-- `strip` on strings. -/
def trim (s : String) : String := String.ofList (strip s.toList)

theorem stripLeft_length_le (cs : List Char) : (stripLeft cs).length ≤ cs.length :=
  (List.dropWhile_sublist _).length_le

end SchemaLedger.Text
