/-!
# Terminal control

Some characters are orders to a terminal, one by one or in sequences that an escape character
opens. A text that is printed elsewhere goes without them. The sequences are those of ECMA-48: an
escape with a letter, perhaps after intermediate characters; a control sequence, which ends with a
letter; and strings, which end with a terminator of their own. Any escape character ends what is
open and opens anew.
-/

namespace SchemaLedger.Text.Terminal

/-- What is open at a place of a text. -/
inductive Sequence where
  | none
  | escape
  | intermediate
  | control
  | string
  | title
  deriving DecidableEq, Repr

/-- The escape character. -/
def escapeChar : Char := '\x1b'

/-- The control characters that space a text, which stay in it. -/
def isSpacing (c : Char) : Bool := c = '\t' || c = '\n' || c = '\x0c' || c = '\r'

/-- A character of several bytes, one of which, the first apart, is the terminator of strings. -/
def terminatesString (c : Char) : Bool :=
  0x80 ≤ c.toNat && (c.toNat % 64 = 28 || (0x800 ≤ c.toNat && c.toNat / 64 % 64 = 28) ||
    (0x10000 ≤ c.toNat && c.toNat / 4096 % 64 = 28))

/-- What is open behind an escape character and a character that is no control. -/
def afterEscape (n : Nat) : Sequence :=
  if n < 0x30 then .intermediate
  else if n = 0x5b then .control
  else if n = 0x5d then .title
  else if n = 0x50 ∨ n = 0x58 ∨ n = 0x5e ∨ n = 0x5f then .string
  else if n < 0x7f then .none
  else .escape

/-- What is open behind one more character. -/
def next (s : Sequence) (c : Char) : Sequence :=
  let n := c.toNat
  if n = 0x18 ∨ n = 0x1a then .none
  else if c = escapeChar then .escape
  else
    match s with
    | .none => .none
    | .escape => if n < 0x20 then .escape else afterEscape n
    | .intermediate => if 0x30 ≤ n ∧ n < 0x7f then .none else .intermediate
    | .control => if 0x40 ≤ n ∧ n < 0x7f then .none else .control
    | .string => if terminatesString c then .none else .string
    | .title => if n = 7 then .none else .title

/-- A character stays in the text: a visible one outside of sequences, and spacing outside of
strings. -/
def stays (s : Sequence) (c : Char) : Bool :=
  match s with
  | .none => isSpacing c || (0x20 ≤ c.toNat && c.toNat ≠ 0x7f)
  | .string => false
  | .title => false
  | _ => isSpacing c

/-- The characters that stay. -/
def visibleFrom (s : Sequence) : List Char → List Char
  | [] => []
  | c :: cs => if stays s c then c :: visibleFrom (next s c) cs else visibleFrom (next s c) cs

/-- A text without orders to a terminal. -/
def visible (text : String) : String := String.ofList (visibleFrom .none text.toList)

/-- A text in bold. -/
def bold (text : String) : String :=
  String.ofList [escapeChar] ++ "[1m" ++ text ++ String.ofList [escapeChar] ++ "[0m"

end SchemaLedger.Text.Terminal
