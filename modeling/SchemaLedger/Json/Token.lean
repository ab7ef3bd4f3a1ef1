/-!
# Tokens of JSON

A text is cut into brackets, commas, colons, words, numbers and strings before its nesting is
looked at. Words, numbers and strings are kept as they are written: what they stand for is not
asked as long as nobody wants to know, and some are well formed but stand for nothing. Blanks
between tokens are the four of JSON, and a string may hold no control character.
-/

namespace SchemaLedger.Json

/-- A piece of JSON text that nests nothing. -/
inductive Token where
  | openArray
  | closeArray
  | openObject
  | closeObject
  | comma
  | colon
  | word (chars : List Char)
  | string (body : List Char)
  deriving DecidableEq, Repr

/-- The value of a hexadecimal digit. -/
def hexValue? (c : Char) : Option Nat :=
  if c.isDigit then some (c.toNat - 48)
  else if 'a' ≤ c ∧ c ≤ 'f' then some (c.toNat - 87)
  else if 'A' ≤ c ∧ c ≤ 'F' then some (c.toNat - 55)
  else none

/-- The value of four hexadecimal digits. -/
def hexWord? (a b c d : Char) : Option Nat := do
  return 4096 * (← hexValue? a) + 256 * (← hexValue? b) + 16 * (← hexValue? c) + (← hexValue? d)

/-- The character that a backslash and a letter stand for. -/
def unescapeChar? (c : Char) : Option Char :=
  if c = '"' ∨ c = '\\' ∨ c = '/' then some c
  else if c = 'n' then some '\n'
  else if c = 't' then some '\t'
  else if c = 'r' then some '\r'
  else if c = 'b' then some '\x08'
  else if c = 'f' then some '\x0c'
  else none

/-- Puts characters in front of the body of a string. -/
def consBody (cs : List Char) : Option (List Char × List Char) → Option (List Char × List Char) :=
  Option.map fun p ↦ (cs ++ p.1, p.2)

/-- The body of a string whose opening quote has been read, and the text after it. -/
def stringBody : List Char → Option (List Char × List Char)
  | [] => none
  | '"' :: rest => some ([], rest)
  | '\\' :: 'u' :: a :: b :: c :: d :: rest =>
    if (hexWord? a b c d).isSome then consBody ['\\', 'u', a, b, c, d] (stringBody rest) else none
  | '\\' :: c :: rest =>
    if (unescapeChar? c).isSome then consBody ['\\', c] (stringBody rest) else none
  | c :: rest => if c.toNat < 32 then none else consBody [c] (stringBody rest)

theorem length_of_stringBody {cs content rest : List Char}
    (h : stringBody cs = some (content, rest)) : rest.length < cs.length := by
  fun_induction stringBody cs generalizing content rest <;>
    simp_all [consBody] <;> grind

/-- May stand in a word or number. -/
def isWordChar (c : Char) : Bool := c.isAlphanum || c = '-' || c = '+' || c = '.'

/-- The token of a character that is one by itself. -/
def bracket? (c : Char) : Option Token :=
  if c = '[' then some .openArray
  else if c = ']' then some .closeArray
  else if c = '\x7b' then some .openObject
  else if c = '\x7d' then some .closeObject
  else if c = ',' then some .comma
  else if c = ':' then some .colon
  else none

/-- One of the four blanks of JSON. -/
def isSpace (c : Char) : Bool := c = ' ' || c = '\n' || c = '\r' || c = '\t'

/-- The tokens of a text. -/
def tokens? : List Char → Option (List Token)
  | [] => some []
  | c :: cs =>
    if isSpace c then tokens? cs
    else if c = '"' then
      match h : stringBody cs with
      | none => none
      | some (body, rest) =>
        have := length_of_stringBody h
        (tokens? rest).map (.string body :: ·)
    else
      match bracket? c with
      | some t => (tokens? cs).map (t :: ·)
      | none =>
        have : (cs.dropWhile isWordChar).length ≤ cs.length :=
          (List.dropWhile_sublist _).length_le
        if isWordChar c then
          (tokens? (cs.dropWhile isWordChar)).map (.word (c :: cs.takeWhile isWordChar) :: ·)
        else none
  termination_by cs => cs.length

end SchemaLedger.Json
