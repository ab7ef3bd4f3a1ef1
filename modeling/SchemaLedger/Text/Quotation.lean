/-!
# Quoted literals

A scan of statement text has to know whether it stands inside a literal. Quotes are `'`, `"` and
the backtick; inside one, a backslash takes the next character with it, and only the quote that
opened the literal closes it. `Quotation` is the state of such a scan.

With it come the three scans that skip literals: to the parenthesis that closes an open one, over
the commas of a list, and over the semicolons of a dump.
-/

namespace SchemaLedger.Text

/-- Where a scan of statement text stands with respect to literals. -/
inductive Quotation where
  | outside
  | inside (quote : Char)
  | escaped (quote : Char)
  deriving DecidableEq, Repr

/-- Opens a literal. -/
def isQuote (c : Char) : Bool := c = '\'' || c = '"' || c = '\x60'

namespace Quotation

/-- The state after one more character. -/
def next : Quotation → Char → Quotation
  | outside, c => if isQuote c then inside c else outside
  | inside q, c => if c = '\\' then escaped q else if c = q then outside else inside q
  | escaped q, _ => inside q

/-- The next character is part of a literal, its quotes included. -/
def covers : Quotation → Char → Bool
  | outside, c => isQuote c
  | inside _, _ => true
  | escaped _, _ => true

/-- The state after a text. -/
def after (s : Quotation) (cs : List Char) : Quotation := cs.foldl next s

end Quotation

/-! ## Parentheses -/

/-- What stands before the parenthesis that closes the one just opened, and what stands after it;
`depth` counts the parentheses opened since. -/
def enclosedFrom : Quotation → Nat → List Char → Option (List Char × List Char)
  | _, _, [] => none
  | q, depth, c :: cs =>
    if q.covers c then
      (enclosedFrom (q.next c) depth cs).map fun p ↦ (c :: p.1, p.2)
    else if c = ')' then
      match depth with
      | 0 => some ([], cs)
      | depth + 1 => (enclosedFrom .outside depth cs).map fun p ↦ (c :: p.1, p.2)
    else
      (enclosedFrom .outside (if c = '(' then depth + 1 else depth) cs).map
        fun p ↦ (c :: p.1, p.2)

/-- Cuts a text that follows an opening parenthesis at the closing one. -/
def enclosed (cs : List Char) : Option (List Char × List Char) := enclosedFrom .outside 0 cs

theorem length_of_enclosedFrom {q : Quotation} {depth : Nat} {cs body rest : List Char}
    (h : enclosedFrom q depth cs = some (body, rest)) : rest.length < cs.length := by
  induction cs generalizing q depth body with
  | nil => simp [enclosedFrom] at h
  | cons c cs ih =>
    have tail {q' depth'} (h : (enclosedFrom q' depth' cs).map (fun p ↦ (c :: p.1, p.2))
        = some (body, rest)) : rest.length < (c :: cs).length := by
      obtain ⟨⟨b, r⟩, hr, e⟩ := Option.map_eq_some_iff.1 h
      obtain ⟨-, rfl⟩ := Prod.mk.inj e
      exact Nat.lt_succ_of_lt (ih hr)
    rw [enclosedFrom.eq_def] at h
    dsimp only at h
    split at h
    · exact tail h
    · split at h
      · split at h
        · simp_all
        · exact tail h
      · exact tail h

/-! ## Lists and dumps -/

/-- Adds a character to the first part. -/
def consFirst (c : Char) : List (List Char) → List (List Char)
  | [] => [[c]]
  | p :: ps => (c :: p) :: ps

/-- Cuts at the commas outside literals and outside parentheses and angle brackets. -/
def splitCommasFrom : Quotation → Nat → List Char → List (List Char)
  | _, _, [] => [[]]
  | q, depth, c :: cs =>
    if q.covers c then consFirst c (splitCommasFrom (q.next c) depth cs)
    else if c = ',' ∧ depth = 0 then [] :: splitCommasFrom .outside 0 cs
    else
      let depth' :=
        if c = '(' ∨ c = '<' then depth + 1 else if c = ')' ∨ c = '>' then depth - 1 else depth
      consFirst c (splitCommasFrom .outside depth' cs)

/-- The members of a comma-separated list. -/
def splitCommas (cs : List Char) : List (List Char) := splitCommasFrom .outside 0 cs

/-- Cuts at the semicolons outside literals. -/
def splitSemicolonsFrom : Quotation → List Char → List (List Char)
  | _, [] => [[]]
  | q, c :: cs =>
    if !q.covers c && c = ';' then [] :: splitSemicolonsFrom .outside cs
    else consFirst c (splitSemicolonsFrom (q.next c) cs)

/-- The statements of a dump, blanks and all. -/
def splitSemicolons (cs : List Char) : List (List Char) := splitSemicolonsFrom .outside cs

/-! ## Lines -/

/-- The lines of a text without their line ends, a line feed or a carriage return and a line
feed; a carriage return on its own ends no line, and text after the last line feed counts as a
line only if there is any. -/
def lines : List Char → List (List Char)
  | [] => []
  | '\n' :: cs => [] :: lines cs
  | '\r' :: '\n' :: cs => [] :: lines cs
  | c :: cs => consFirst c (lines cs)

end SchemaLedger.Text
