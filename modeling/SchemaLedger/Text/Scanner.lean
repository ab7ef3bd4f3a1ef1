import SchemaLedger.Text.Blank
import SchemaLedger.Text.WordChar

/-!
# Scanners

A scanner reads a value off the front of a text and hands back the rest, or fails. It is core's
state monad over `Option`, so `do` sequences scanners and `<|>` tries the second on the same text
when the first fails; there is no other backtracking. The statement forms read with it never need
more: after each of their optional parts the next character decides.

Keywords ignore case the way Unicode's simple case folding does. Two letters outside ASCII fold
to ASCII ones, the long s and the Kelvin sign, and both also count as letters of a name.
-/

namespace SchemaLedger.Text

/-- Reads a value off the front of a text. -/
abbrev Scanner (α : Type) := StateT (List Char) Option α

/-- Lower case, with the long s and the Kelvin sign read as `s` and `k`. -/
def fold (c : Char) : Char :=
  if c = '\u017F' then 's' else if c = '\u212A' then 'k' else c.toLower

/-- Equal up to case; `w` is in lower case. -/
def foldsTo (cs w : List Char) : Bool := cs.map fold == w

/-- Takes `w`, in lower case, off the front of a text in any case. -/
def dropFolded : List Char → List Char → Option (List Char)
  | [], cs => some cs
  | _ :: _, [] => none
  | w :: ws, c :: cs => if fold c = w then dropFolded ws cs else none

/-- May begin a name. -/
def isNameStart (c : Char) : Bool :=
  c.isAlpha || c = '_' || c = '\u017F' || c = '\u212A'

/-- May continue a name. -/
def isNameChar (c : Char) : Bool := isNameStart c || c.isDigit

namespace Scanner

/-- Any number of blanks. -/
def blanks : Scanner Unit := fun cs ↦ some ((), stripLeft cs)

/-- At least one blank. -/
def gap : Scanner Unit
  | [] => none
  | c :: cs => if isBlank c then some ((), stripLeft cs) else none

/-- The keyword `w`, given in lower case. -/
def keyword (w : String) : Scanner Unit := fun cs ↦ (dropFolded w.toList cs).map fun r ↦ ((), r)

/-- Keywords kept apart by blanks. -/
def phrase : List String → Scanner Unit
  | [] => pure ()
  | [w] => keyword w
  | w :: ws => do keyword w; gap; phrase ws

/-- The character `c`. -/
def symbol (c : Char) : Scanner Unit
  | [] => none
  | d :: cs => if d = c then some ((), cs) else none

/-- Everything before the next `stop`, which is taken too. -/
def upTo (stop : Char) : Scanner (List Char)
  | [] => none
  | c :: cs => if c = stop then some ([], cs) else (upTo stop cs).map fun p ↦ (c :: p.1, p.2)

/-- The longest run of characters of a class, which must not be empty. -/
def chars (p : Char → Bool) : Scanner (List Char)
  | [] => none
  | c :: cs => if p c then some (c :: cs.takeWhile p, cs.dropWhile p) else none

/-- Text between backticks. -/
def quotedName : Scanner (List Char) := do
  symbol '\x60'
  let cs ← upTo '\x60'
  if cs.isEmpty then failure else return cs

/-- A bare word that starts like a name. -/
def bareName : Scanner (List Char)
  | [] => none
  | c :: cs => if isNameStart c then chars isNameChar (c :: cs) else none

/-- A name, bare or between backticks. -/
def name : Scanner String := String.ofList <$> (quotedName <|> bareName)

/-- No word goes on here. -/
def wordEnd : Scanner Unit := fun cs ↦ if cs.head?.any isWordChar then none else some ((), cs)

/-- The text is used up. -/
def finished : Scanner Unit := fun cs ↦ if cs.isEmpty then some ((), []) else none

/-- Everything that is left. -/
def remainder : Scanner (List Char) := fun cs ↦ some (cs, [])

/-- `s` if it succeeds, and otherwise nothing. -/
def attempt {α : Type} (s : Scanner α) : Scanner (Option α) := some <$> s <|> pure none

/-- The value of a scanner that reads the text from its start, whatever is left. -/
def value? {α : Type} (s : Scanner α) (cs : List Char) : Option α := (s.run cs).map Prod.fst

/-! ## Scanners do not lengthen the text -/

/-- Never leaves more text than there was. -/
def NonGrowing {α : Type} (s : Scanner α) : Prop :=
  ∀ cs a r, s.run cs = some (a, r) → r.length ≤ cs.length

/-- Leaves less text than there was. -/
def Consuming {α : Type} (s : Scanner α) : Prop :=
  ∀ cs a r, s.run cs = some (a, r) → r.length < cs.length

variable {α β : Type}

theorem Consuming.nonGrowing {s : Scanner α} (h : Consuming s) : NonGrowing s :=
  fun cs a r e ↦ Nat.le_of_lt (h cs a r e)

theorem NonGrowing.pure (a : α) : NonGrowing (Pure.pure a) := by
  intro cs b r e
  obtain ⟨-, rfl⟩ := Prod.mk.inj (Option.some.inj e)
  exact Nat.le_refl _

theorem NonGrowing.bind {s : Scanner α} {f : α → Scanner β} (hs : NonGrowing s)
    (hf : ∀ a, NonGrowing (f a)) : NonGrowing (s >>= f) := by
  intro cs b r e
  obtain ⟨⟨a, m⟩, h, e⟩ := Option.bind_eq_some_iff.1 e
  exact Nat.le_trans (hf a m b r e) (hs cs a m h)

theorem Consuming.bind {s : Scanner α} {f : α → Scanner β} (hs : Consuming s)
    (hf : ∀ a, NonGrowing (f a)) : Consuming (s >>= f) := by
  intro cs b r e
  obtain ⟨⟨a, m⟩, h, e⟩ := Option.bind_eq_some_iff.1 e
  exact Nat.lt_of_le_of_lt (hf a m b r e) (hs cs a m h)

theorem Consuming.orElse {s t : Scanner α} (hs : Consuming s) (ht : Consuming t) :
    Consuming (s <|> t) := by
  intro cs a r e
  change (s cs <|> t cs) = some (a, r) at e
  cases h : s cs with
  | none => exact ht cs a r (by simpa [h, StateT.run] using e)
  | some p => exact hs cs a r (h.trans (by simpa [h] using e))

theorem NonGrowing.blanks : NonGrowing blanks := by
  intro cs a r e
  obtain ⟨-, rfl⟩ := Prod.mk.inj (Option.some.inj e)
  exact stripLeft_length_le cs

theorem length_of_dropFolded {w cs r : List Char} (h : dropFolded w cs = some r) :
    cs.length = w.length + r.length := by
  induction w generalizing cs with
  | nil => simp_all [dropFolded]
  | cons x w ih =>
    cases cs with
    | nil => simp [dropFolded] at h
    | cons c cs =>
      by_cases hc : fold c = x
      · have h' : dropFolded w cs = some r := by simpa [dropFolded, hc] using h
        have := ih h'
        simp only [List.length_cons]
        omega
      · simp [dropFolded, hc] at h

theorem Consuming.keyword {w : String} (hw : w.toList ≠ []) : Consuming (keyword w) := by
  intro cs a r e
  obtain ⟨r', h, e⟩ := Option.map_eq_some_iff.1 e
  obtain ⟨-, rfl⟩ := Prod.mk.inj e
  have := length_of_dropFolded h
  have := List.length_pos_iff.2 hw
  omega

theorem Consuming.symbol (c : Char) : Consuming (symbol c) := by
  intro cs a r e
  cases cs with
  | nil => exact nomatch e
  | cons d cs =>
    by_cases h : d = c
    · simp_all [Scanner.symbol, StateT.run]
    · simp [Scanner.symbol, StateT.run, h] at e

theorem Consuming.gap : Consuming gap := by
  intro cs a r e
  cases cs with
  | nil => exact nomatch e
  | cons c cs =>
    by_cases h : isBlank c
    · simp only [StateT.run, Scanner.gap, h, if_true, Option.some.injEq, Prod.mk.injEq] at e
      have := stripLeft_length_le cs
      simp [← e.2]
      omega
    · simp [Scanner.gap, StateT.run, h] at e

theorem NonGrowing.wordEnd : NonGrowing wordEnd := by
  intro cs a r e
  by_cases h : cs.head?.any isWordChar
  · simp [Scanner.wordEnd, StateT.run, h] at e
  · simp_all [Scanner.wordEnd, StateT.run]

end Scanner

end SchemaLedger.Text
