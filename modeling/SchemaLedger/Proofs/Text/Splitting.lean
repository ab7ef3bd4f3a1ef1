import Mathlib
import SchemaLedger.Proofs.Text.Parts
import SchemaLedger.Proofs.Text.Scanning
import SchemaLedger.Text.Quotation

/-!
# Texts that are neither cut nor left

Lists are cut at their outer commas and a body ends at its closing parenthesis, where literals and
parentheses in between do not count. A `Sealed` text is one that both scans pass through as a whole:
whatever follows it, no cut falls inside it, and the scan that comes out of it is in the state in
which it went in. A text that `Shifts` the depth opens or closes parentheses on its way, and texts
that do so one after another add up. So sealed texts are closed under concatenation and brackets,
and a text is shown to be sealed along the way in which it is written.

A text may also end inside a literal, and behind such a `Gaping` text no comma is found. A list is
`Apart` if it is cut into just the members that it was put together from.
-/

namespace SchemaLedger.Text

/-- Both scans pass through the text as a whole. -/
structure Sealed (p : List Char) : Prop where
  splitCommasFrom_append : ∀ depth r,
    splitCommasFrom .outside depth (p ++ r) = p.foldr consFirst (splitCommasFrom .outside depth r)
  enclosedFrom_append : ∀ depth r,
    enclosedFrom .outside depth (p ++ r)
      = (enclosedFrom .outside depth r).map fun x ↦ (p ++ x.1, x.2)

/-! ## One character -/

section Step

variable {q : Quotation} {c : Char} (depth : Nat) (cs : List Char)

theorem splitCommasFrom_of_covers (h : q.covers c = true) :
    splitCommasFrom q depth (c :: cs) = consFirst c (splitCommasFrom (q.next c) depth cs) := by
  rw [splitCommasFrom.eq_def]
  simp only [h, if_true]

theorem enclosedFrom_of_covers (h : q.covers c = true) :
    enclosedFrom q depth (c :: cs)
      = (enclosedFrom (q.next c) depth cs).map fun x ↦ (c :: x.1, x.2) := by
  rw [enclosedFrom.eq_def]
  simp only [h, if_true]

theorem splitCommasFrom_comma : splitCommasFrom .outside 0 (',' :: cs)
    = [] :: splitCommasFrom .outside 0 cs := by
  rw [splitCommasFrom.eq_def]
  rfl

theorem enclosedFrom_close : enclosedFrom .outside 0 (')' :: cs) = some ([], cs) := by
  rw [enclosedFrom.eq_def]
  rfl

end Step

/-- A character that means nothing to either scan. -/
def isInert (c : Char) : Bool :=
  !isQuote c && c != ',' && c != '(' && c != ')' && c != '<' && c != '>'

theorem splitCommasFrom_of_isInert {c : Char} (h : isInert c = true) (depth : Nat)
    (cs : List Char) :
    splitCommasFrom .outside depth (c :: cs) = consFirst c (splitCommasFrom .outside depth cs) := by
  simp only [isInert, Bool.and_eq_true, bne_iff_ne, ne_eq, Bool.not_eq_true'] at h
  obtain ⟨⟨⟨⟨⟨hq, hcomma⟩, hopen⟩, hclose⟩, hlt⟩, hgt⟩ := h
  rw [splitCommasFrom.eq_def]
  simp only [Quotation.covers, hq, hcomma, hopen, hclose, hlt, hgt, false_and, or_self, if_false,
    Bool.false_eq_true]

theorem enclosedFrom_of_isInert {c : Char} (h : isInert c = true ∨ c = ',') (depth : Nat)
    (cs : List Char) :
    enclosedFrom .outside depth (c :: cs)
      = (enclosedFrom .outside depth cs).map fun x ↦ (c :: x.1, x.2) := by
  have hc : isQuote c = false ∧ c ≠ '(' ∧ c ≠ ')' := by
    rcases h with h | rfl
    · simp only [isInert, Bool.and_eq_true, bne_iff_ne, ne_eq, Bool.not_eq_true'] at h
      exact ⟨h.1.1.1.1.1, h.1.1.1.2, h.1.1.2⟩
    · decide
  rw [enclosedFrom.eq_def]
  simp only [Quotation.covers, hc, if_false, Bool.false_eq_true]

/-! ## Inside a literal -/

namespace Quotation

theorem next_opening {q : Char} (hq : isQuote q = true) : outside.next q = inside q := if_pos hq

theorem next_closing {q : Char} (hq : isQuote q = true) : (inside q).next q = outside := by
  have hslash : q ≠ '\\' := by
    rintro rfl
    contradiction
  rw [next, if_neg hslash, if_pos rfl]

theorem next_inside {q c : Char} (hslash : c ≠ '\\') (hquote : c ≠ q) :
    (inside q).next c = inside q := by
  rw [next, if_neg hslash, if_neg hquote]

/-- In a literal that the character opened. -/
def Within (q : Char) (s : Quotation) : Prop := s = inside q ∨ s = escaped q

theorem Within.covers {q : Char} {s : Quotation} (h : Within q s) (c : Char) :
    s.covers c = true := by
  rcases h with rfl | rfl <;> rfl

/-- Only its quote ends a literal. -/
theorem Within.next {q c : Char} {s : Quotation} (h : Within q s) (hc : c ≠ q) :
    Within q (s.next c) := by
  rcases h with rfl | rfl
  · rw [Quotation.next]
    by_cases hb : c = '\\'
    · rw [if_pos hb]
      exact Or.inr rfl
    · rw [if_neg hb, if_neg hc]
      exact Or.inl rfl
  · exact Or.inl rfl

theorem after_cons (s : Quotation) (c : Char) (cs : List Char) :
    s.after (c :: cs) = (s.next c).after cs := rfl

theorem Within.after {q : Char} {s : Quotation} (h : Within q s) {cs : List Char} (hcs : q ∉ cs) :
    Within q (s.after cs) := by
  induction cs generalizing s with
  | nil => exact h
  | cons c cs ih =>
    obtain ⟨hc, hcs⟩ : q ≠ c ∧ q ∉ cs := by simpa using hcs
    exact ih (h.next (Ne.symm hc)) hcs

/-- Without a backslash nothing is escaped. -/
theorem after_inside {q : Char} {cs : List Char} (hq : q ∉ cs) (hb : '\\' ∉ cs) :
    (inside q).after cs = inside q := by
  induction cs with
  | nil => rfl
  | cons c cs ih =>
    obtain ⟨hc, hcs⟩ : q ≠ c ∧ q ∉ cs := by simpa using hq
    obtain ⟨hb, hbs⟩ : '\\' ≠ c ∧ '\\' ∉ cs := by simpa using hb
    rw [after_cons, next_inside (Ne.symm hb) (Ne.symm hc), ih hcs hbs]

end Quotation

/-- The character stands in literals only. -/
def Quoted (d : Char) (cs : List Char) : Prop :=
  ∀ n < cs.length, cs[n]? = some d → Quotation.outside.after (cs.take n) ≠ .outside

instance (d : Char) (cs : List Char) : Decidable (Quoted d cs) :=
  inferInstanceAs (Decidable (∀ n < cs.length, _))

section Within

variable {q : Char} {s : Quotation} {cs : List Char}

theorem splitCommasFrom_within (h : s.Within q) (hcs : q ∉ cs) (depth : Nat) (r : List Char) :
    splitCommasFrom s depth (cs ++ r)
      = cs.foldr consFirst (splitCommasFrom (s.after cs) depth r) := by
  induction cs generalizing s with
  | nil => rfl
  | cons c cs ih =>
    obtain ⟨hc, hcs⟩ : q ≠ c ∧ q ∉ cs := by simpa using hcs
    rw [List.cons_append, splitCommasFrom_of_covers _ _ (h.covers c), ih (h.next (Ne.symm hc)) hcs]
    rfl

theorem enclosedFrom_within (h : s.Within q) (hcs : q ∉ cs) (depth : Nat) (r : List Char) :
    enclosedFrom s depth (cs ++ r)
      = (enclosedFrom (s.after cs) depth r).map fun x ↦ (cs ++ x.1, x.2) := by
  induction cs generalizing s with
  | nil =>
    change enclosedFrom s depth r = (enclosedFrom s depth r).map id
    rw [Option.map_id, id]
  | cons c cs ih =>
    obtain ⟨hc, hcs⟩ : q ≠ c ∧ q ∉ cs := by simpa using hcs
    rw [List.cons_append, enclosedFrom_of_covers _ _ (h.covers c), ih (h.next (Ne.symm hc)) hcs,
      Option.map_map]
    rfl

end Within

/-! ## Texts that change the depth -/

/-- Both scans pass through the text, from depth `i` to depth `j` or both as much deeper. -/
structure Shifts (i j : Nat) (p : List Char) : Prop where
  splitCommasFrom_append : ∀ depth r, splitCommasFrom .outside (depth + i) (p ++ r)
    = p.foldr consFirst (splitCommasFrom .outside (depth + j) r)
  enclosedFrom_append : ∀ depth r, enclosedFrom .outside (depth + i) (p ++ r)
    = (enclosedFrom .outside (depth + j) r).map fun x ↦ (p ++ x.1, x.2)

/-- A sealed text comes out at the depth at which it went in. -/
theorem Sealed.shifts {p : List Char} (h : Sealed p) (i : Nat) : Shifts i i p :=
  ⟨fun depth ↦ h.splitCommasFrom_append (depth + i), fun depth ↦ h.enclosedFrom_append (depth + i)⟩

namespace Shifts

variable {i j k : Nat} {a b p : List Char}

theorem isSealed (h : Shifts 0 0 p) : Sealed p := ⟨h.splitCommasFrom_append, h.enclosedFrom_append⟩

theorem append (ha : Shifts i j a) (hb : Shifts j k b) : Shifts i k (a ++ b) where
  splitCommasFrom_append depth r := by
    rw [List.append_assoc, ha.splitCommasFrom_append, hb.splitCommasFrom_append, List.foldr_append]
  enclosedFrom_append depth r := by
    rw [List.append_assoc, ha.enclosedFrom_append, hb.enclosedFrom_append, Option.map_map]
    simp only [Function.comp_def, List.append_assoc]

/-- Where the scans pass, they pass at greater depths. -/
theorem deeper (h : Shifts i j p) (k : Nat) : Shifts (k + i) (k + j) p where
  splitCommasFrom_append depth r := by
    rw [← Nat.add_assoc, h.splitCommasFrom_append, Nat.add_assoc]
  enclosedFrom_append depth r := by
    rw [← Nat.add_assoc, h.enclosedFrom_append, Nat.add_assoc]

theorem opening (i : Nat) : Shifts i (i + 1) ['('] where
  splitCommasFrom_append depth r := by
    rw [List.singleton_append, splitCommasFrom.eq_def]
    simp [Quotation.covers, isQuote, Nat.add_assoc]
  enclosedFrom_append depth r := by
    rw [List.singleton_append, enclosedFrom.eq_def]
    simp [Quotation.covers, isQuote, Nat.add_assoc]

theorem closing (i : Nat) : Shifts (i + 1) i [')'] where
  splitCommasFrom_append depth r := by
    rw [List.singleton_append, splitCommasFrom.eq_def]
    simp [Quotation.covers, isQuote]
  enclosedFrom_append depth r := by
    rw [List.singleton_append, enclosedFrom.eq_def, ← Nat.add_assoc]
    simp [Quotation.covers, isQuote]

end Shifts

/-! ## Sealed texts -/

namespace Sealed

theorem nil : Sealed [] where
  splitCommasFrom_append _ _ := rfl
  enclosedFrom_append depth r := by
    rw [List.nil_append]
    cases enclosedFrom .outside depth r <;> rfl

theorem append {a b : List Char} (ha : Sealed a) (hb : Sealed b) : Sealed (a ++ b) :=
  ((ha.shifts 0).append (hb.shifts 0)).isSealed

theorem singleton {c : Char} (h : isInert c = true) : Sealed [c] where
  splitCommasFrom_append depth r := splitCommasFrom_of_isInert h depth r
  enclosedFrom_append depth r := enclosedFrom_of_isInert (Or.inl h) depth r

theorem of_forall {p : List Char} (h : ∀ c ∈ p, isInert c = true) : Sealed p := by
  induction p with
  | nil => exact nil
  | cons c p ih =>
    exact append (singleton (h c List.mem_cons_self))
      (ih fun d hd ↦ h d (List.mem_cons_of_mem c hd))

/-- Decided for a literal text. -/
theorem of_all {p : List Char} (h : p.all isInert = true) : Sealed p :=
  of_forall (List.all_eq_true.1 h)

/-- A sealed text between parentheses. -/
theorem parenthesised {p : List Char} (h : Sealed p) : Sealed ('(' :: (p ++ [')'])) :=
  ((Shifts.opening 0).append ((h.shifts 1).append (Shifts.closing 0))).isSealed

/-- A sealed text between angle brackets. -/
theorem bracketed {p : List Char} (h : Sealed p) : Sealed ('<' :: (p ++ ['>'])) where
  splitCommasFrom_append depth r := by
    have hopen : splitCommasFrom .outside depth ('<' :: (p ++ ('>' :: r)))
        = consFirst '<' (splitCommasFrom .outside (depth + 1) (p ++ ('>' :: r))) := by
      rw [splitCommasFrom.eq_def]
      simp [Quotation.covers, isQuote]
    have hclose : splitCommasFrom .outside (depth + 1) ('>' :: r)
        = consFirst '>' (splitCommasFrom .outside depth r) := by
      rw [splitCommasFrom.eq_def]
      simp [Quotation.covers, isQuote]
    rw [List.cons_append, List.append_assoc, List.singleton_append, hopen,
      h.splitCommasFrom_append, hclose, List.foldr_cons, List.foldr_append]
    rfl
  enclosedFrom_append depth r := by
    have hstep : ∀ c ∈ ['<', '>'], ∀ cs, enclosedFrom .outside depth (c :: cs)
        = (enclosedFrom .outside depth cs).map fun x ↦ (c :: x.1, x.2) := by
      intro c hc cs
      rw [enclosedFrom.eq_def]
      rcases List.mem_cons.1 hc with rfl | hc
      · simp [Quotation.covers, isQuote]
      · rw [List.mem_singleton.1 hc]
        simp [Quotation.covers, isQuote]
    rw [List.cons_append, List.append_assoc, List.singleton_append, hstep '<' (by simp),
      h.enclosedFrom_append, hstep '>' (by simp), Option.map_map, Option.map_map]
    simp only [Function.comp_def, List.cons_append, List.append_assoc, List.nil_append]

/-- A literal whose inside ends with nothing escaped. -/
theorem literal {q : Char} {cs : List Char} (hq : isQuote q = true) (hcs : q ∉ cs)
    (hafter : (Quotation.inside q).after cs = .inside q) : Sealed (q :: (cs ++ [q])) := by
  have hout : Quotation.outside.covers q = true := hq
  have hin : (Quotation.inside q).Within q := Or.inl rfl
  refine ⟨fun depth r ↦ ?_, fun depth r ↦ ?_⟩
  · rw [List.cons_append, List.append_assoc, List.singleton_append,
      splitCommasFrom_of_covers _ _ hout, Quotation.next_opening hq, splitCommasFrom_within hin hcs,
      hafter, splitCommasFrom_of_covers _ _ (hin.covers q), Quotation.next_closing hq,
      List.foldr_cons, List.foldr_append]
    rfl
  · rw [List.cons_append, List.append_assoc, List.singleton_append, enclosedFrom_of_covers _ _ hout,
      Quotation.next_opening hq, enclosedFrom_within hin hcs, hafter,
      enclosedFrom_of_covers _ _ (hin.covers q), Quotation.next_closing hq, Option.map_map,
      Option.map_map]
    simp only [Function.comp_def, List.cons_append, List.append_assoc, List.nil_append]

end Sealed

/-! ## Texts that end inside a literal -/

/-- The commas of a list are looked for through the whole of the text, and behind it inside a
literal. -/
def Gaping (q : Char) (p : List Char) : Prop :=
  ∀ depth r, splitCommasFrom .outside depth (p ++ r) =
    p.foldr consFirst (splitCommasFrom (.inside q) depth r)

namespace Gaping

/-- A literal whose last quote is escaped goes on behind it. -/
theorem literal {q : Char} {cs : List Char} (hq : isQuote q = true) (hcs : q ∉ cs)
    (hafter : (Quotation.inside q).after cs ≠ .inside q) : Gaping q (q :: (cs ++ [q])) := by
  intro depth r
  have hout : Quotation.outside.covers q = true := hq
  have hin : (Quotation.inside q).Within q := Or.inl rfl
  have hescaped : (Quotation.inside q).after cs = .escaped q := (hin.after hcs).resolve_left hafter
  have hcovers : (Quotation.escaped q).covers q = true := rfl
  have hnext : (Quotation.escaped q).next q = .inside q := rfl
  rw [List.cons_append, List.append_assoc, List.singleton_append,
    splitCommasFrom_of_covers _ _ hout, Quotation.next_opening hq, splitCommasFrom_within hin hcs,
    hescaped, splitCommasFrom_of_covers _ _ hcovers, hnext, List.foldr_cons, List.foldr_append]
  rfl

theorem append {q : Char} {p t : List Char} (h : Gaping q p) (ht : q ∉ t) (hb : '\\' ∉ t) :
    Gaping q (p ++ t) := by
  intro depth r
  rw [List.append_assoc, h, splitCommasFrom_within (Or.inl rfl) ht, Quotation.after_inside ht hb,
    List.foldr_append]

end Gaping

/-! ## Lists of sealed texts -/

/-- A sealed text is a list of one member. -/
theorem splitCommas_of_sealed {p : List Char} (h : Sealed p) : splitCommas p = [p] := by
  have := h.splitCommasFrom_append 0 []
  rw [List.append_nil] at this
  rw [splitCommas, this, splitCommasFrom, consFirst_foldr_cons, List.append_nil]

/-- The first member of a list ends at the comma behind it. -/
theorem splitCommas_append_comma {p : List Char} (h : Sealed p) (cs : List Char) :
    splitCommas (p ++ ',' :: cs) = p :: splitCommas cs := by
  rw [splitCommas, h.splitCommasFrom_append, splitCommasFrom_comma, consFirst_foldr_cons,
    List.append_nil, splitCommas]

theorem splitCommas_intercalate {b p : List Char} (hb : Sealed b) (hp : Sealed p)
    {ps : List (List Char)} (hps : ∀ x ∈ ps, Sealed x) :
    splitCommas ((',' :: b).intercalate (p :: ps)) = p :: ps.map (b ++ ·) := by
  induction ps generalizing p with
  | nil => rw [List.intercalate_singleton, splitCommas_of_sealed hp, List.map_nil]
  | cons x ps ih =>
    have hx : Sealed x := hps x List.mem_cons_self
    have hrest : b ++ (',' :: b).intercalate (x :: ps) =
        (',' :: b).intercalate ((b ++ x) :: ps) := by
      cases ps with
      | nil => simp only [List.intercalate_singleton]
      | cons y ps => simp only [List.intercalate_cons_cons, List.append_assoc]
    rw [List.intercalate_cons_cons, List.append_assoc, List.cons_append,
      splitCommas_append_comma hp, hrest, ih (hb.append hx) fun y hy ↦
        hps y (List.mem_cons_of_mem x hy),
      List.map_cons]

/-- The members of a list whose commas stand at line ends, cut out and trimmed. -/
theorem filter_strip_splitCommas {a b e : List Char} (ha : Sealed a) (hb : Sealed b)
    (he : Sealed e) (ha' : ∀ c ∈ a, isBlank c = true) (hb' : ∀ c ∈ b, isBlank c = true)
    (he' : ∀ c ∈ e, isBlank c = true) {ps : List (List Char)}
    (hps : ∀ p ∈ ps, Sealed p ∧ p ≠ [] ∧ Stops isBlank p ∧ Stops isBlank p.reverse) :
    ((splitCommas (a ++ ((',' :: b).intercalate ps ++ e))).map strip).filter (!·.isEmpty) = ps := by
  induction ps generalizing a with
  | nil =>
    have hempty : strip (a ++ e) = [] := by
      rw [← List.append_nil (a ++ e)]
      exact strip_append (fun c hc ↦ (List.mem_append.1 hc).elim (ha' c) (he' c)) (stops_nil _)
        (stops_nil _)
    rw [List.intercalate_nil, List.nil_append, splitCommas_of_sealed (ha.append he), List.map_cons,
      hempty]
    rfl
  | cons p ps ih =>
    obtain ⟨hp, hne, hl, hr⟩ := hps p List.mem_cons_self
    have keep (xs : List (List Char)) :
        (p :: xs).filter (!·.isEmpty) = p :: xs.filter (!·.isEmpty) :=
      List.filter_cons_of_pos (by simpa using hne)
    cases ps with
    | nil =>
      rw [List.intercalate_singleton, splitCommas_of_sealed (ha.append (hp.append he)),
        List.map_cons, strip_between ha' he' hne hl hr, List.map_nil,
        keep, List.filter_nil]
    | cons x ps =>
      rw [List.intercalate_cons_cons, List.append_assoc, List.append_assoc, ← List.append_assoc,
        List.cons_append, splitCommas_append_comma (ha.append hp), List.map_cons,
        strip_append ha' hl hr, keep,
        ih hb hb' fun y hy ↦ hps y (List.mem_cons_of_mem p hy)]

/-! ## Lists put together again -/

theorem splitCommasFrom_ne_nil (q : Quotation) (depth : Nat) (cs : List Char) :
    splitCommasFrom q depth cs ≠ [] := by
  have hfirst (c : Char) (ps : List (List Char)) : consFirst c ps ≠ [] := by
    cases ps <;> exact List.cons_ne_nil _ _
  cases cs with
  | nil => exact List.cons_ne_nil _ _
  | cons c cs =>
    rw [splitCommasFrom]
    split
    · exact hfirst c _
    · split
      · exact List.cons_ne_nil _ _
      · exact hfirst c _

/-- With commas between them, the members of a list are the list. -/
theorem intercalate_splitCommasFrom (q : Quotation) (depth : Nat) (cs : List Char) :
    [','].intercalate (splitCommasFrom q depth cs) = cs := by
  induction cs generalizing q depth with
  | nil => rfl
  | cons c cs ih =>
    rw [splitCommasFrom]
    split
    · rw [intercalate_consFirst, ih]
    · split
      · rename_i hc
        obtain ⟨p, ps, hps⟩ := List.exists_cons_of_ne_nil (splitCommasFrom_ne_nil .outside 0 cs)
        have htail : [','].intercalate (p :: ps) = cs := hps ▸ ih .outside 0
        rw [hps, List.intercalate_cons_cons, htail, hc.1]
        rfl
      · rw [intercalate_consFirst, ih]

theorem intercalate_splitCommas (cs : List Char) : [','].intercalate (splitCommas cs) = cs :=
  intercalate_splitCommasFrom .outside 0 cs

theorem mem_of_mem_splitCommas {cs part : List Char} (hpart : part ∈ splitCommas cs) {c : Char}
    (hc : c ∈ part) :
    c ∈ cs :=
  intercalate_splitCommas cs ▸ mem_intercalate hpart hc

theorem intercalate_map_blank (x : List Char) (xs : List (List Char)) :
    [','].intercalate (x :: xs.map ([' '] ++ ·)) = ", ".toList.intercalate (x :: xs) := by
  have hsep : ", ".toList = [','] ++ [' '] := by decide
  have hrest (y : List Char) (ys : List (List Char)) :
      [','].intercalate (([' '] ++ y) :: ys) = [' '] ++ [','].intercalate (y :: ys) := by
    cases ys with
    | nil => rfl
    | cons z ys => simp only [List.intercalate_cons_cons, List.append_assoc]
  induction xs generalizing x with
  | nil => rfl
  | cons y xs ih =>
    rw [List.map_cons, List.intercalate_cons_cons, hrest, ih, List.intercalate_cons_cons, hsep]
    simp only [List.append_assoc]

/-! ## Lists that are cut between their members -/

/-- The list of these members is cut between them and nowhere else. All but the first have a blank
in front. -/
def Apart : List (List Char) → Prop
  | [] => True
  | x :: xs => splitCommas (", ".toList.intercalate (x :: xs)) = x :: xs.map ([' '] ++ ·)

instance : DecidablePred Apart
  | [] => inferInstanceAs (Decidable True)
  | _ :: _ => inferInstanceAs (Decidable (_ = _))

theorem Apart.splitCommas_eq {x : List Char} {xs : List (List Char)} (h : Apart (x :: xs)) :
    splitCommas (", ".toList.intercalate (x :: xs)) = x :: xs.map ([' '] ++ ·) := h

theorem apart_of_sealed {xs : List (List Char)} (h : ∀ x ∈ xs, Sealed x) : Apart xs := by
  cases xs with
  | nil => exact trivial
  | cons x xs =>
    have hsep : ", ".toList = ',' :: [' '] := by decide
    rw [Apart, hsep]
    exact splitCommas_intercalate (Sealed.singleton (by decide)) (h x List.mem_cons_self)
      fun y hy ↦ h y (List.mem_cons_of_mem x hy)

/-- Behind a member that is passed through as a whole, the list is cut as without it. -/
theorem apart_cons_iff {x y : List Char} {ys : List (List Char)} (hx : Sealed x) :
    Apart (x :: y :: ys) ↔ Apart (y :: ys) := by
  have hsep : ", ".toList = ',' :: [' '] := by decide
  have hblank (r : List Char) : splitCommas ([' '] ++ r) = consFirst ' ' (splitCommas r) :=
    (Sealed.singleton (by decide)).splitCommasFrom_append 0 r
  obtain ⟨p, ps, hps⟩ :=
    List.exists_cons_of_ne_nil
      (splitCommasFrom_ne_nil .outside 0 (", ".toList.intercalate (y :: ys)))
  rw [Apart, Apart, List.intercalate_cons_cons, List.append_assoc]
  nth_rewrite 1 [hsep]
  rw [List.cons_append, splitCommas_append_comma hx, hblank, splitCommas, hps]
  simp [consFirst]

theorem apart_singleton {x : List Char} : Apart [x] ↔ splitCommas x = [x] := by
  rw [Apart, List.intercalate_singleton, List.map_nil]

namespace Gaping

variable {q : Char} {x : List Char} (h : Gaping q x)

include h

theorem apart_singleton : Apart [x] := by
  have hsplit := h 0 []
  rw [List.append_nil] at hsplit
  rw [Text.apart_singleton, splitCommas, hsplit, splitCommasFrom, consFirst_foldr_cons,
    List.append_nil]

/-- The comma behind the member is a part of its literal. -/
theorem not_apart (y : List Char) (ys : List (List Char)) : ¬Apart (x :: y :: ys) := by
  intro hapart
  have hsep : ", ".toList = ',' :: [' '] := by decide
  have hcovers : (Quotation.inside q).covers ',' = true := rfl
  have hsplit := hapart.splitCommas_eq
  rw [List.intercalate_cons_cons, List.append_assoc, splitCommas, h, hsep, List.cons_append,
    splitCommasFrom_of_covers _ _ hcovers] at hsplit
  obtain ⟨p, ps, hps⟩ :=
    List.exists_cons_of_ne_nil (splitCommasFrom_ne_nil ((Quotation.inside q).next ',') 0
    ([' '] ++ (',' :: [' ']).intercalate (y :: ys)))
  rw [hps, consFirst, consFirst_foldr_cons] at hsplit
  have hlength := congrArg List.length (List.cons.inj hsplit).1
  simp at hlength

end Gaping

/-- A list is cut between its members if its parts have as many commas left as the members have. -/
theorem apart_of_count {xs : List (List Char)}
    (h : (splitCommas (", ".toList.intercalate xs)).map (List.count ',') =
      xs.map (List.count ',')) :
    Apart xs := by
  cases xs with
  | nil => exact trivial
  | cons x xs =>
    have hblank : (List.count ',' ∘ ([' '] ++ ·) : List Char → Nat) = List.count ',' := by
      funext y
      exact List.count_cons_of_ne (by decide)
    refine eq_of_intercalate (d := ',') ?_ ?_
    · rw [intercalate_splitCommas, intercalate_map_blank]
    · rw [h, List.map_cons, List.map_cons, List.map_map, hblank]

end SchemaLedger.Text
