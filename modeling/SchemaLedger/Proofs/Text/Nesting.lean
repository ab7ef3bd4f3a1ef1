import Mathlib
import SchemaLedger.Proofs.Text.Splitting

/-!
# Parentheses and commas outside of literals

Two scans look for the members of a list: one for the parenthesis that closes the list, one for the
commas in between. They keep counts of their own, and only the second one counts angle brackets and
stops at zero. Here both are compared with what the text itself says. `Quotation.uncovered` is the
text without its literals, and a text is `Nested` if the parentheses in there are balanced and the
last literal is closed.

What the first scan finds is exactly a nested text with a closing parenthesis behind it. On such a
text, as long as angle brackets stand in literals only, the second scan never stops at zero, so both
counts are the same and every member that it cuts out is nested again.

The one invariant of both scans is `NestedFrom s depth`: behind `depth` open parentheses, and in the
state `s`, the text closes all that is open and nothing else.
-/

namespace SchemaLedger.Text

/-! ## Texts without their literals -/

namespace Quotation

/-- The characters that are part of no literal. -/
def uncovered : Quotation → List Char → List Char
  | _, [] => []
  | s, c :: cs => if s.covers c then uncovered (s.next c) cs else c :: uncovered (s.next c) cs

/-- The number of parentheses that are opened outside of literals. -/
def openings (s : Quotation) (cs : List Char) : Nat := (s.uncovered cs).count '('

/-- The number of parentheses that are closed outside of literals. -/
def closings (s : Quotation) (cs : List Char) : Nat := (s.uncovered cs).count ')'

theorem after_append (s : Quotation) (a b : List Char) : s.after (a ++ b) = (s.after a).after b :=
  List.foldl_append

theorem uncovered_append (s : Quotation) (a b : List Char) :
    s.uncovered (a ++ b) = s.uncovered a ++ (s.after a).uncovered b := by
  induction a generalizing s with
  | nil => rfl
  | cons c a ih =>
    rw [List.cons_append, uncovered, uncovered, ih, after_cons]
    split <;> rfl

theorem openings_append (s : Quotation) (a b : List Char) :
    s.openings (a ++ b) = s.openings a + (s.after a).openings b := by
  rw [openings, uncovered_append, List.count_append, openings, openings]

theorem closings_append (s : Quotation) (a b : List Char) :
    s.closings (a ++ b) = s.closings a + (s.after a).closings b := by
  rw [closings, uncovered_append, List.count_append, closings, closings]

theorem openings_cons (s : Quotation) (c : Char) (cs : List Char) :
    s.openings (c :: cs) = s.openings [c] + (s.next c).openings cs :=
  s.openings_append [c] cs

theorem closings_cons (s : Quotation) (c : Char) (cs : List Char) :
    s.closings (c :: cs) = s.closings [c] + (s.next c).closings cs :=
  s.closings_append [c] cs

/-! ### One character -/

section Step

variable {s : Quotation} {c : Char}

theorem uncovered_of_covers (h : s.covers c = true) : s.uncovered [c] = [] := by
  rw [uncovered, if_pos h, uncovered]

theorem openings_of_covers (h : s.covers c = true) : s.openings [c] = 0 := by
  rw [openings, uncovered_of_covers h, List.count_nil]

theorem closings_of_covers (h : s.covers c = true) : s.closings [c] = 0 := by
  rw [closings, uncovered_of_covers h, List.count_nil]

theorem eq_outside_of_covers (h : s.covers c = false) : s = .outside := by
  cases s with
  | outside => rfl
  | inside q => exact Bool.noConfusion h
  | escaped q => exact Bool.noConfusion h

theorem next_outside (h : isQuote c = false) : outside.next c = outside := by
  rw [next, if_neg (Bool.eq_false_iff.1 h)]

theorem uncovered_outside (h : isQuote c = false) : outside.uncovered [c] = [c] := by
  have hcovers : outside.covers c = false := h
  rw [uncovered, if_neg (Bool.eq_false_iff.1 hcovers), uncovered]

theorem openings_outside (h : isQuote c = false) :
    outside.openings [c] = if c = '(' then 1 else 0 := by
  rw [openings, uncovered_outside h, List.count_singleton]
  simp only [beq_iff_eq]

theorem closings_outside (h : isQuote c = false) :
    outside.closings [c] = if c = ')' then 1 else 0 := by
  rw [closings, uncovered_outside h, List.count_singleton]
  simp only [beq_iff_eq]

end Step

end Quotation

/-- What stands in literals only is not left when they are taken out. -/
theorem Quoted.notMem_uncovered {d : Char} {cs : List Char} (h : Quoted d cs) :
    d ∉ Quotation.outside.uncovered cs := by
  intro hmem
  -- What is left stands where the scan is outside. The scan may start anywhere, for the induction.
  have hplace (s : Quotation) (cs : List Char) (hmem : d ∈ s.uncovered cs) :
      ∃ u v, cs = u ++ d :: v ∧ s.after u = .outside := by
    induction cs generalizing s with
    | nil => exact absurd hmem List.not_mem_nil
    | cons c cs ih =>
      have hrest (hmem : d ∈ (s.next c).uncovered cs) :
          ∃ u v, c :: cs = u ++ d :: v ∧ s.after u = .outside := by
        obtain ⟨u, v, rfl, hu⟩ := ih _ hmem
        exact ⟨c :: u, v, rfl, hu⟩
      rw [Quotation.uncovered] at hmem
      split at hmem
      · exact hrest hmem
      · rename_i hcovers
        rcases List.mem_cons.1 hmem with rfl | hmem
        · exact ⟨[], cs, rfl, Quotation.eq_outside_of_covers (Bool.eq_false_iff.2 hcovers)⟩
        · exact hrest hmem
  obtain ⟨u, v, rfl, hu⟩ := hplace _ _ hmem
  refine h u.length (by simp) (by simp) ?_
  rw [List.take_left]
  exact hu

/-! ## Nested texts -/

/-- Behind `depth` open parentheses, the text closes all that is open and nothing else, and it ends
outside of literals. -/
structure NestedFrom (s : Quotation) (depth : Nat) (cs : List Char) : Prop where
  after_eq : s.after cs = .outside
  closings_le : ∀ u, u <+: cs → s.closings u ≤ depth + s.openings u
  closings_eq : s.closings cs = depth + s.openings cs

/-- The parentheses outside of literals are balanced, and the last literal is closed. -/
def Nested (cs : List Char) : Prop := NestedFrom .outside 0 cs

namespace NestedFrom

theorem nil : NestedFrom .outside 0 [] := by
  refine ⟨rfl, fun u hu ↦ ?_, rfl⟩
  rw [List.prefix_nil.1 hu]
  exact Nat.le_refl 0

/-- Nothing closes nothing. -/
theorem eq_of_nil {s : Quotation} {depth : Nat} (h : NestedFrom s depth []) :
    s = .outside ∧ depth = 0 := by
  have hdepth : 0 = depth + 0 := h.closings_eq
  exact ⟨h.after_eq, by omega⟩

/-- One character changes the state and the number of open parentheses. -/
theorem cons_iff {s : Quotation} {depth : Nat} {c : Char} {cs : List Char} :
    NestedFrom s depth (c :: cs) ↔ s.closings [c] ≤ depth + s.openings [c] ∧
      NestedFrom (s.next c) (depth + s.openings [c] - s.closings [c]) cs := by
  constructor
  · intro h
    have hfirst := h.closings_le [c] (List.prefix_append [c] cs)
    refine ⟨hfirst, h.after_eq, fun u hu ↦ ?_, ?_⟩
    · have hle := h.closings_le (c :: u) (List.cons_prefix_cons.2 ⟨rfl, hu⟩)
      rw [Quotation.closings_cons, Quotation.openings_cons] at hle
      omega
    · have heq := h.closings_eq
      rw [Quotation.closings_cons, Quotation.openings_cons] at heq
      omega
  · rintro ⟨hfirst, h⟩
    refine ⟨h.after_eq, fun u hu ↦ ?_, ?_⟩
    · cases u with
      | nil => exact Nat.zero_le _
      | cons d u =>
        obtain ⟨rfl, htail⟩ := List.cons_prefix_cons.1 hu
        have hle := h.closings_le u htail
        rw [Quotation.closings_cons, Quotation.openings_cons]
        omega
    · have heq := h.closings_eq
      rw [Quotation.closings_cons, Quotation.openings_cons]
      omega

/-- What follows starts from nothing. -/
theorem append {s : Quotation} {depth : Nat} {a b : List Char} (ha : NestedFrom s depth a)
    (hb : Nested b) :
    NestedFrom s depth (a ++ b) := by
  induction a generalizing s depth with
  | nil =>
    obtain ⟨rfl, rfl⟩ := ha.eq_of_nil
    exact hb
  | cons c a ih =>
    obtain ⟨hfirst, ha⟩ := cons_iff.1 ha
    exact cons_iff.2 ⟨hfirst, ih ha⟩

end NestedFrom

/-! ## The closing parenthesis -/

/-- The scan stops at a parenthesis that closes more than is open, and otherwise counts. -/
theorem enclosedFrom_cons (s : Quotation) (depth : Nat) (c : Char) (cs : List Char) :
    enclosedFrom s depth (c :: cs) =
      if depth + s.openings [c] < s.closings [c] then some ([], cs)
      else (enclosedFrom (s.next c) (depth + s.openings [c] - s.closings [c]) cs).map
        fun p ↦ (c :: p.1, p.2) := by
  cases hcovers : s.covers c with
  | true =>
    rw [enclosedFrom_of_covers _ _ hcovers, Quotation.openings_of_covers hcovers,
      Quotation.closings_of_covers hcovers, if_neg (Nat.not_lt_zero _), Nat.add_zero, Nat.sub_zero]
  | false =>
    obtain rfl := Quotation.eq_outside_of_covers hcovers
    have hquote : isQuote c = false := hcovers
    rw [Quotation.openings_outside hquote, Quotation.closings_outside hquote,
      Quotation.next_outside hquote, enclosedFrom.eq_def]
    dsimp only
    rw [if_neg (Bool.eq_false_iff.1 hcovers)]
    by_cases hc : c = ')'
    · subst hc
      cases depth with
      | zero => rfl
      | succ depth => rfl
    · rw [if_neg hc, if_neg hc, if_neg (Nat.not_lt_zero _), Nat.sub_zero]
      by_cases hopen : c = '('
      · rw [if_pos hopen, if_pos hopen]
      · rw [if_neg hopen, if_neg hopen, Nat.add_zero]

/-- The scan passes through a nested text as a whole. -/
theorem NestedFrom.enclosedFrom_append {s : Quotation} {depth : Nat} {body : List Char}
    (h : NestedFrom s depth body) (k : Nat) (r : List Char) :
    enclosedFrom s (k + depth) (body ++ r) = (enclosedFrom .outside k r).map fun x ↦
      (body ++ x.1, x.2) := by
  induction body generalizing s depth with
  | nil =>
    obtain ⟨rfl, rfl⟩ := h.eq_of_nil
    change enclosedFrom .outside k r = (enclosedFrom .outside k r).map id
    rw [Option.map_id, id]
  | cons c body ih =>
    obtain ⟨hfirst, hrest⟩ := cons_iff.1 h
    -- What is open around the text stays open below all that the text opens.
    have hdepth : k + depth + s.openings [c] - s.closings [c] =
        k + (depth + s.openings [c] - s.closings [c]) := by
      omega
    rw [List.cons_append, enclosedFrom_cons, if_neg (by omega), hdepth, ih hrest, Option.map_map]
    rfl

/-- What the scan finds is a nested text with a closing parenthesis behind it, and it finds every
one. -/
theorem enclosedFrom_eq_some_iff {s : Quotation} {depth : Nat} {cs body rest : List Char} :
    enclosedFrom s depth cs = some (body, rest) ↔
    cs = body ++ ')' :: rest ∧ NestedFrom s depth body := by
  induction cs generalizing s depth body with
  | nil =>
    rw [enclosedFrom]
    simp
  | cons c cs ih =>
    rw [enclosedFrom_cons]
    by_cases hstop : depth + s.openings [c] < s.closings [c]
    · -- More is closed than is open: this is the parenthesis that the scan is looking for.
      have hcovers : s.covers c = false := by
        by_contra hcovers
        rw [Quotation.closings_of_covers (by simpa using hcovers)] at hstop
        exact Nat.not_lt_zero _ hstop
      obtain rfl := Quotation.eq_outside_of_covers hcovers
      have hquote : isQuote c = false := hcovers
      have hc : c = ')' := by
        by_contra hc
        rw [Quotation.closings_outside hquote, if_neg hc] at hstop
        exact Nat.not_lt_zero _ hstop
      have hdepth : depth = 0 := by
        rw [Quotation.closings_outside hquote, if_pos hc] at hstop
        omega
      subst hdepth
      rw [if_pos hstop, Option.some_inj, Prod.mk.injEq]
      constructor
      · rintro ⟨rfl, rfl⟩
        exact ⟨by rw [hc]; rfl, .nil⟩
      · rintro ⟨hcs, hbody⟩
        cases body with
        | nil => exact ⟨rfl, (List.cons.inj hcs).2⟩
        | cons d body =>
          obtain ⟨rfl, -⟩ := List.cons.inj hcs
          exact absurd (NestedFrom.cons_iff.1 hbody).1 (Nat.not_le.2 hstop)
    · rw [if_neg hstop, Option.map_eq_some_iff]
      constructor
      · rintro ⟨⟨b, r⟩, hrun, hmade⟩
        obtain ⟨rfl, rfl⟩ := Prod.mk.inj hmade
        obtain ⟨rfl, hnested⟩ := ih.1 hrun
        exact ⟨rfl, NestedFrom.cons_iff.2 ⟨Nat.not_lt.1 hstop, hnested⟩⟩
      · rintro ⟨hcs, hbody⟩
        cases body with
        | nil =>
          obtain ⟨rfl, -⟩ := List.cons.inj hcs
          obtain ⟨rfl, rfl⟩ := hbody.eq_of_nil
          exact absurd (by decide) hstop
        | cons d body =>
          obtain ⟨rfl, rfl⟩ := List.cons.inj hcs
          exact ⟨(body, rest), ih.2 ⟨rfl, (NestedFrom.cons_iff.1 hbody).2⟩, rfl⟩

theorem enclosed_eq_some_iff {cs body rest : List Char} :
    enclosed cs = some (body, rest) ↔ cs = body ++ ')' :: rest ∧ Nested body :=
  enclosedFrom_eq_some_iff

/-! ## The commas -/

/-- A member of a list: nested, and every comma in it stands in a literal or in parentheses. -/
structure MemberFrom (s : Quotation) (depth : Nat) (p : List Char) :
    Prop extends NestedFrom s depth p where
  comma : ∀ u, u ++ [','] <+: p → s.after u = .outside → s.closings u < depth + s.openings u

theorem MemberFrom.of_nested_nil {s : Quotation} {depth : Nat} (h : NestedFrom s depth []) :
    MemberFrom s depth [] :=
  ⟨h, fun u hu ↦
    absurd (List.prefix_nil.1 hu) (List.append_ne_nil_of_right_ne_nil u (List.cons_ne_nil _ _))⟩

/-- Outside of parentheses, and with angle brackets in literals only, the scan cuts at a comma and
otherwise counts as the scan for the closing parenthesis does. -/
theorem splitCommasFrom_cons {s : Quotation} {c : Char} (hless : '<' ∉ s.uncovered [c])
    (hgreater : '>' ∉ s.uncovered [c]) (depth : Nat) (cs : List Char) :
    splitCommasFrom s depth (c :: cs) =
      if s = .outside ∧ c = ',' ∧ depth = 0 then [] :: splitCommasFrom .outside 0 cs
      else consFirst c
        (splitCommasFrom (s.next c) (depth + s.openings [c] - s.closings [c]) cs) := by
  cases hcovers : s.covers c with
  | true =>
    have hcut : ¬(s = .outside ∧ c = ',' ∧ depth = 0) := by
      rintro ⟨rfl, rfl, -⟩
      contradiction
    rw [splitCommasFrom_of_covers _ _ hcovers, Quotation.openings_of_covers hcovers,
      Quotation.closings_of_covers hcovers, if_neg hcut, Nat.add_zero, Nat.sub_zero]
  | false =>
    obtain rfl := Quotation.eq_outside_of_covers hcovers
    have hquote : isQuote c = false := hcovers
    rw [Quotation.uncovered_outside hquote, List.mem_singleton] at hless hgreater
    rw [Quotation.openings_outside hquote, Quotation.closings_outside hquote,
      Quotation.next_outside hquote, splitCommasFrom.eq_def]
    dsimp only
    rw [if_neg (Bool.eq_false_iff.1 hcovers)]
    simp only [true_and, Ne.symm hless, Ne.symm hgreater, or_false]
    by_cases hcut : c = ',' ∧ depth = 0
    · rw [if_pos hcut, if_pos hcut]
    · rw [if_neg hcut, if_neg hcut]
      by_cases hopen : c = '('
      · subst hopen
        rfl
      · rw [if_neg hopen, if_neg hopen, Nat.add_zero]
        by_cases hclose : c = ')'
        · rw [if_pos hclose, if_pos hclose]
        · rw [if_neg hclose, if_neg hclose, Nat.sub_zero]

/-- Behind an open parenthesis the scan passes through a nested text as a whole. -/
theorem NestedFrom.splitCommasFrom_append {s : Quotation} {depth : Nat} {body : List Char}
    (h : NestedFrom s depth body)
    (hless : '<' ∉ s.uncovered body) (hgreater : '>' ∉ s.uncovered body) (k : Nat) (r : List Char) :
    splitCommasFrom s (k + 1 + depth) (body ++ r) =
      body.foldr consFirst (splitCommasFrom .outside (k + 1) r) := by
  induction body generalizing s depth with
  | nil =>
    obtain ⟨rfl, rfl⟩ := h.eq_of_nil
    rfl
  | cons c body ih =>
    have hsplit : s.uncovered (c :: body) = s.uncovered [c] ++ (s.next c).uncovered body :=
      s.uncovered_append [c] body
    rw [hsplit, List.mem_append, not_or] at hless hgreater
    obtain ⟨hfirst, hrest⟩ := cons_iff.1 h
    have hdepth : k + 1 + depth + s.openings [c] - s.closings [c]
        = k + 1 + (depth + s.openings [c] - s.closings [c]) := by
      omega
    -- No comma is cut at, since the parenthesis in front is open all the way.
    rw [List.cons_append, splitCommasFrom_cons hless.1 hgreater.1, if_neg (by omega), hdepth,
      ih hrest hless.2 hgreater.2, List.foldr_cons]

/-- The members of a nested text are nested. -/
theorem exists_splitCommasFrom {s : Quotation} {depth : Nat} {cs : List Char}
    (h : NestedFrom s depth cs) (hless : '<' ∉ s.uncovered cs) (hgreater : '>' ∉ s.uncovered cs) :
    ∃ p ps, splitCommasFrom s depth cs = p :: ps ∧ MemberFrom s depth p ∧
      ∀ x ∈ ps, MemberFrom .outside 0 x := by
  -- Only the first member is begun in the middle; a comma is cut at where nothing is open, so the
  -- others are not.
  induction cs generalizing s depth with
  | nil => exact ⟨[], [], rfl, .of_nested_nil h, fun x hx ↦ absurd hx List.not_mem_nil⟩
  | cons c cs ih =>
    have hsplit : s.uncovered (c :: cs) = s.uncovered [c] ++ (s.next c).uncovered cs :=
      s.uncovered_append [c] cs
    rw [hsplit, List.mem_append, not_or] at hless hgreater
    obtain ⟨hfirst, hrest⟩ := NestedFrom.cons_iff.1 h
    obtain ⟨p, ps, hps, hp, hall⟩ := ih hrest hless.2 hgreater.2
    rw [splitCommasFrom_cons hless.1 hgreater.1]
    by_cases hcut : s = .outside ∧ c = ',' ∧ depth = 0
    · obtain ⟨rfl, rfl, rfl⟩ := hcut
      have hps : splitCommasFrom .outside 0 cs = p :: ps := hps
      rw [if_pos ⟨rfl, rfl, rfl⟩, hps]
      exact ⟨[], p :: ps, rfl, .of_nested_nil .nil, List.forall_mem_cons.2 ⟨hp, hall⟩⟩
    · rw [if_neg hcut, hps]
      refine ⟨c :: p, ps, rfl,
        ⟨NestedFrom.cons_iff.2 ⟨hfirst, hp.toNestedFrom⟩, fun u hu hafter ↦ ?_⟩, hall⟩
      cases u with
      | nil =>
        -- The first character is a comma at which the text was not cut, so something is open.
        obtain ⟨rfl, -⟩ := List.cons_prefix_cons.1 hu
        have hs : s = .outside := hafter
        have hdepth : depth ≠ 0 := fun hdepth ↦ hcut ⟨hs, rfl, hdepth⟩
        exact Nat.lt_add_right _ (Nat.pos_of_ne_zero hdepth)
      | cons d u =>
        obtain ⟨rfl, htail⟩ := List.cons_prefix_cons.1 hu
        have hlt := hp.comma u htail hafter
        rw [Quotation.closings_cons, Quotation.openings_cons]
        omega

theorem member_of_splitCommas {body : List Char} (h : Nested body) (hless : Quoted '<' body)
    (hgreater : Quoted '>' body) : ∀ p ∈ splitCommas body, MemberFrom .outside 0 p := by
  obtain ⟨p, ps, hps, hp, hall⟩ :=
    exists_splitCommasFrom h hless.notMem_uncovered hgreater.notMem_uncovered
  rw [splitCommas, hps]
  exact List.forall_mem_cons.2 ⟨hp, hall⟩

/-! ## Places between the members -/

/-- The place behind the text is in no literal and in no parentheses. -/
structure Ground (cs : List Char) : Prop where
  after_eq : Quotation.outside.after cs = .outside
  closings_eq : Quotation.outside.closings cs = Quotation.outside.openings cs

theorem NestedFrom.ground {cs : List Char} (h : Nested cs) : Ground cs :=
  ⟨h.after_eq, by rw [h.closings_eq, Nat.zero_add]⟩

theorem intercalate_append_cons (c : Char) (l : List (List Char)) (p : List Char)
    (r : List (List Char)) :
    [c].intercalate (l ++ p :: r) = l.flatMap (· ++ [c]) ++ (p ++ r.flatMap (c :: ·)) := by
  induction l with
  | nil =>
    induction r generalizing p with
    | nil => simp
    | cons x r ih =>
      rw [List.nil_append, List.intercalate_cons_cons, ← List.nil_append (x :: r), ih x]
      simp
  | cons x l ih =>
    cases l with
    | nil =>
      rw [List.singleton_append, List.intercalate_cons_cons, ← List.nil_append (p :: r), ih]
      simp
    | cons y l =>
      rw [List.cons_append, List.cons_append, List.intercalate_cons_cons, ← List.cons_append, ih]
      simp

theorem nested_flatMap {ps : List (List Char)} (h : ∀ p ∈ ps, Nested p) :
    Nested (ps.flatMap (· ++ [','])) := by
  have hcomma : Nested [','] := NestedFrom.cons_iff.2 ⟨Nat.zero_le _, .nil⟩
  induction ps with
  | nil => exact .nil
  | cons p ps ih =>
    rw [List.flatMap_cons]
    exact ((h p List.mem_cons_self).append hcomma).append
      (ih fun x hx ↦ h x (List.mem_cons_of_mem p hx))

/-- The scan for the closing parenthesis and the scan for commas agree on a text behind an open
parenthesis. What the first finds is balanced; what the second makes of it are its members, each of
which starts and ends in no literal and in no parentheses and has all of its commas in one or the
other. -/
theorem members_of_enclosed {front cs body rest : List Char}
    (hfront : Quotation.outside.after front = .outside)
    (h : enclosed cs = some (body, rest)) (hless : Quoted '<' body) (hgreater : Quoted '>' body) :
    cs = body ++ ')' :: rest ∧ Nested body ∧
      (∀ u, Quotation.outside.after (front ++ '(' :: u) = Quotation.outside.after u) ∧
      [','].intercalate (splitCommas body) = body ∧
      ∀ l p r, splitCommas body = l ++ p :: r →
        body = l.flatMap (· ++ [',']) ++ (p ++ r.flatMap (',' :: ·)) ∧
        Ground (l.flatMap (· ++ [','])) ∧ Ground (l.flatMap (· ++ [',']) ++ p) ∧
        ∀ u, u ++ [','] <+: p → Quotation.outside.after u = .outside →
          Quotation.outside.closings u < Quotation.outside.openings u := by
  obtain ⟨hcs, hnested⟩ := enclosed_eq_some_iff.1 h
  have hmember := member_of_splitCommas hnested hless hgreater
  refine ⟨hcs, hnested, fun u ↦ ?_, intercalate_splitCommas body, fun l p r hsplit ↦ ?_⟩
  · rw [Quotation.after_append, hfront]
    rfl
  · rw [hsplit] at hmember
    have hp : MemberFrom .outside 0 p := hmember p (List.mem_append_right l List.mem_cons_self)
    have hbefore : Nested (l.flatMap (· ++ [','])) :=
      nested_flatMap fun x hx ↦ (hmember x (List.mem_append_left _ hx)).toNestedFrom
    refine ⟨?_, NestedFrom.ground hbefore, NestedFrom.ground (hbefore.append hp.toNestedFrom),
      fun u hu hafter ↦ ?_⟩
    · rw [← intercalate_append_cons, ← hsplit, intercalate_splitCommas]
    · have hlt := hp.comma u hu hafter
      rwa [Nat.zero_add] at hlt

/-- The columns of a table whose names, defaults and types have parentheses and commas in them. -/
def gauges : List (List Char) :=
  ["`id)` STRING(36)".toList, " `a,(b` STRING(9) DEFAULT (CONCAT('<),(\\'', \"(,\"))".toList,
    " n ARRAY(NUMERIC(1, 2)) ".toList]

theorem gauges_members :
    let front := "CREATE TABLE `gauges (` ".toList
    let body := [','].intercalate gauges
    let rest := " PRIMARY KEY (`id)`, n)".toList
    Quotation.outside.after front = .outside ∧ enclosed (body ++ ')' :: rest) = some (body, rest) ∧
      Quoted '<' body ∧ Quoted '>' body ∧ splitCommas body = gauges ∧ Nested body ∧
      ∀ l p r, gauges = l ++ p :: r →
        Ground (l.flatMap (· ++ [','])) ∧ Ground (l.flatMap (· ++ [',']) ++ p) := by
  intro front body rest
  have hfront : Quotation.outside.after front = .outside := by decide +kernel
  have henclosed : enclosed (body ++ ')' :: rest) = some (body, rest) := by decide +kernel
  have hquoted : Quoted '<' body ∧ Quoted '>' body := by decide +kernel
  have hsplit : splitCommas body = gauges := by decide +kernel
  obtain ⟨-, hnested, -, -, hmembers⟩ := members_of_enclosed hfront henclosed hquoted.1 hquoted.2
  refine ⟨hfront, henclosed, hquoted.1, hquoted.2, hsplit, hnested, fun l p r h ↦ ?_⟩
  obtain ⟨-, hstart, hend, -⟩ := hmembers l p r (hsplit.trans h)
  exact ⟨hstart, hend⟩

end SchemaLedger.Text
