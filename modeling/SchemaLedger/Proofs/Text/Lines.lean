import Mathlib
import SchemaLedger.Proofs.Text.Parts

/-!
# Lines

A text is cut into lines at its line feeds, and a carriage return before a line feed is cut off with
it. Nothing else is lost, except for a line feed at the end: where no carriage return stands before
a line feed, the lines joined again are the text.
-/

namespace SchemaLedger.Text

/-- A carriage return and a line feed stand together somewhere. -/
def HasReturn (cs : List Char) : Prop := ['\r', '\n'] <:+: cs

instance (cs : List Char) : Decidable (HasReturn cs) := inferInstanceAs (Decidable (_ <:+: _))

theorem HasReturn.cons {cs : List Char} (h : HasReturn cs) (c : Char) : HasReturn (c :: cs) :=
  List.IsInfix.trans h (List.suffix_cons c cs).isInfix

/-- A separator keeps the two characters apart. -/
theorem hasReturn_append_cons {e : Char} (he : e ≠ '\r') (he' : e ≠ '\n') (u v : List Char) :
    HasReturn (u ++ e :: v) ↔ HasReturn u ∨ HasReturn v := by
  induction u with
  | nil =>
    simp only [HasReturn, List.nil_append, List.infix_cons_iff, List.cons_prefix_cons]
    simp [he.symm]
  | cons c u ih =>
    have hhead : ['\r', '\n'] <+: c :: (u ++ e :: v) ↔ ['\r', '\n'] <+: c :: u := by
      cases u with
      | nil => simp [List.cons_prefix_cons, he'.symm]
      | cons x u => simp [List.cons_prefix_cons]
    simp only [HasReturn] at ih ⊢
    rw [List.cons_append, List.infix_cons_iff, List.infix_cons_iff, hhead, ih, or_assoc]

theorem hasReturn_newline_cons (cs : List Char) : HasReturn ('\n' :: cs) ↔ HasReturn cs := by
  simp [HasReturn, List.infix_cons_iff, List.cons_prefix_cons]

theorem lines_ne_nil {cs : List Char} (h : cs ≠ []) : lines cs ≠ [] := by
  fun_cases lines cs with
  | case1 => contradiction
  | case2 cs => exact List.cons_ne_nil _ _
  | case3 cs => exact List.cons_ne_nil _ _
  | case4 c cs =>
    cases lines cs <;> exact List.cons_ne_nil _ _

/-- Cutting into lines forgets carriage returns before line feeds and a line feed at the end. -/
theorem intercalate_lines {cs : List Char} (hreturn : ¬HasReturn cs) (hend : ¬['\n'] <:+ cs) :
    ['\n'].intercalate (lines cs) = cs := by
  fun_induction lines cs with
  | case1 => rfl
  | case2 cs ih =>
    have hne : cs ≠ [] := by rintro rfl; exact hend (List.suffix_refl _)
    obtain ⟨l, ls, hls⟩ := List.exists_cons_of_ne_nil (lines_ne_nil hne)
    have ih := ih (fun h ↦ hreturn (h.cons _)) fun h ↦ hend (h.trans (List.suffix_cons _ _))
    rw [hls] at ih ⊢
    rw [List.intercalate_cons_cons, ih]
    rfl
  | case3 cs ih => exact absurd ⟨[], cs, rfl⟩ hreturn
  | case4 c cs _ _ ih =>
    rw [intercalate_consFirst,
      ih (fun h ↦ hreturn (h.cons _)) fun h ↦ hend (h.trans (List.suffix_cons _ _))]

theorem occurrences_lines_le (d : Char) (cs : List Char) :
    occurrences d (lines cs) ≤ cs.count d := by
  fun_induction lines cs with
  | case1 => exact Nat.le_refl _
  | case2 cs ih =>
    rw [occurrences_cons, List.count_nil, Nat.zero_add]
    exact ih.trans (List.count_le_count_cons)
  | case3 cs ih =>
    rw [occurrences_cons, List.count_nil, Nat.zero_add]
    exact ih.trans (List.count_le_count_cons.trans List.count_le_count_cons)
  | case4 c cs _ _ ih =>
    rw [occurrences_consFirst, ← List.singleton_append (l := cs), List.count_append]
    exact Nat.add_le_add_left ih _

theorem occurrences_lines_lt {cs : List Char} (h : HasReturn cs) :
    occurrences '\r' (lines cs) < cs.count '\r' := by
  fun_induction lines cs with
  | case1 => exact absurd h (by decide)
  | case2 cs ih =>
    rw [occurrences_cons, List.count_nil, Nat.zero_add, List.count_cons_of_ne (by decide)]
    exact ih ((hasReturn_newline_cons cs).1 h)
  | case3 cs ih =>
    rw [occurrences_cons, List.count_nil, Nat.zero_add, List.count_cons_self,
      List.count_cons_of_ne (by decide)]
    exact Nat.lt_succ_of_le (occurrences_lines_le _ cs)
  | case4 c cs hn hr ih =>
    have htail : HasReturn cs := by
      rcases List.infix_cons_iff.1 h with hp | hi
      · obtain ⟨rfl, t, rfl⟩ := List.cons_prefix_cons.1 hp
        exact absurd rfl (hr t rfl)
      · exact hi
    rw [occurrences_consFirst, ← List.singleton_append (l := cs), List.count_append]
    exact Nat.add_lt_add_left (ih htail) _

theorem lines_cons {c : Char} {cs : List Char} (hc : c ≠ '\n')
    (hreturn : c = '\r' → ∀ t, cs ≠ '\n' :: t) : lines (c :: cs) = consFirst c (lines cs) :=
  lines.eq_4 c cs hc fun t e e' ↦ hreturn e t e'

theorem consFirst_append {c : Char} {ps : List (List Char)} (h : ps ≠ []) (qs : List (List Char)) :
    consFirst c (ps ++ qs) = consFirst c ps ++ qs := by
  obtain ⟨p, ps, rfl⟩ := List.exists_cons_of_ne_nil h
  rfl

/-- What follows a line feed is cut into lines on its own. -/
theorem lines_append_newline (u v : List Char) :
    lines (u ++ '\n' :: v) = lines (u ++ ['\n']) ++ lines v := by
  fun_induction lines u with
  | case1 => rfl
  | case2 u ih => exact congrArg ([] :: ·) ih
  | case3 u ih => exact congrArg ([] :: ·) ih
  | case4 c u hc hreturn ih =>
    by_cases hu : c = '\r' ∧ u = []
    · obtain ⟨rfl, rfl⟩ := hu
      rfl
    · have hcons (w : List Char) :
          lines (c :: (u ++ '\n' :: w)) = consFirst c (lines (u ++ '\n' :: w)) := by
        refine lines_cons hc fun e t ↦ ?_
        cases u with
        | nil => exact absurd ⟨e, rfl⟩ hu
        | cons x u => exact fun h ↦ hreturn u e (by rw [(List.cons.inj h).1])
      rw [List.cons_append, List.cons_append, hcons, hcons, ih,
        consFirst_append
          (lines_ne_nil (List.append_ne_nil_of_right_ne_nil u (List.cons_ne_nil _ _)))]

/-- A character before the line feed stands at the end of the last line, which may be empty. -/
theorem exists_lines_append {e : Char} (he : e ≠ '\r') (he' : e ≠ '\n') (u : List Char) :
    ∃ ls l, lines (u ++ [e, '\n']) = ls ++ [l ++ [e]] ∧
      (lines u = ls ++ [l] ∨ lines u = ls ∧ l = []) := by
  fun_induction lines u with
  | case1 =>
    refine ⟨[], [], ?_, .inr ⟨rfl, rfl⟩⟩
    rw [List.nil_append, lines_cons he' fun h ↦ absurd h he]
    rfl
  | case2 u ih =>
    obtain ⟨ls, l, heq, hor⟩ := ih
    exact ⟨[] :: ls, l, congrArg ([] :: ·) heq,
      hor.imp (congrArg ([] :: ·)) fun h ↦ ⟨congrArg ([] :: ·) h.1, h.2⟩⟩
  | case3 u ih =>
    obtain ⟨ls, l, heq, hor⟩ := ih
    exact ⟨[] :: ls, l, congrArg ([] :: ·) heq,
      hor.imp (congrArg ([] :: ·)) fun h ↦ ⟨congrArg ([] :: ·) h.1, h.2⟩⟩
  | case4 c u hc hreturn ih =>
    obtain ⟨ls, l, heq, hor⟩ := ih
    have hcons : lines (c :: (u ++ [e, '\n'])) = consFirst c (ls ++ [l ++ [e]]) := by
      rw [← heq]
      refine lines_cons hc fun h t ↦ ?_
      cases u with
      | nil => exact fun h' ↦ he' (List.cons.inj h').1
      | cons x u => exact fun h' ↦ hreturn u h (by rw [(List.cons.inj h').1])
    rw [List.cons_append, hcons]
    cases ls with
    | nil =>
      refine ⟨[], c :: l, rfl, .inl ?_⟩
      rcases hor with h | ⟨h, rfl⟩ <;> rw [h] <;> rfl
    | cons x ls =>
      refine ⟨(c :: x) :: ls, l, rfl, hor.imp (fun h ↦ ?_) fun h ↦ ⟨?_, h.2⟩⟩
      · rw [h]; rfl
      · rw [h.1]; rfl

end SchemaLedger.Text
