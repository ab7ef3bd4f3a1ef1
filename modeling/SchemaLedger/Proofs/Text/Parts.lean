import Mathlib
import SchemaLedger.Text.Quotation

/-!
# Parts of a text

A text is cut into parts at separators, and parts are put together with separators between them. How
often a character occurs in the parts tells whether any was lost, and how often the separator itself
occurs in each of them tells where the text was cut.
-/

namespace SchemaLedger.Text

theorem consFirst_foldr_cons (p a : List Char) (ps : List (List Char)) :
    p.foldr consFirst (a :: ps) = (p ++ a) :: ps := by
  induction p with
  | nil => rfl
  | cons c p ih => rw [List.foldr_cons, ih]; rfl

theorem intercalate_consFirst (sep : List Char) (c : Char) (ps : List (List Char)) :
    sep.intercalate (consFirst c ps) = c :: sep.intercalate ps := by
  cases ps with
  | nil => rfl
  | cons p ps => cases ps <;> rfl

/-! ## Characters of the parts -/

/-- How often the character occurs in the parts. -/
def occurrences (d : Char) (ps : List (List Char)) : Nat := (ps.map (·.count d)).sum

section Occurrences

variable (d : Char)

theorem occurrences_cons (p : List Char) (ps : List (List Char)) :
    occurrences d (p :: ps) = p.count d + occurrences d ps := rfl

theorem occurrences_consFirst (c : Char) (ps : List (List Char)) :
    occurrences d (consFirst c ps) = [c].count d + occurrences d ps := by
  cases ps with
  | nil => rfl
  | cons p ps =>
    rw [consFirst, occurrences_cons, occurrences_cons, ← List.singleton_append, List.count_append,
      Nat.add_assoc]

theorem occurrences_le {f : List Char → List Char} (hf : ∀ p, (f p).Sublist p)
    (ps : List (List Char)) : occurrences d (ps.map f) ≤ occurrences d ps := by
  induction ps with
  | nil => exact Nat.le_refl _
  | cons p ps ih => exact Nat.add_le_add ((hf p).count_le d) ih

theorem occurrences_filter_le (f : List Char → Bool) (ps : List (List Char)) :
    occurrences d (ps.filter f) ≤ occurrences d ps :=
  ((List.filter_sublist.map _).sum_le_sum fun _ _ ↦ Nat.zero_le _)

/-- A part that is left out takes its characters with it. -/
theorem occurrences_filter_lt {f : List Char → Bool} {p : List Char} {ps : List (List Char)}
    (hp : p ∈ ps) (hf : f p = false) (hd : d ∈ p) :
    occurrences d (ps.filter f) < occurrences d ps := by
  induction ps with
  | nil => contradiction
  | cons x ps ih =>
    rw [occurrences_cons]
    rcases List.mem_cons.1 hp with rfl | hp
    · rw [List.filter_cons_of_neg (by simp [hf])]
      have := occurrences_filter_le d f ps
      have := List.count_pos_iff.2 hd
      omega
    · have ih := ih hp
      by_cases hx : f x = true
      · rw [List.filter_cons_of_pos hx, occurrences_cons]
        omega
      · rw [List.filter_cons_of_neg hx]
        omega

theorem count_intercalate_cons (sep p : List Char) (ps : List (List Char)) :
    (sep.intercalate (p :: ps)).count d = occurrences d (p :: ps) + ps.length * sep.count d := by
  induction ps generalizing p with
  | nil =>
    rw [List.intercalate_singleton, List.length_nil, Nat.zero_mul]
    rfl
  | cons x ps ih =>
    rw [List.intercalate_cons_cons, List.count_append, List.count_append, ih, occurrences_cons d p,
      List.length_cons, Nat.succ_mul]
    omega

theorem count_intercalate {sep : List Char} (hd : d ∉ sep) (ps : List (List Char)) :
    (sep.intercalate ps).count d = occurrences d ps := by
  cases ps with
  | nil => rfl
  | cons p ps =>
    rw [count_intercalate_cons, List.count_eq_zero_of_not_mem hd, Nat.mul_zero, Nat.add_zero]

end Occurrences

/-! ## Places of the separators -/

/-- The place of a separator is known from the number of those before it. -/
theorem eq_of_append_cons {d : Char} {p q r s : List Char} (h : p ++ d :: r = q ++ d :: s)
    (hcount : p.count d = q.count d) : p = q ∧ r = s := by
  -- A further separator would stand in the longer of the two.
  have hnil {a b w : List Char} (hw : d :: b = w ++ d :: a) (hw' : w.count d = 0) : w = [] := by
    cases w with
    | nil => rfl
    | cons c w =>
      obtain ⟨rfl, -⟩ := List.cons.inj hw
      rw [List.count_cons_self] at hw'
      contradiction
  rcases List.append_eq_append_iff.1 h with ⟨w, rfl, hw⟩ | ⟨w, rfl, hw⟩
  · rw [List.count_append] at hcount
    obtain rfl := hnil hw (by omega)
    exact ⟨(List.append_nil p).symm, (List.cons.inj hw).2⟩
  · rw [List.count_append] at hcount
    obtain rfl := hnil hw (by omega)
    exact ⟨List.append_nil q, (List.cons.inj hw).2.symm⟩

theorem eq_of_intercalate {d : Char} {ps qs : List (List Char)}
    (h : [d].intercalate ps = [d].intercalate qs)
    (hcount : ps.map (List.count d) = qs.map (List.count d)) : ps = qs := by
  induction ps generalizing qs with
  | nil => exact (List.map_eq_nil_iff.1 hcount.symm).symm
  | cons p ps ih =>
    obtain ⟨q, qs, rfl⟩ := List.exists_cons_of_ne_nil (l := qs) (by rintro rfl; cases hcount)
    obtain ⟨hhead, htail⟩ := List.cons.inj hcount
    cases ps with
    | nil =>
      obtain rfl := List.map_eq_nil_iff.1 htail.symm
      simpa using h
    | cons p' ps =>
      obtain ⟨q', qs, rfl⟩ := List.exists_cons_of_ne_nil (l := qs) (by rintro rfl; cases htail)
      rw [List.intercalate_cons_cons, List.intercalate_cons_cons, List.append_assoc,
        List.append_assoc] at h
      obtain ⟨rfl, hrest⟩ := eq_of_append_cons h hhead
      rw [ih hrest htail]

end SchemaLedger.Text
