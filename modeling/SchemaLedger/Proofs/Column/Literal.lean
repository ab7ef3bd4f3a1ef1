import Mathlib
import SchemaLedger.Proofs.Reconciliation.Cycle
import SchemaLedger.Proofs.Text.Splitting

/-!
# Literal defaults

A text that stands in for missing values is written as a literal: between single quotes, with a
backslash in front of each quote and of each backslash of its own. A scan that meets such an
expression outside of literals is inside one from the first quote to the last
(`Quotation.IsLiteral`), because it takes each pair that the escaping makes as a pair and has
nothing escaped at the end of it (`DefaultExpr.within_escape`). The pairs also tell the characters
of the text apart again (`DefaultExpr.flatMap_escape_injective`).

No spelling of the commit timestamp begins with a quote, and there are no blanks around the quotes,
so the expression is what its own text stands for. It is in the side table and in a decorated column
as it was written.
-/

namespace SchemaLedger

open Text

/-! ## One literal -/

namespace Text.Quotation

/-- A scan from outside of literals takes the text as one literal, which its last character closes
and none before. -/
structure IsLiteral (cs : List Char) : Prop where
  ne_nil : cs ≠ []
  covers : ∀ u c v, cs = u ++ c :: v → (outside.after u).covers c = true
  open_before : ∀ u, u <+: cs → u ≠ [] → u ≠ cs → outside.after u ≠ outside
  closed : outside.after cs = outside

theorem Within.ne_outside {q : Char} {s : Quotation} (h : Within q s) : s ≠ outside := by
  rintro rfl
  rcases h with h | h <;> contradiction

/-- A text that no scan leaves is a literal between quotes, if nothing is escaped at the end of
it. -/
theorem isLiteral_of_within {q : Char} (hq : isQuote q = true) {body : List Char}
    (hwithin : ∀ u, u <+: body → Within q ((inside q).after u))
    (hafter : (inside q).after body = inside q) :
    IsLiteral (q :: (body ++ [q])) := by
  have hinside (u : List Char) (hu : u <+: q :: (body ++ [q])) (hnil : u ≠ [])
      (hall : u ≠ q :: (body ++ [q])) :
      Within q (outside.after u) := by
    cases u with
    | nil => contradiction
    | cons d u =>
      obtain ⟨rfl, hu⟩ := List.cons_prefix_cons.1 hu
      rcases List.prefix_concat_iff.1 hu with rfl | hu
      · contradiction
      · rw [after_cons, next_opening hq]
        exact hwithin u hu
  refine ⟨List.cons_ne_nil _ _, fun u c v h ↦ ?_,
    fun u hu hnil hall ↦ (hinside u hu hnil hall).ne_outside, ?_⟩
  · cases u with
    | nil =>
      obtain ⟨rfl, -⟩ := List.cons.inj h
      exact hq
    | cons d u =>
      refine (hinside (d :: u) ⟨c :: v, h.symm⟩ (List.cons_ne_nil d u) fun hall ↦ ?_).covers c
      rw [hall] at h
      simp at h
  · rw [after_cons, next_opening hq, after, List.foldl_append]
    change ((inside q).after body).next q = outside
    rw [hafter, next_closing hq]

end Text.Quotation

namespace DefaultExpr

/-! ## Escaped texts -/

/-- The text with a list of characters in place of each occurrence of a character. -/
def replaceAll (c : Char) (image : List Char) (cs : List Char) : List Char :=
  cs.flatMap fun d ↦ if d = c then image else [d]

/-- Escaping doubles the backslashes and then puts one in front of each quote. The backslashes that
the second replacement makes are not doubled any more. -/
theorem flatMap_escape_eq_replaceAll (cs : List Char) :
    cs.flatMap value?.escape = replaceAll '\'' ['\\', '\''] (replaceAll '\\' ['\\', '\\'] cs) := by
  rw [replaceAll, replaceAll, List.flatMap_assoc]
  refine List.flatMap_congr fun c _ ↦ ?_
  by_cases hbackslash : c = '\\'
  · rw [hbackslash]
    rfl
  · by_cases hquote : c = '\''
    · rw [hquote]
      rfl
    · rw [if_neg hbackslash, List.flatMap_singleton, if_neg hquote, value?.escape,
        if_neg (not_or.2 ⟨hbackslash, hquote⟩)]

theorem escape_of_special {c : Char} (h : c = '\\' ∨ c = '\'') : value?.escape c = ['\\', c] :=
  if_pos h

theorem escape_of_not_special {c : Char} (h : ¬(c = '\\' ∨ c = '\'')) : value?.escape c = [c] :=
  if_neg h

theorem next_inside_of_not_special {c : Char} (h : ¬(c = '\\' ∨ c = '\'')) :
    (Quotation.inside '\'').next c = .inside '\'' :=
  Quotation.next_inside (not_or.1 h).1 (not_or.1 h).2

/-- Inside the literal, an escaped text leaves nothing escaped behind it. -/
theorem after_escape (cs : List Char) :
    (Quotation.inside '\'').after (cs.flatMap value?.escape) = .inside '\'' := by
  induction cs with
  | nil => rfl
  | cons c cs ih =>
    rw [List.flatMap_cons]
    by_cases hc : c = '\\' ∨ c = '\''
    · rw [escape_of_special hc]
      exact ih
    · rw [escape_of_not_special hc, List.singleton_append, Quotation.after_cons,
        next_inside_of_not_special hc, ih]

/-- The literal is not left at any place in an escaped text. -/
theorem within_escape {cs u : List Char} (h : u <+: cs.flatMap value?.escape) :
    ((Quotation.inside '\'').after u).Within '\'' := by
  induction cs generalizing u with
  | nil =>
    rw [List.flatMap_nil, List.prefix_nil] at h
    exact Or.inl (by rw [h]; rfl)
  | cons c cs ih =>
    cases u with
    | nil => exact Or.inl rfl
    | cons d u =>
      rw [List.flatMap_cons] at h
      by_cases hc : c = '\\' ∨ c = '\''
      · -- The backslash is met first, and then the character that it takes with it.
        rw [escape_of_special hc, List.cons_append, List.cons_append, List.nil_append,
          List.cons_prefix_cons] at h
        obtain ⟨rfl, hu⟩ := h
        cases u with
        | nil => exact Or.inr rfl
        | cons d u =>
          have hrest : ((Quotation.inside '\'').after u).Within '\'' :=
            ih (List.cons_prefix_cons.1 hu).2
          exact hrest
      · rw [escape_of_not_special hc, List.singleton_append, List.cons_prefix_cons] at h
        obtain ⟨rfl, hu⟩ := h
        rw [Quotation.after_cons, next_inside_of_not_special hc]
        exact ih hu

theorem escape_ne_nil (c : Char) : value?.escape c ≠ [] := by
  rw [value?.escape]
  split <;> exact List.cons_ne_nil _ _

/-- The first character of a text can be told from what it is escaped to. -/
theorem escape_append_inj {c d : Char} {r s : List Char}
    (h : value?.escape c ++ r = value?.escape d ++ s) :
    c = d ∧ r = s := by
  by_cases hc : c = '\\' ∨ c = '\'' <;> by_cases hd : d = '\\' ∨ d = '\''
  · rw [escape_of_special hc, escape_of_special hd] at h
    exact List.cons.inj (List.cons.inj h).2
  · -- A pair and a single character begin differently, as a backslash does not stand alone.
    rw [escape_of_special hc, escape_of_not_special hd] at h
    exact absurd (Or.inl (List.cons.inj h).1.symm) hd
  · rw [escape_of_not_special hc, escape_of_special hd] at h
    exact absurd (Or.inl (List.cons.inj h).1) hc
  · rw [escape_of_not_special hc, escape_of_not_special hd] at h
    exact List.cons.inj h

theorem flatMap_escape_injective : Function.Injective (List.flatMap value?.escape) := by
  intro cs ds h
  induction cs generalizing ds with
  | nil =>
    cases ds with
    | nil => rfl
    | cons d ds =>
      rw [List.flatMap_nil, List.flatMap_cons, eq_comm, List.append_eq_nil_iff] at h
      exact absurd h.1 (escape_ne_nil d)
  | cons c cs ih =>
    cases ds with
    | nil =>
      rw [List.flatMap_nil, List.flatMap_cons, List.append_eq_nil_iff] at h
      exact absurd h.1 (escape_ne_nil c)
    | cons d ds =>
      obtain ⟨rfl, htail⟩ := escape_append_inj h
      rw [ih htail]

/-! ## The expression of a literal -/

theorem value?_literal_injective : Function.Injective fun text ↦ (literal text).value? := by
  intro text text' h
  have hexpression := String.ofList_injective (ColumnDefault.expression.inj (Option.some.inj h))
  exact String.toList_injective
    (flatMap_escape_injective (List.append_cancel_right (List.cons.inj hexpression).2))

/-- The expression of a literal is one literal to a scan, and different texts have different ones.
It stands for itself, so a column that is decorated with its fact has just this expression as
default. -/
theorem literal_kept : (Function.Injective fun text ↦ (literal text).value?) ∧
    ∀ text, ∃ e, (literal text).value? = some (.expression e) ∧ Quotation.IsLiteral e.toList ∧
      ColumnDefault.ofExpression e = .expression e ∧
      ∀ (k : KeptColumn) (g : Option Generation), ∃ t,
        k.decorated (k.facts g (literal text).value?) = .ok t ∧
          (t.column? k.column.name).map Column.defaultValue = some (some (.expression e)) := by
  refine ⟨value?_literal_injective, fun text ↦ ?_⟩
  have hnormal : ColumnDefault.ofExpression _ = _ := normal_literal text
  refine ⟨_, rfl, ?_, hnormal, fun k g ↦ ?_⟩
  · rw [String.toList_ofList]
    exact Quotation.isLiteral_of_within rfl (fun u hu ↦ within_escape hu) (after_escape _)
  · obtain ⟨t, ht, -, hcolumn⟩ := k.exists_decorated g (literal text).value?
    refine ⟨t, ht, ?_⟩
    rw [hcolumn, Option.map_some, KeptColumn.decoratedColumn, value?, Option.map_some]
    exact congrArg (fun d ↦ some (some d)) hnormal

end DefaultExpr

end SchemaLedger
