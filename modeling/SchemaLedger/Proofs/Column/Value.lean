import Mathlib
import SchemaLedger.Lowering
import SchemaLedger.Proofs.Text.Scanning

/-!
# Defaults survive their facts

A fact holds a default as text, and the text is read again. What comes back is the default itself,
for the defaults that are read off expressions and for those that a statement spells: a literal, a
truth value and a number are never a spelling of the commit timestamp.
-/

namespace SchemaLedger

open Text

namespace ColumnDefault

/-- Is read back from its fact. -/
def Normal (d : ColumnDefault) : Prop := ofExpression d.factValue = d

instance (d : ColumnDefault) : Decidable d.Normal := inferInstanceAs (Decidable (_ = _))

theorem normal_commitTimestamp : Normal commitTimestamp := by decide

theorem isCommitSpelling_strip (cs : List Char) :
    isCommitSpelling (strip cs) = isCommitSpelling cs := by
  rw [isCommitSpelling, strip_strip, isCommitSpelling]

/-- What is read off an expression is read off its own text again. -/
theorem normal_ofExpression (text : String) : Normal (ofExpression text) := by
  rw [ofExpression]
  split
  · exact normal_commitTimestamp
  · rename_i h
    rw [Normal, factValue, ofExpression, trim, String.toList_ofList, isCommitSpelling_strip,
      if_neg h, trim, String.toList_ofList, strip_strip]

/-- Spellings of the commit timestamp begin with one of four letters. -/
theorem isCommitSpelling_cons {c : Char} {cs : List Char} (hc : isBlank c = false)
    (hupper : isBlank c.toUpper = false) (h : c.toUpper ∉ ['C', 'N', 'P', 'S']) :
    isCommitSpelling (c :: cs) = false := by
  have hspace : ' ' ≠ c.toUpper := by
    intro e
    rw [← e] at hupper
    exact absurd hupper (by decide)
  have hbefore (ds : List Char) : before " ON UPDATE ".toList (c.toUpper :: ds)
      = c.toUpper :: before " ON UPDATE ".toList ds := by
    have hword : " ON UPDATE ".toList.isPrefixOf (c.toUpper :: ds) = false := by
      have hlit : " ON UPDATE ".toList = ' ' :: "ON UPDATE ".toList := by decide
      rw [hlit, List.isPrefixOf_cons_cons, beq_eq_false_iff_ne.2 hspace, Bool.false_and]
    rw [before, if_neg (Bool.eq_false_iff.1 hword)]
  have hspelled : ∀ s ∈ commitSpellings, ∀ ds, (s.toList == c.toUpper :: ds) = false := by
    intro s hs ds
    have hfirst : commitSpellings.all
        (fun s ↦ s.toList.head?.any (['C', 'N', 'P', 'S'].contains ·)) = true := by
      decide
    refine beq_eq_false_iff_ne.2 fun e ↦ h ?_
    have hhead := List.all_eq_true.1 hfirst s hs
    rwa [e, List.head?_cons, Option.any_some, List.contains_iff_mem] at hhead
  have hcurrent (ds : List Char) :
      "CURRENT_TIMESTAMP(".toList.isPrefixOf (c.toUpper :: ds) = false := by
    have hlit : "CURRENT_TIMESTAMP(".toList = 'C' :: "URRENT_TIMESTAMP(".toList := by decide
    have hne : 'C' ≠ c.toUpper := fun e ↦ h (e ▸ List.mem_cons_self)
    rw [hlit, List.isPrefixOf_cons_cons, beq_eq_false_iff_ne.2 hne, Bool.false_and]
  obtain ⟨ds, hds⟩ := exists_strip_cons hc cs
  obtain ⟨es, hes⟩ := exists_strip_cons hupper (before " ON UPDATE ".toList (ds.map Char.toUpper))
  unfold isCommitSpelling
  dsimp only
  rw [hds, List.map_cons, hbefore, hes, hcurrent, Bool.or_false, List.any_eq_false]
  exact fun s hs ↦ by simp [hspelled s hs es]

/-- An expression that begins with no such letter is read back as it is. -/
theorem normal_expression {text : String} (htrim : trim text = text)
    (hfirst : ∀ c ∈ text.toList.head?, isBlank c.toUpper = false ∧
      c.toUpper ∉ ['C', 'N', 'P', 'S']) :
    Normal (expression text) := by
  have hspelling : isCommitSpelling text.toList = false := by
    cases hcs : text.toList with
    | nil => decide
    | cons c cs =>
      rw [hcs] at hfirst
      obtain ⟨hblank, hletter⟩ := hfirst c rfl
      have hstops := stops_strip text.toList
      rw [← String.toList_ofList (l := strip text.toList)] at hstops
      change Stops isBlank (trim text).toList at hstops
      rw [htrim, hcs, stops_cons] at hstops
      exact isCommitSpelling_cons hstops hblank hletter
  rw [Normal, factValue, ofExpression, if_neg (by simp [hspelling]), htrim]

end ColumnDefault

/-! ## Defaults that statements spell -/

/-- Without blanks around it, and with a digit, a sign or a point in front. -/
def IsNumeric (text : String) : Prop :=
  trim text = text ∧ text.toList.head?.any (fun c ↦ c.isDigit || c ∈ ['+', '-', '.']) = true

namespace DefaultExpr

private theorem toUpper_of_lt {c : Char} (h : c.toNat < 97) : c.toUpper = c := by
  rw [Char.toUpper, dif_neg]
  rintro ⟨ha, -⟩
  have ha := UInt32.le_iff_toNat_le.1 ha
  simp only [Char.toNat] at h
  simp only [Char.reduceVal, UInt32.reduceToNat] at ha
  omega

theorem normal_number {text : String} (h : IsNumeric text) :
    (ColumnDefault.expression text).Normal := by
  refine ColumnDefault.normal_expression h.1 fun c hc ↦ ?_
  have hany := h.2
  rw [Option.mem_def.1 hc, Option.any_some, Bool.or_eq_true] at hany
  rcases hany with hdigit | hsign
  · have hrange := hdigit
    rw [Char.isDigit, Bool.and_eq_true, decide_eq_true_eq, decide_eq_true_eq] at hrange
    have hle := UInt32.le_iff_toNat_le.1 hrange.2
    have hlt : c.toNat < 97 := by
      simp only [Char.reduceVal, UInt32.reduceToNat] at hle
      rw [Char.toNat]
      omega
    rw [toUpper_of_lt hlt]
    refine ⟨isBlank_eq_false_of_isAlphanum (by rw [Char.isAlphanum, hdigit, Bool.or_true]), ?_⟩
    intro hmem
    have hletters : ['C', 'N', 'P', 'S'].all (!·.isDigit) = true := by decide
    have hletter := List.all_eq_true.1 hletters c hmem
    rw [hdigit] at hletter
    contradiction
  · have hsigns : ['+', '-', '.'].all (fun d ↦ !isBlank d.toUpper &&
        !(['C', 'N', 'P', 'S'].contains d.toUpper)) = true := by decide
    simpa using List.all_eq_true.1 hsigns c (of_decide_eq_true hsign)

theorem normal_literal (text : String) :
    (ColumnDefault.expression
      (String.ofList ('\'' :: (text.toList.flatMap value?.escape ++ ['\''])))).Normal := by
  refine ColumnDefault.normal_expression ?_ fun c hc ↦ ?_
  · rw [trim, String.toList_ofList, strip_eq_self (stops_cons.2 (by decide))]
    rw [← List.cons_append, List.reverse_append]
    exact stops_cons.2 (by decide)
  · rw [String.toList_ofList, List.head?_cons, Option.mem_def, Option.some_inj] at hc
    subst hc
    decide

/-- A default that a statement spells is normal, numbers provided. -/
theorem normal_of_value? {e : DefaultExpr} {d : ColumnDefault}
    (hnumber : ∀ text, e = .number text → IsNumeric text) (h : e.value? = some d) : d.Normal := by
  cases e with
  | null => contradiction
  | literal text =>
    obtain rfl := Option.some.inj h
    exact normal_literal text
  | number text =>
    obtain rfl := Option.some.inj h
    exact normal_number (hnumber text rfl)
  | bool b =>
    obtain rfl := Option.some.inj h
    cases b <;> decide
  | currentTimestamp =>
    obtain rfl := Option.some.inj h
    exact ColumnDefault.normal_commitTimestamp
  | expression text =>
    obtain rfl := Option.some.inj h
    exact ColumnDefault.normal_ofExpression text

end DefaultExpr

end SchemaLedger
