import Mathlib
import SchemaLedger.Ddl
import SchemaLedger.Dump.Column
import SchemaLedger.Proofs.Identifier

/-!
# Column clauses are read back

A column clause says name, type and nullability, and whether the column may hold the commit
timestamp. Reading its text gives exactly the column that it declares, as long as the name is
legible and the length is one that can be read, which zero is not.

The text after the type is kept arbitrary as long as possible, since the same type is also read
where something else than attributes follows it.
-/

namespace SchemaLedger

open Text Text.Scanner Identifier

/-! ## Lengths -/

namespace ColumnLength

theorem toList_text_size (n : UInt32) : (size n).text.toList = Nat.toDigits 10 n.toNat :=
  Nat.toList_repr

theorem isDigit_of_mem_text {n : UInt32} {c : Char} (h : c ∈ (size n).text.toList) :
    c.isDigit = true := by
  rw [toList_text_size] at h
  exact Nat.isDigit_of_mem_toDigits (by decide) (by decide) h

theorem toList_text_ne_nil (l : ColumnLength) : l.text.toList ≠ [] := by
  cases l with
  | max => decide
  | size n => rw [toList_text_size]; exact Nat.toDigits_ne_nil

/-- A length is written with letters and digits only. -/
theorem isAlphanum_of_mem_text {l : ColumnLength} {c : Char} (h : c ∈ l.text.toList) :
    c.isAlphanum = true := by
  cases l with
  | max => exact List.all_eq_true.1 (by decide) c h
  | size n => rw [Char.isAlphanum, isDigit_of_mem_text h, Bool.or_true]

theorem strip_text (l : ColumnLength) : strip l.text.toList = l.text.toList :=
  strip_eq_self
    (Stops.of_forall fun _ h ↦ isBlank_eq_false_of_isAlphanum (isAlphanum_of_mem_text h))
    (Stops.of_forall fun _ h ↦
      isBlank_eq_false_of_isAlphanum (isAlphanum_of_mem_text (List.mem_reverse.1 h)))

theorem ofDigits?_text {n : UInt32} (h : n ≠ 0) :
    ofDigits? (size n).text.toList = some (size n) := by
  have hpos : 0 < n.toNat := by
    have : n.toNat ≠ (0 : UInt32).toNat := fun e ↦ h (UInt32.toNat_inj.1 e)
    exact Nat.pos_of_ne_zero this
  have hvalue : (size n).text.toList.foldl (fun n d ↦ 10 * n + (d.toNat - 48)) 0 = n.toNat := by
    rw [toList_text_size]
    exact Nat.ofDigitChars_eq_foldl.symm.trans Nat.ofDigitChars_ten_toDigits
  rw [ofDigits?, if_pos ⟨toList_text_ne_nil _, List.all_eq_true.2 fun _ ↦ isDigit_of_mem_text⟩]
  dsimp only
  rw [hvalue, if_pos ⟨hpos, n.toNat_lt_size⟩, UInt32.ofNat_toNat]

theorem ofDigits?_text_zero : ofDigits? (size 0).text.toList = none := by
  decide

private theorem toLower_of_isDigit {c : Char} (h : c.isDigit = true) : c.toLower = c := by
  rw [Char.isDigit, Bool.and_eq_true, decide_eq_true_eq, decide_eq_true_eq] at h
  rw [Char.toLower, dif_neg]
  rintro ⟨hA, -⟩
  have h9 := UInt32.le_iff_toNat_le.1 h.2
  have hA := UInt32.le_iff_toNat_le.1 hA
  simp only [Char.reduceVal, UInt32.reduceToNat] at h9 hA
  omega

theorem ofText?_text_size (n : UInt32) :
    ofText? (size n).text = ofDigits? (size n).text.toList := by
  obtain ⟨c, cs, hcs⟩ := List.exists_cons_of_ne_nil (toList_text_ne_nil (size n))
  have hc : c.isDigit = true := isDigit_of_mem_text (n := n) (by rw [hcs]; exact List.mem_cons_self)
  have hplus : c ≠ '+' := by rintro rfl; exact absurd hc (by decide)
  have hmax : (c :: cs).map Char.toLower ≠ "max".toList := by
    intro e
    have hm : c.toLower = 'm' := (List.cons.inj e).1
    rw [toLower_of_isDigit hc] at hm
    subst hm
    exact absurd hc (by decide)
  rw [ofText?, strip_text, hcs]
  split
  · rename_i ds e
    exact absurd (List.cons.inj e).1 hplus
  · rw [if_neg hmax]

/-- A length is read back, unless it is zero. -/
theorem ofText?_text {l : ColumnLength} (h : l ≠ size 0) : ofText? l.text = some l := by
  cases l with
  | max => decide
  | size n => rw [ofText?_text_size, ofDigits?_text fun e ↦ h (congrArg size e)]

theorem ofText?_text_zero : ofText? (size 0).text = none := by
  rw [ofText?_text_size, ofDigits?_text_zero]

theorem isLengthText_text (l : ColumnLength) : Dump.isLengthText l.text.toList = true := by
  cases l with
  | max => decide
  | size n =>
    rw [Dump.isLengthText, Bool.or_eq_true]
    exact Or.inr (Bool.and_eq_true_iff.2
      ⟨by simpa using toList_text_ne_nil (size n), List.all_eq_true.2 fun _ ↦ isDigit_of_mem_text⟩)

end ColumnLength

/-! ## Types -/

namespace ColumnType

theorem isAlphanum_of_mem_text {t : ColumnType} {c : Char} (h : c ∈ t.text.toList) :
    c.isAlphanum = true := by
  have hall : t.text.toList.all Char.isAlphanum = true := by
    cases t <;> decide
  exact List.all_eq_true.1 hall c h

theorem toList_text_ne_nil (t : ColumnType) : t.text.toList ≠ [] := by
  cases t <;> decide

theorem ofText?_text (t : ColumnType) : ofText? t.text = some t := by
  cases t <;> decide +kernel

/-- A type and its length, if it has one. -/
def sizedText (t : ColumnType) (length : Option ColumnLength) : List Char :=
  t.text.toList ++ length.elim [] fun l ↦ '(' :: (l.text.toList ++ [')'])

theorem toList_sql (t : ColumnType) (length : Option ColumnLength) (array : Bool) :
    (t.sql length array).toList
      = if array then "array".toList ++ '<' :: (t.sizedText (t.effectiveLength length) ++ ['>'])
        else t.sizedText (t.effectiveLength length) := by
  rw [sql, sizedText]
  cases t.effectiveLength length <;> cases array <;>
    simp [String.toList_append, List.append_assoc]

theorem mem_sizedText {t : ColumnType} {length : Option ColumnLength} {c : Char}
    (h : c ∈ t.sizedText length) : c.isAlphanum = true ∨ c = '(' ∨ c = ')' := by
  rw [sizedText] at h
  rcases List.mem_append.1 h with h | h
  · exact Or.inl (isAlphanum_of_mem_text h)
  · cases length with
    | none => contradiction
    | some l =>
      rcases List.mem_cons.1 h with h | h
      · exact Or.inr (Or.inl h)
      · rcases List.mem_append.1 h with h | h
        · exact Or.inl (ColumnLength.isAlphanum_of_mem_text h)
        · exact Or.inr (Or.inr (List.mem_singleton.1 h))

/-- Of a written type the characters are letters, digits and brackets. -/
theorem mem_sql {t : ColumnType} {length : Option ColumnLength} {array : Bool} {c : Char}
    (h : c ∈ (t.sql length array).toList) : c.isAlphanum = true ∨ c ∈ "()<>".toList := by
  have hsized (h : c ∈ t.sizedText (t.effectiveLength length)) :
      c.isAlphanum = true ∨ c ∈ "()<>".toList := by
    rcases mem_sizedText h with h | rfl | rfl
    · exact Or.inl h
    · exact Or.inr (by decide)
    · exact Or.inr (by decide)
  rw [toList_sql] at h
  cases array with
  | false => exact hsized h
  | true =>
    rw [if_pos rfl, List.mem_append, List.mem_cons, List.mem_append, List.mem_singleton] at h
    rcases h with h | rfl | h | rfl
    · exact Or.inl (List.all_eq_true.1 (by decide) c h)
    · exact Or.inr (by decide)
    · exact hsized h
    · exact Or.inr (by decide)

/-- There is no blank in a written type. -/
theorem isBlank_eq_false_of_mem_sizedText {t : ColumnType} {length : Option ColumnLength} {c : Char}
    (h : c ∈ t.sizedText length) : isBlank c = false := by
  rcases mem_sizedText h with h | rfl | rfl
  · exact isBlank_eq_false_of_isAlphanum h
  · decide
  · decide

theorem isBlank_eq_false_of_mem_sql {t : ColumnType} {length : Option ColumnLength} {array : Bool}
    {c : Char} (h : c ∈ (t.sql length array).toList) : isBlank c = false := by
  rcases mem_sql h with h | h
  · exact isBlank_eq_false_of_isAlphanum h
  · have hall : "()<>".toList.all (!isBlank ·) = true := by decide
    simpa using List.all_eq_true.1 hall c h

theorem sealed_sizedText (t : ColumnType) (length : Option ColumnLength) :
    Sealed (t.sizedText length) := by
  have hinert : ∀ c : Char, c.isAlphanum = true → isInert c = true := by
    intro c hc
    have hne : ∀ d : Char, d.isAlphanum = false → c ≠ d := by
      rintro d hd rfl
      exact absurd hc (by simp [hd])
    simp only [isInert, isQuote, Bool.and_eq_true, bne_iff_ne, Bool.not_eq_true',
      Bool.or_eq_false_iff, decide_eq_false_iff_not]
    refine ⟨⟨⟨⟨⟨⟨⟨?_, ?_⟩, ?_⟩, ?_⟩, ?_⟩, ?_⟩, ?_⟩, ?_⟩ <;> exact hne _ (by decide)
  refine Sealed.append (Sealed.of_forall fun c h ↦ hinert c (isAlphanum_of_mem_text h)) ?_
  cases length with
  | none => exact Sealed.nil
  | some l =>
    exact Sealed.parenthesised
      (Sealed.of_forall fun c h ↦ hinert c (ColumnLength.isAlphanum_of_mem_text h))

theorem sealed_sql (t : ColumnType) (length : Option ColumnLength) (array : Bool) :
    Sealed (t.sql length array).toList := by
  rw [toList_sql]
  cases array with
  | false => exact sealed_sizedText t _
  | true =>
    exact Sealed.append (Sealed.of_all (by decide)) (Sealed.bracketed (sealed_sizedText t _))

theorem stops_sql (t : ColumnType) (length : Option ColumnLength) (array : Bool) :
    Stops isBlank (t.sql length array).toList :=
  Stops.of_forall fun _ ↦ isBlank_eq_false_of_mem_sql

theorem toList_sql_ne_nil (t : ColumnType) (length : Option ColumnLength) (array : Bool) :
    (t.sql length array).toList ≠ [] := by
  rw [toList_sql]
  cases array with
  | false => exact List.append_ne_nil_of_left_ne_nil (toList_text_ne_nil t) _
  | true => exact List.cons_ne_nil _ _

theorem stops_reverse_sql (t : ColumnType) (length : Option ColumnLength) (array : Bool) :
    Stops isBlank (t.sql length array).toList.reverse :=
  Stops.of_forall fun _ h ↦ isBlank_eq_false_of_mem_sql (List.mem_reverse.1 h)

end ColumnType

namespace Dump

/-- What a scanner makes of a written type. -/
def TypeText.of (t : ColumnType) (length : Option ColumnLength) (array : Bool) : TypeText :=
  if array then .array (t.sizedText (t.effectiveLength length))
  else .scalar t.text.toList ((t.effectiveLength length).map (·.text.toList))

theorem run_sizedWord (t : ColumnType) (length : Option ColumnLength) {r : List Char}
    (hr : Stops isNameChar r) (hr' : Stops (· == '(') (stripLeft r)) :
    sizedWord.run (t.sizedText length ++ r)
      = some ((t.text.toList, length.map (·.text.toList)), r) := by
  have hword : ∀ c ∈ t.text.toList, isNameChar c = true := by
    intro c h
    have := ColumnType.isAlphanum_of_mem_text h
    rw [Char.isAlphanum, Bool.or_eq_true] at this
    rcases this with h | h <;> simp [isNameChar, isNameStart, h]
  rw [sizedWord, ColumnType.sizedText, List.append_assoc]
  cases length with
  | none =>
    have hnone : (do blanks; symbol '('; upTo ')' : Scanner (List Char)).run r = none := by
      rw [run_bind_of_run (run_blanks r)]
      cases h : stripLeft r with
      | nil => rfl
      | cons c cs =>
        rw [h, stops_cons, beq_eq_false_iff_ne] at hr'
        exact run_bind_of_none (run_symbol_of_ne hr')
    rw [Option.elim_none, List.nil_append,
      run_bind_of_run (run_chars (ColumnType.toList_text_ne_nil t) hword hr),
      run_bind_of_run (run_attempt_of_none hnone)]
    rfl
  | some l =>
    have hclose : ')' ∉ l.text.toList :=
      fun h ↦ absurd (ColumnLength.isAlphanum_of_mem_text h) (by decide)
    have hsome : (do blanks; symbol '('; upTo ')' : Scanner (List Char)).run
        ('(' :: (l.text.toList ++ ')' :: r)) = some (l.text.toList, r) := by
      rw [run_bind_of_run (run_blanks_of_stops (stops_cons.2 (by decide))),
        run_bind_of_run (run_symbol _ _), run_upTo hclose]
    rw [Option.elim_some, List.cons_append, List.append_assoc, List.singleton_append,
      run_bind_of_run (run_chars (ColumnType.toList_text_ne_nil t) hword
        (stops_cons.2 (by decide))), run_bind_of_run (run_attempt_of_run hsome)]
    rfl

/-- No type begins like an array. -/
private theorem run_array_eq_none (t : ColumnType) (length : Option ColumnLength) (r : List Char) :
    (keyword "array").run (t.sizedText length ++ r) = none := by
  cases t <;> exact run_keyword_cons_of_ne (by decide : "array".toList = 'a' :: "rray".toList)
    (by decide)

theorem run_typeText (t : ColumnType) (length : Option ColumnLength) (array : Bool) {r : List Char}
    (hr : Stops isNameChar r) (hr' : Stops (· == '(') (stripLeft r)) :
    typeText.run ((t.sql length array).toList ++ r) = some (TypeText.of t length array, r) := by
  rw [ColumnType.toList_sql, typeText]
  cases array with
  | false =>
    rw [if_neg Bool.false_ne_true, run_orElse_of_none (run_bind_of_none (run_array_eq_none t _ r)),
      run_bind_of_run (run_sizedWord t _ hr hr')]
    rfl
  | true =>
    have hclose : '>' ∉ t.sizedText (t.effectiveLength length) := by
      intro h
      rcases ColumnType.mem_sizedText h with h | h | h <;> exact absurd h (by decide)
    rw [if_pos rfl, List.append_assoc, List.cons_append, List.append_assoc, List.singleton_append]
    refine run_orElse_of_run ?_
    rw [run_bind_of_run (run_keyword_append (by decide) _),
      run_bind_of_run (run_blanks_of_stops (stops_cons.2 (by decide))),
      run_bind_of_run (run_symbol _ _), run_bind_of_run (run_upTo hclose r)]
    rfl

theorem readSized_text (t : ColumnType) {length : Option ColumnLength}
    (h : length ≠ some (.size 0)) :
    readSized t.text.toList (length.map (·.text.toList)) = .ok (t, t.normalLength length) := by
  rw [readSized, Option.map_map]
  cases length with
  | none =>
    simp only [Option.map_none, Option.all_none, String.ofList_toList, ColumnType.ofText?_text]
    cases t <;> rfl
  | some l =>
    have hl : l ≠ .size 0 := fun e ↦ h (congrArg some e)
    simp only [Option.map_some, Function.comp_apply, ColumnLength.strip_text, Option.all_some,
      ColumnLength.isLengthText_text, String.ofList_toList, ColumnType.ofText?_text,
      ColumnLength.ofText?_text hl, Bool.not_true, Bool.false_eq_true, if_false]

theorem readSized_text_zero (t : ColumnType) :
    readSized t.text.toList (some (ColumnLength.size 0).text.toList) = .error .invalidLength := by
  simp only [readSized, Option.map_some, ColumnLength.strip_text, Option.all_some,
    ColumnLength.isLengthText_text, String.ofList_toList, ColumnType.ofText?_text,
    ColumnLength.ofText?_text_zero, Bool.not_true, Bool.false_eq_true, if_false]

/-- The length that a written type has is not zero. -/
def HasLength (t : ColumnType) (length : Option ColumnLength) : Prop :=
  t.effectiveLength length ≠ some (.size 0)

/-- Reading the element of a written array is reading the type. -/
private theorem readType_array (t : ColumnType) (length : Option ColumnLength) :
    readType (.array (t.sizedText length))
      = (readSized t.text.toList (length.map (·.text.toList))).map fun x ↦ (x.1, x.2, true) := by
  have hword := run_sizedWord t length (stops_nil _) (stops_nil _)
  rw [List.append_nil] at hword
  have hinner : (do blanks; let t ← sizedWord; blanks; finished; return t :
      Scanner (List Char × Option (List Char))).value? (t.sizedText length)
      = some (t.text.toList, length.map (·.text.toList)) := by
    rw [value?, run_bind_of_run (run_blanks_of_stops
        (Stops.of_forall fun _ ↦ ColumnType.isBlank_eq_false_of_mem_sizedText)),
      run_bind_of_run hword, run_bind_of_run (run_blanks_of_stops (stops_nil _)),
      run_bind_of_run run_finished_nil]
    rfl
  rw [readType]
  dsimp only
  rw [hinner]
  dsimp only
  cases readSized t.text.toList (length.map (·.text.toList)) <;> rfl

theorem readType_of (t : ColumnType) {length : Option ColumnLength} (array : Bool)
    (h : HasLength t length) :
    readType (TypeText.of t length array) = .ok (t, t.normalLength length, array) := by
  cases array with
  | false =>
    rw [TypeText.of, if_neg Bool.false_ne_true, readType, readSized_text t h,
      ColumnType.normalLength_effectiveLength]
    rfl
  | true =>
    rw [TypeText.of, if_pos rfl, readType_array, readSized_text t h,
      ColumnType.normalLength_effectiveLength]
    rfl

theorem readType_of_zero (t : ColumnType) {length : Option ColumnLength} (array : Bool)
    (h : ¬HasLength t length) : readType (TypeText.of t length array) = .error .invalidLength := by
  have hz : t.effectiveLength length = some (.size 0) := Classical.not_not.1 h
  cases array with
  | false =>
    rw [TypeText.of, if_neg Bool.false_ne_true, hz, readType, Option.map_some,
      readSized_text_zero t]
    rfl
  | true =>
    rw [TypeText.of, if_pos rfl, hz, readType_array, Option.map_some, readSized_text_zero t]
    rfl

/-! ## Attributes -/

theorem run_notNull {r : List Char} (hr : Stops isWordChar r) :
    notNull.run ("NOT NULL".toList ++ r) = some (.notNull, r) := by
  have hphrase : (phrase ["not", "null"]).run ("NOT".toList ++ ' ' :: ("NULL".toList ++ r))
      = some ((), r) := by
    rw [run_phrase_cons (by decide) (by decide) (stops_append (by decide) r), phrase,
      run_keyword_append (by decide)]
  have htext : "NOT NULL".toList ++ r = "NOT".toList ++ ' ' :: ("NULL".toList ++ r) := by
    simp
  rw [htext, notNull, run_bind_of_run hphrase, run_bind_of_run (run_wordEnd_of_stops hr)]
  rfl

theorem run_options (r : List Char) :
    options.run (ColumnClause.commitTimestampOption.toList ++ r) = some (true, r) := by
  have htext : ColumnClause.commitTimestampOption.toList ++ r
      = "OPTIONS".toList ++ ' ' :: '(' :: ("allow_commit_timestamp".toList
        ++ '=' :: ("true".toList ++ ')' :: r)) := by
    simp [ColumnClause.commitTimestampOption]
  have hallow : allowance.run ("true".toList ++ ')' :: r) = some (true, ')' :: r) := by
    rw [allowance]
    refine run_orElse_of_run ?_
    rw [run_bind_of_run (run_keyword_append (by decide) _)]
    rfl
  rw [htext, options, run_bind_of_run (run_keyword_append (by decide) _),
    run_bind_of_run (run_blanks_cons (by decide) (stops_cons.2 (by decide))),
    run_bind_of_run (run_symbol _ _),
    run_bind_of_run (run_blanks_of_stops (stops_append (by decide) _)),
    run_bind_of_run (run_keyword_append (by decide) _),
    run_bind_of_run (run_blanks_of_stops (stops_cons.2 (by decide))),
    run_bind_of_run (run_symbol _ _),
    run_bind_of_run (run_blanks_of_stops (stops_append (by decide) _)), run_bind_of_run hallow,
    run_bind_of_run (run_blanks_of_stops (stops_cons.2 (by decide))),
    run_bind_of_run (run_symbol _ _)]
  rfl

theorem attributes_nil : attributes [] = .ok [] := by
  rw [attributes]
  rfl

/-- A plain attribute is followed by the others. -/
theorem attributes_of_run {cs r : List Char} {a : Attribute}
    (h : plainAttribute.run cs = some (a, r)) :
    attributes cs = (a :: ·) <$> attributes (stripLeft r) := by
  have hne : cs.isEmpty = false := by
    cases cs with
    | nil => contradiction
    | cons c cs => rfl
  rw [attributes, if_neg (by simp [hne])]
  split
  · rename_i b r' h'
    rw [h, Option.some_inj, Prod.mk.injEq] at h'
    rw [h'.1, h'.2]
  · rename_i h'
    rw [h] at h'
    contradiction

/-- What begins like no attribute is refused. -/
theorem attributes_eq_error {cs : List Char} (hne : cs ≠ []) (h : plainAttribute.run cs = none)
    (h' : defaultHead.run cs = none) : attributes cs = .error .unexpectedAttribute := by
  rw [attributes, if_neg (by simpa using hne)]
  split
  · rename_i h₁
    rw [h] at h₁
    contradiction
  · split
    · rfl
    · rename_i h₁
      rw [h'] at h₁
      contradiction

theorem attributes_notNull {r : List Char} (hr : Stops isWordChar r) :
    attributes ("NOT NULL".toList ++ r) = (.notNull :: ·) <$> attributes (stripLeft r) :=
  attributes_of_run (run_orElse_of_run (run_notNull hr))

theorem attributes_options (r : List Char) :
    attributes (ColumnClause.commitTimestampOption.toList ++ r)
      = (.commitTimestamp true :: ·) <$> attributes (stripLeft r) := by
  refine attributes_of_run ?_
  have hnot : notNull.run (ColumnClause.commitTimestampOption.toList ++ r) = none := by
    rw [notNull, phrase]
    · exact run_bind_of_none (run_bind_of_none (run_keyword_cons_of_ne
        (by decide : "not".toList = 'n' :: "ot".toList) (by decide)))
    · exact List.cons_ne_nil _ _
  rw [plainAttribute, run_orElse_of_none hnot, run_map_of_run (run_options r)]

/-- The attributes of a clause as they are written. -/
def attributeText (notNull commitTimestamp : Bool) : List Char :=
  (if notNull then " NOT NULL".toList else []) ++
    if commitTimestamp then ' ' :: ColumnClause.commitTimestampOption.toList else []

theorem sealed_attributeText (notNull commitTimestamp : Bool) :
    Sealed (attributeText notNull commitTimestamp) := by
  have hoption : ' ' :: ColumnClause.commitTimestampOption.toList
      = " OPTIONS ".toList ++ '(' :: ("allow_commit_timestamp=true".toList ++ [')']) := by decide
  refine Sealed.append ?_ ?_
  · cases notNull with
    | false => exact Sealed.nil
    | true => rw [if_pos rfl]; exact Sealed.of_all (by decide)
  · cases commitTimestamp with
    | false => exact Sealed.nil
    | true =>
      rw [if_pos rfl, hoption]
      exact (Sealed.of_all (by decide)).append (Sealed.parenthesised (Sealed.of_all (by decide)))

theorem attributes_attributeText (notNull commitTimestamp : Bool) :
    attributes (strip (attributeText notNull commitTimestamp))
      = .ok ((if notNull then [.notNull] else [])
        ++ if commitTimestamp then [.commitTimestamp true] else []) := by
  cases notNull with
  | false =>
    cases commitTimestamp with
    | false => exact attributes_nil
    | true =>
      have hs : strip (attributeText false true)
          = ColumnClause.commitTimestampOption.toList ++ [] := by decide
      rw [hs, attributes_options, stripLeft_eq_self (stops_nil _), attributes_nil]
      rfl
  | true =>
    cases commitTimestamp with
    | false =>
      have hs : strip (attributeText true false) = "NOT NULL".toList ++ [] := by decide
      rw [hs, attributes_notNull (stops_nil _), stripLeft_eq_self (stops_nil _), attributes_nil]
      rfl
    | true =>
      have hs : strip (attributeText true true)
          = "NOT NULL".toList ++ ' ' :: (ColumnClause.commitTimestampOption.toList ++ []) := by
        decide
      have hl : stripLeft (' ' :: (ColumnClause.commitTimestampOption.toList ++ []))
          = ColumnClause.commitTimestampOption.toList ++ [] := by decide
      rw [hs, attributes_notNull (stops_cons.2 (by decide)), hl, attributes_options,
        stripLeft_eq_self (stops_nil _), attributes_nil]
      rfl

end Dump

/-! ## Clauses -/

namespace ColumnClause

/-- The column that a clause declares. -/
def column (c : ColumnClause) : Column where
  name := c.name
  type := c.type
  nullable := !c.notNull
  length := c.type.normalLength c.length
  isArray := c.array
  defaultValue := if c.commitTimestamp then some .commitTimestamp else none

theorem toList_text (c : ColumnClause) :
    c.text.toList = (quote c.name).toList ++ ' ' ::
      ((c.type.sql c.length c.array).toList ++ Dump.attributeText c.notNull c.commitTimestamp) := by
  rw [text, definition, Dump.attributeText]
  cases c.notNull <;> cases c.commitTimestamp <;>
    simp [String.toList_append, List.append_assoc]

/-- A clause that can be read back. -/
structure Readable (c : ColumnClause) : Prop where
  name : Legible c.name
  length : Dump.HasLength c.type c.length

theorem stops_text (c : ColumnClause) : Stops isBlank c.text.toList := by
  rw [toList_text]
  exact stops_quote_append _ _

theorem toList_text_ne_nil (c : ColumnClause) : c.text.toList ≠ [] := by
  rw [toList_text]
  exact List.append_ne_nil_of_left_ne_nil (toList_quote_ne_nil _) _

theorem stops_reverse_text (c : ColumnClause) : Stops isBlank c.text.toList.reverse := by
  have hsql : Stops isBlank ((c.type.sql c.length c.array).toList
      ++ Dump.attributeText c.notNull c.commitTimestamp).reverse := by
    cases c.notNull <;> cases c.commitTimestamp
    · rw [Dump.attributeText, if_neg Bool.false_ne_true, if_neg Bool.false_ne_true,
        List.append_nil, List.append_nil]
      exact ColumnType.stops_reverse_sql _ _ _
    all_goals exact Stops.reverse_append (stops_cons.2 (by decide)) (by decide)
  rw [toList_text, ← List.singleton_append, ← List.append_assoc]
  exact hsql.reverse_append
    (List.append_ne_nil_of_left_ne_nil (ColumnType.toList_sql_ne_nil _ _ _) _)

theorem sealed_text {c : ColumnClause} (h : Sealed (quote c.name).toList) :
    Sealed c.text.toList := by
  rw [toList_text, ← List.singleton_append]
  exact h.append ((Sealed.singleton (by decide)).append
    ((ColumnType.sealed_sql _ _ _).append (Dump.sealed_attributeText _ _)))

end ColumnClause

namespace Dump

/-- Name and type are read off a clause; its attributes are left with what follows the clause. -/
theorem value?_columnText {c : ColumnClause} (h : Legible c.name) {r : List Char}
    (hr : Stops isNameChar (attributeText c.notNull c.commitTimestamp ++ r))
    (hr' : Stops (· == '(') (stripLeft (attributeText c.notNull c.commitTimestamp ++ r))) :
    columnText.value? (c.text.toList ++ r)
      = some (c.name, TypeText.of c.type c.length c.array,
          attributeText c.notNull c.commitTimestamp ++ r) := by
  have hsql := (ColumnType.stops_sql c.type c.length c.array).append
    (b := attributeText c.notNull c.commitTimestamp ++ r) (ColumnType.toList_sql_ne_nil _ _ _)
  rw [ColumnClause.toList_text, List.append_assoc, List.cons_append, List.append_assoc, value?,
    columnText, run_bind_of_run (run_blanks_of_stops (stops_quote_append _ _)),
    run_bind_of_run (run_name_quote h (stops_cons.2 (by decide))),
    run_bind_of_run (run_gap_of_stops (by decide) hsql),
    run_bind_of_run (run_typeText _ _ _ hr hr'), run_bind_of_run (run_remainder _)]
  rfl

private theorem value?_columnText_self {c : ColumnClause} (h : Legible c.name) :
    columnText.value? c.text.toList
      = some (c.name, TypeText.of c.type c.length c.array,
          attributeText c.notNull c.commitTimestamp) := by
  have := value?_columnText (c := c) (r := []) h
  rw [List.append_nil, List.append_nil] at this
  refine this ?_ ?_ <;> cases c.notNull <;> cases c.commitTimestamp <;>
    first | exact stops_nil _ | exact stops_cons.2 (by decide)

/-- A clause is read as the column that it declares. -/
theorem readColumn_text {c : ColumnClause} (h : c.Readable) :
    readColumn c.text.toList = .ok c.column := by
  rw [readColumn, value?_columnText_self h.name]
  dsimp only
  rw [readType_of _ _ h.length, attributes_attributeText, ColumnClause.column]
  cases c.notNull <;> cases c.commitTimestamp <;> rfl

/-- Only readable clauses are read. -/
theorem readable_of_readColumn {c : ColumnClause} (hb : '\x60' ∉ c.name.toList) {d : Column}
    (h : readColumn c.text.toList = .ok d) : c.Readable := by
  have hname : Legible c.name := by
    refine ⟨fun e ↦ ?_, hb⟩
    have hnone : columnText.value? c.text.toList = none := by
      rw [ColumnClause.toList_text, value?, columnText,
        run_bind_of_run (run_blanks_of_stops (stops_quote_append _ _)), e,
        run_bind_of_none (run_name_quote_empty _)]
      rfl
    rw [readColumn, hnone] at h
    contradiction
  refine ⟨hname, Classical.byContradiction fun hl ↦ ?_⟩
  rw [readColumn, value?_columnText_self hname] at h
  dsimp only at h
  rw [readType_of_zero _ _ hl] at h
  contradiction

end Dump

end SchemaLedger
