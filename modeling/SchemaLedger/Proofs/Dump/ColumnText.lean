import Mathlib
import SchemaLedger.Proofs.Dump.Column
import SchemaLedger.Proofs.Failing
import SchemaLedger.Proofs.Text.Nesting
import SchemaLedger.Proofs.Text.Shifting

/-!
# The pieces of a column

A text that is read as a column is a name, a type and attributes, with blanks between them and
around them. Names and types are read again whatever follows them. The scan for the end of a table's
body passes through all the pieces, unless a backslash takes away the backtick behind the name. The
scan for outer commas passes through them too, except that it takes the comparison signs of a
default for brackets: an expression is `Fenced` when that does no harm.
-/

namespace SchemaLedger

open Text Text.Scanner Identifier

/-! ## Names -/

/-- A text that is read off the front of a longer one. -/
structure Piece (p : List Char) : Prop where
  ne_nil : p ≠ []
  front : Stops isBlank p
  back : Stops isBlank p.reverse

/-- A name is read again off its piece of the text. -/
theorem Identifier.exists_of_run_name {cs r : List Char} {n : String}
    (h : name.run cs = some (n, r)) :
    ∃ p, cs = p ++ r ∧ Piece p ∧ (Balanced n → Sealed p) ∧
      (∀ r', Stops isNameChar r' → name.run (p ++ r') = some (n, r')) ∧
      (p = n.toList ∨ p = '\x60' :: (n.toList ++ ['\x60'])) := by
  -- A quoted name closes itself, a word ends where no name character follows: only the second
  -- depends on the rest.
  rcases of_run_name h with hquoted | ⟨-, hbare⟩
  · obtain ⟨hne, hb, rfl⟩ := exists_of_run_quotedName hquoted
    refine ⟨'\x60' :: (n.toList ++ ['\x60']), by
      simp, ⟨List.cons_ne_nil _ _, stops_cons.2 (by decide), ?_⟩,
      fun hn ↦ Sealed.literal (by decide) hb hn.after_eq, fun r' _ ↦ ?_, Or.inr rfl⟩
    · rw [List.reverse_cons, List.reverse_append]
      exact stops_cons.2 (by decide)
    · rw [List.cons_append, List.append_assoc, List.singleton_append, name,
        run_map_of_run (run_orElse_of_run (run_quotedName hne hb r')), String.ofList_toList]
  · obtain ⟨he, ⟨c, v, hu, hc⟩, hword⟩ := exists_of_run_bareName hbare
    have hblank : ∀ d ∈ n.toList, isBlank d = false :=
      fun d hd ↦ isBlank_eq_false_of_isNameChar (hword d hd)
    refine ⟨n.toList, he, ⟨hu ▸ List.cons_ne_nil c v, .of_forall hblank, .of_forall fun d hd ↦
      hblank d (List.mem_reverse.1 hd)⟩, fun _ ↦ Sealed.of_forall fun d hd ↦
        isInert_of_isNameChar (hword d hd),
      fun r' hr' ↦ ?_, Or.inl rfl⟩
    rw [hu, List.cons_append, run_name_word hc (fun d hd ↦ hword d (hu ▸ hd)) hr', ← hu,
      String.ofList_toList]

/-! ## Types -/

theorem ColumnType.of_ofText? {w : List Char} {t : ColumnType}
    (h : ofText? (String.ofList w) = some t) :
    w.map Char.toLower = t.text.toList := by
  have := List.find?_some h
  have heq : t.text = (String.ofList w).toLower := beq_iff_eq.1 this
  rw [heq, String.toLower, String.toList_map, String.toList_ofList]

namespace Dump

/-- Nothing that has a meaning to the scans stands in a length. -/
theorem sealed_of_readSized {word u : List Char} {x : ColumnType × Option ColumnLength}
    (h : readSized word (some u) = .ok x) : Sealed u := by
  have hlength : isLengthText (strip u) = true := by
    rw [readSized] at h
    cases hu : isLengthText (strip u) with
    | true => rfl
    | false =>
      simp only [Option.map_some, Option.all_some, hu] at h
      contradiction
  refine Sealed.of_forall fun c hc ↦ ?_
  cases hb : isBlank c with
  | true => exact isInert_of_isBlank hb
  | false =>
    have hmem := mem_strip hc hb
    refine isInert_of_isNameChar ?_
    rw [isLengthText, Bool.or_eq_true] at hlength
    rcases hlength with hmax | hdigits
    · have hfold : (strip u).map fold = "max".toList := beq_iff_eq.1 hmax
      have hname : ("max".toList.all isNameChar) = true := by decide
      exact isNameChar_of_fold (List.all_eq_true.1 hname _ (hfold ▸ List.mem_map_of_mem hmem))
    · rw [Bool.and_eq_true] at hdigits
      rw [isNameChar, List.all_eq_true.1 hdigits.2 c hmem, Bool.or_true]

theorem ofText?_of_readSized {word : List Char} {length : Option (List Char)}
    {x : ColumnType × Option ColumnLength} (h : readSized word length = .ok x) :
    ∃ t, ColumnType.ofText? (String.ofList word) = some t := by
  cases ht : ColumnType.ofText? (String.ofList word) with
  | some t => exact ⟨t, rfl⟩
  | none =>
    rw [readSized, ht] at h
    split at h <;> contradiction

/-- No length begins here. -/
theorem run_length_eq_none {r : List Char} (h : Stops (· == '(') (stripLeft r)) :
    (do blanks; symbol '('; upTo ')' : Scanner (List Char)).run r = none := by
  rw [run_bind_of_run (run_blanks r)]
  cases hr : stripLeft r with
  | nil => rfl
  | cons c cs =>
    rw [hr, stops_cons, beq_eq_false_iff_ne] at h
    exact run_bind_of_none (run_symbol_of_ne h)

/-- A word and its length are read again off their piece of the text. -/
theorem exists_of_run_sizedWord {cs r word : List Char} {length : Option (List Char)}
    (h : sizedWord.run cs = some ((word, length), r)) {x : ColumnType × Option ColumnLength}
    (hread : readSized word length = .ok x) :
    ∃ p, cs = p ++ r ∧ Piece p ∧ Sealed p ∧ (∃ u, p = word ++ u) ∧
      ∀ r', (Stops isNameChar r → Stops isNameChar r') → Stops (· == '(') (stripLeft r') →
        sizedWord.run (p ++ r') = some ((word, length), r') := by
  rw [sizedWord] at h
  obtain ⟨w, m, hchars, hrest⟩ := exists_of_run_bind h
  obtain ⟨o, m', hattempt, hlast⟩ := exists_of_run_bind hrest
  obtain ⟨he, rfl⟩ := Prod.mk.inj (Option.some.inj hlast)
  obtain ⟨rfl, rfl⟩ := Prod.mk.inj he
  obtain ⟨rfl, hne, hword, hstops⟩ := exists_of_run_chars hchars
  have hblank : ∀ c ∈ w, isBlank c = false := fun c hc ↦ isBlank_eq_false_of_isNameChar (hword c hc)
  have hsealed : Sealed w := Sealed.of_forall fun c hc ↦ isInert_of_isNameChar (hword c hc)
  -- With a length the piece ends in its parenthesis. Without one the word must not run on, and no
  -- length may follow.
  cases hlength : (do blanks; symbol '('; upTo ')' : Scanner (List Char)).run m with
  | none =>
    rw [run_attempt_of_none hlength] at hattempt
    obtain ⟨rfl, rfl⟩ := Prod.mk.inj (Option.some.inj hattempt)
    refine ⟨w, rfl,
      ⟨hne, .of_forall hblank, .of_forall fun c hc ↦ hblank c (List.mem_reverse.1 hc)⟩,
      hsealed, ⟨[], (List.append_nil w).symm⟩, fun r' hr hr' ↦ ?_⟩
    rw [sizedWord, run_bind_of_run (run_chars hne hword (hr hstops)),
      run_bind_of_run (run_attempt_of_none (run_length_eq_none hr'))]
    rfl
  | some y =>
    obtain ⟨u, k⟩ := y
    rw [run_attempt_of_run hlength] at hattempt
    obtain ⟨rfl, rfl⟩ := Prod.mk.inj (Option.some.inj hattempt)
    obtain ⟨_, m₁, hblanks, hlength⟩ := exists_of_run_bind hlength
    obtain ⟨_, m₂, hsymbol, hupTo⟩ := exists_of_run_bind hlength
    obtain ⟨hu, rfl⟩ := exists_of_run_upTo hupTo
    obtain rfl := exists_of_run_symbol hsymbol
    obtain ⟨b, hb, hbb⟩ := exists_stripLeft m
    rw [show stripLeft m = _ from (Prod.mk.inj (Option.some.inj hblanks)).2] at hb
    subst hb
    have hsealed' : Sealed (b ++ '(' :: (u ++ [')'])) :=
      (Sealed.of_forall fun c hc ↦ isInert_of_isBlank (hbb c hc)).append
        (sealed_of_readSized hread).parenthesised
    have hassoc (t : List Char) : w ++ (b ++ '(' :: (u ++ [')'])) ++ t =
        w ++ (b ++ '(' :: (u ++ ')' :: t)) := by
      simp
    have hhead (t : List Char) : Stops isNameChar (b ++ '(' :: (u ++ ')' :: t)) := by
      cases b with
      | nil => exact stops_cons.2 (by decide)
      | cons c b => exact stops_cons.2 (stops_cons.1 hstops)
    refine ⟨w ++ (b ++ '(' :: (u ++ [')'])), (hassoc _).symm, ⟨?_, ?_, ?_⟩, hsealed.append hsealed',
      ⟨_, rfl⟩, fun r' _ _ ↦ ?_⟩
    · exact List.append_ne_nil_of_left_ne_nil hne _
    · exact (Stops.of_forall hblank).append hne
    · simp only [List.reverse_append, List.reverse_cons, List.append_assoc]
      exact stops_cons.2 (by decide)
    · have hrun :
          (do blanks; symbol '('; upTo ')' : Scanner (List Char)).run (b ++ '(' :: (u ++ ')' :: r'))
          = some (u, r') := by
        rw [run_bind_of_run (run_blanks _), stripLeft_append hbb (stops_cons.2 (by decide)),
          run_bind_of_run (run_symbol _ _), run_upTo hu]
      rw [hassoc, sizedWord, run_bind_of_run (run_chars hne hword (hhead r')),
        run_bind_of_run (run_attempt_of_run hrun)]
      rfl

/-- No type begins like an array. -/
theorem run_array_of_ofText? {word : List Char} {t : ColumnType}
    (h : ColumnType.ofText? (String.ofList word) = some t) (r : List Char) :
    (keyword "array").run (word ++ r) = none := by
  have hlower := ColumnType.of_ofText? h
  cases word with
  | nil => cases t <;> exact absurd hlower (by decide)
  | cons c word =>
    refine run_keyword_cons_of_ne (by decide : "array".toList = 'a' :: "rray".toList) fun ha ↦ ?_
    have hc : c.toLower = 'a' := by
      rw [fold] at ha
      split at ha
      · contradiction
      · split at ha
        · contradiction
        · exact ha
    rw [List.map_cons, hc] at hlower
    cases t <;> exact absurd (List.cons.inj hlower).1 (by decide)

/-- What may stand between the angle brackets of an array. -/
theorem sealed_of_readType_array {element : List Char} {x : ColumnType × Option ColumnLength × Bool}
    (h : readType (.array element) = .ok x) : Sealed element := by
  rw [readType] at h
  dsimp only at h
  split at h
  · contradiction
  · rename_i word length hvalue
    obtain ⟨y, hread, -⟩ := bind_eq_ok h
    obtain ⟨⟨_, r⟩, hrun, he⟩ := Option.map_eq_some_iff.1 hvalue
    obtain rfl := he
    obtain ⟨_, m, hblanks, hrun⟩ := exists_of_run_bind hrun
    obtain ⟨_, m₁, hword, hrun⟩ := exists_of_run_bind hrun
    obtain ⟨_, m₂, hblanks', hrun⟩ := exists_of_run_bind hrun
    obtain ⟨_, m₃, hfinished, hrun⟩ := exists_of_run_bind hrun
    obtain ⟨he, -⟩ := Prod.mk.inj (Option.some.inj hrun)
    subst he
    obtain ⟨a, rfl, ha⟩ := Shifting.blanks (i := 0) _ _ _ hblanks
    obtain ⟨p, rfl, -, hp, -⟩ := exists_of_run_sizedWord hword hread
    obtain ⟨b, rfl, hb⟩ := Shifting.blanks (i := 0) _ _ _ hblanks'
    obtain rfl : m₂ = [] := by
      cases m₂ with
      | nil => rfl
      | cons c cs => contradiction
    rw [List.append_nil]
    exact ha.isSealed.append (hp.append hb.isSealed)

/-- A type is read again off its piece of the text. -/
theorem exists_of_run_typeText {cs r : List Char} {t : TypeText} (h : typeText.run cs = some (t, r))
    {x : ColumnType × Option ColumnLength × Bool} (hread : readType t = .ok x) :
    ∃ p, cs = p ++ r ∧ Piece p ∧ Sealed p ∧
      ∀ r', (Stops isNameChar r → Stops isNameChar r') → Stops (· == '(') (stripLeft r') →
        typeText.run (p ++ r') = some (t, r') := by
  rw [typeText] at h
  -- The text of an array ends in its bracket. A word that is tried as an array first must fail to
  -- be one again, whatever follows it.
  cases harray : (do keyword "array"; blanks; symbol '<'; return .array (← upTo '>') :
      Scanner TypeText).run cs with
  | some y =>
    rw [run_orElse_of_run harray] at h
    obtain rfl := Option.some.inj h
    obtain ⟨_, m, hkeyword, harray⟩ := exists_of_run_bind harray
    obtain ⟨_, m₁, hblanks, harray⟩ := exists_of_run_bind harray
    obtain ⟨_, m₂, hsymbol, harray⟩ := exists_of_run_bind harray
    obtain ⟨element, m₃, hupTo, hlast⟩ := exists_of_run_bind harray
    obtain ⟨he, rfl⟩ := Prod.mk.inj (Option.some.inj hlast)
    subst he
    obtain ⟨helement, rfl⟩ := exists_of_run_upTo hupTo
    obtain rfl := exists_of_run_symbol hsymbol
    obtain ⟨b, hb, hbb⟩ := exists_stripLeft m
    rw [show stripLeft m = _ from (Prod.mk.inj (Option.some.inj hblanks)).2] at hb
    subst hb
    obtain ⟨v, rfl, hv, hname⟩ := exists_of_run_keyword (by decide) hkeyword
    have hne : v ≠ [] := by
      rintro rfl
      contradiction
    have hassoc (t : List Char) : v ++ (b ++ '<' :: (element ++ ['>'])) ++ t
        = v ++ (b ++ '<' :: (element ++ '>' :: t)) := by
      simp
    refine ⟨v ++ (b ++ '<' :: (element ++ ['>'])), (hassoc _).symm, ⟨?_, ?_, ?_⟩, ?_,
      fun r' _ _ ↦ ?_⟩
    · exact List.append_ne_nil_of_left_ne_nil hne _
    · exact (Stops.of_forall fun c hc ↦ isBlank_eq_false_of_isNameChar (hname c hc)).append hne
    · simp only [List.reverse_append, List.reverse_cons, List.append_assoc]
      exact stops_cons.2 (by decide)
    · exact (Sealed.of_forall fun c hc ↦ isInert_of_isNameChar (hname c hc)).append
        ((Sealed.of_forall fun c hc ↦ isInert_of_isBlank (hbb c hc)).append
          (sealed_of_readType_array hread).bracketed)
    · rw [hassoc]
      refine run_orElse_of_run ?_
      rw [run_bind_of_run (run_keyword_append hv _), run_bind_of_run (run_blanks _),
        stripLeft_append hbb (stops_cons.2 (by decide)), run_bind_of_run (run_symbol _ _),
        run_bind_of_run (run_upTo helement r')]
      rfl
  | none =>
    rw [run_orElse_of_none harray] at h
    obtain ⟨⟨word, length⟩, m, hword, hlast⟩ := exists_of_run_bind h
    obtain ⟨he, rfl⟩ := Prod.mk.inj (Option.some.inj hlast)
    subst he
    obtain ⟨y, hsized, -⟩ := bind_eq_ok hread
    obtain ⟨type, htype⟩ := ofText?_of_readSized hsized
    obtain ⟨p, rfl, hpiece, hsealed, ⟨u, hu⟩, hagain⟩ := exists_of_run_sizedWord hword hsized
    refine ⟨p, rfl, hpiece, hsealed, fun r' hr hr' ↦ ?_⟩
    have hnone := run_array_of_ofText? htype (u ++ r')
    rw [← List.append_assoc, ← hu] at hnone
    rw [typeText, run_orElse_of_none (run_bind_of_none hnone), run_bind_of_run (hagain r' hr hr')]
    rfl

/-! ## Attributes -/

/-- The scan for the end of a body passes through the text as a whole. -/
def Passes (p : List Char) : Prop :=
  ∀ depth r, enclosedFrom .outside depth (p ++ r)
    = (enclosedFrom .outside depth r).map fun x ↦ (p ++ x.1, x.2)

/-- The scan for commas, outside of brackets, does not cut the text and is outside of brackets
behind it. -/
def Level (p : List Char) : Prop :=
  ∀ r, splitCommasFrom .outside 0 (p ++ r) = p.foldr consFirst (splitCommasFrom .outside 0 r)

/-- The parenthesis behind the expression is the one that closes the one before it. -/
def Enclosed (e : List Char) : Prop := ∃ r, enclosed (e ++ ')' :: r) = some (e, r)

/-- In its parentheses, the expression does not get in the way of the scan for commas. -/
def Fenced (e : List Char) : Prop := Level ('(' :: (e ++ [')']))

theorem passes_of_sealed {p : List Char} (h : Sealed p) : Passes p := h.enclosedFrom_append

theorem level_of_sealed {p : List Char} (h : Sealed p) : Level p := h.splitCommasFrom_append 0

theorem Passes.append {a b : List Char} (ha : Passes a) (hb : Passes b) : Passes (a ++ b) := by
  intro depth r
  rw [List.append_assoc, ha, hb, Option.map_map]
  simp only [Function.comp_def, List.append_assoc]

theorem Level.append {a b : List Char} (ha : Level a) (hb : Level b) : Level (a ++ b) := by
  intro r
  rw [List.append_assoc, ha, hb, List.foldr_append]

/-- A text in the pieces of its attributes. -/
inductive AttributeText : List Char → List Attribute → Prop
  | nil : AttributeText [] []
  | plain {p cs : List Char} {a : Attribute} {as : List Attribute} (plain : ∀ e, a ≠ .default e)
    (sealedText : Sealed p) (rest : AttributeText cs as) : AttributeText (p ++ cs) (a :: as)
  | default {p e b cs : List Char} {as : List Attribute} (front : Sealed p)
    (expression : Enclosed e) (back : Sealed b) (rest : AttributeText cs as) :
    AttributeText (p ++ ('(' :: (e ++ [')']) ++ (b ++ cs))) (.default e :: as)

theorem shifting_notNull : Shifting 0 0 notNull :=
  .bind (.phrase (by decide)) fun _ ↦ .bind .wordEnd fun _ ↦ .pure _

theorem shifting_allowance : Shifting 0 0 allowance :=
  .orElse (.bind (.keyword (by decide)) fun _ ↦ .pure _)
    (.orElse (.bind (.keyword (by decide)) fun _ ↦ .pure _) (.bind (.keyword (by decide)) fun _ ↦
      .pure _))

theorem shifting_options : Shifting 0 0 options :=
  .bind (.keyword (by decide)) fun _ ↦ .bind .blanks fun _ ↦ .bind (.symbol (.opening 0)) fun _ ↦
    .bind .blanks fun _ ↦ .bind (.keyword (by decide)) fun _ ↦ .bind .blanks fun _ ↦
    .bind (.symbol ((Sealed.singleton (by decide)).shifts 1)) fun _ ↦ .bind .blanks fun _ ↦
    .bind (shifting_allowance.deeper 1) fun _ ↦ .bind .blanks fun _ ↦
      .bind (.symbol (.closing 0)) fun _ ↦ .pure _

theorem shifting_plainAttribute : Shifting 0 0 plainAttribute :=
  .orElse shifting_notNull (shifting_options.map _)

theorem yields_plainAttribute : Yields (fun a ↦ ∀ e, a ≠ .default e) plainAttribute := by
  have hmap : Yields (fun a ↦ ∀ e, a ≠ .default e) (Attribute.commitTimestamp <$> options) := by
    intro cs a r h
    cases ho : options.run cs with
    | none =>
      rw [run_map_of_none ho] at h
      contradiction
    | some x =>
      rw [run_map_of_run (a := x.1) (m := x.2) ho] at h
      obtain ⟨rfl, -⟩ := Prod.mk.inj (Option.some.inj h)
      exact fun e he ↦ Attribute.noConfusion he
  exact .orElse (.after fun _ ↦ .after fun _ ↦ .pure fun e he ↦ Attribute.noConfusion he) hmap

/-- An expression in its parentheses is passed. -/
theorem Enclosed.passes {e : List Char} (h : Enclosed e) : Passes ('(' :: (e ++ [')'])) := by
  obtain ⟨r, h⟩ := h
  obtain ⟨-, hnested⟩ := enclosed_eq_some_iff.1 h
  intro depth r
  have hopen (t : List Char) : enclosedFrom .outside depth ('(' :: t)
      = (enclosedFrom .outside (depth + 1) t).map fun x ↦ ('(' :: x.1, x.2) := rfl
  have hclose : enclosedFrom .outside (depth + 1) (')' :: r)
      = (enclosedFrom .outside depth r).map fun x ↦ (')' :: x.1, x.2) := rfl
  rw [List.cons_append, List.append_assoc, List.singleton_append, hopen, ← Nat.add_zero (depth + 1),
    hnested.enclosedFrom_append, hclose, Option.map_map, Option.map_map]
  simp only [Function.comp_def, List.cons_append, List.append_assoc, List.nil_append]

/-- An expression without comparison signs outside of literals is in nobody's way. -/
theorem Enclosed.fenced {e : List Char} (h : Enclosed e) (hless : Quoted '<' e)
    (hgreater : Quoted '>' e) :
    Fenced e := by
  obtain ⟨r, h⟩ := h
  obtain ⟨-, hnested⟩ := enclosed_eq_some_iff.1 h
  intro r'
  have hopen (t : List Char) : splitCommasFrom .outside 0 ('(' :: t)
      = consFirst '(' (splitCommasFrom .outside (0 + 1 + 0) t) := rfl
  have hclose : splitCommasFrom .outside (0 + 1) (')' :: r')
      = consFirst ')' (splitCommasFrom .outside 0 r') := rfl
  rw [List.cons_append, List.append_assoc, List.singleton_append, hopen,
    hnested.splitCommasFrom_append hless.notMem_uncovered hgreater.notMem_uncovered, hclose,
    List.foldr_cons, List.foldr_append]
  rfl

theorem sealed_blanks {b : List Char} (h : ∀ c ∈ b, isBlank c = true) : Sealed b :=
  Sealed.of_forall fun c hc ↦ isInert_of_isBlank (h c hc)

/-- Attributes that are read stand in the text one after another. -/
theorem attributeText_of_attributes {cs : List Char} {as : List Attribute}
    (h : attributes cs = .ok as) :
    AttributeText cs as := by
  -- The induction is on the length of the text, since blanks are trimmed off between the
  -- attributes.
  induction hn : cs.length using Nat.strong_induction_on generalizing cs as with
  | _ n ih =>
    have hrest {r : List Char} (hr : r.length < cs.length) {as : List Attribute}
        (h : attributes (stripLeft r) = .ok as) : AttributeText (stripLeft r) as :=
      ih _ (by have := stripLeft_length_le r; omega) h rfl
    rw [attributes] at h
    split at h
    · rename_i hempty
      obtain rfl := List.isEmpty_iff.1 hempty
      obtain rfl := Except.ok.inj h
      exact .nil
    · split at h
      · rename_i a r hrun
        obtain ⟨as, has, rfl⟩ := map_eq_ok h
        obtain ⟨b, hb, hbb⟩ := exists_stripLeft r
        obtain ⟨p, hp, hsealed⟩ := shifting_plainAttribute _ _ _ hrun
        have hmade :=
          AttributeText.plain (yields_plainAttribute _ _ _ hrun)
            (hsealed.isSealed.append (sealed_blanks hbb))
          (hrest (plainAttribute_consuming _ _ _ hrun) has)
        rwa [List.append_assoc, ← hb, ← hp] at hmade
      · split at h
        · contradiction
        · rename_i u r hhead
          split at h
          · contradiction
          · rename_i e r' henclosed
            obtain ⟨as, has, rfl⟩ := map_eq_ok h
            obtain ⟨_, m, hkeyword, hrun⟩ := exists_of_run_bind hhead
            obtain ⟨_, m', hblanks, hsymbol⟩ := exists_of_run_bind hrun
            obtain rfl := exists_of_run_symbol hsymbol
            obtain ⟨k, hk, hk'⟩ := Shifting.keyword (i := 0) (by decide) _ _ _ hkeyword
            obtain ⟨l, hl, hl'⟩ := Shifting.blanks (i := 0) _ _ _ hblanks
            have hr := (enclosed_eq_some_iff.1 henclosed).1
            obtain ⟨b, hb, hbb⟩ := exists_stripLeft r'
            have hlength : r'.length < cs.length :=
              (length_of_enclosedFrom henclosed).trans (defaultHead_consuming _ _ _ hhead)
            have hmade :=
              AttributeText.default (hk'.isSealed.append hl'.isSealed) ⟨r', hr ▸ henclosed⟩
                (sealed_blanks hbb)
              (hrest hlength has)
            rw [← hb] at hmade
            rw [hk, hl, hr]
            simpa only [List.append_assoc, List.cons_append, List.nil_append] using hmade

namespace AttributeText

variable {cs : List Char} {as : List Attribute}

theorem passes (h : AttributeText cs as) : Passes cs := by
  induction h with
  | nil => exact passes_of_sealed .nil
  | plain _ hsealed _ ih => exact (passes_of_sealed hsealed).append ih
  | default hfront hexpression hback _ ih =>
    exact (passes_of_sealed hfront).append
      (hexpression.passes.append ((passes_of_sealed hback).append ih))

theorem level (h : AttributeText cs as) (hfenced : ∀ e, .default e ∈ as → Fenced e) : Level cs := by
  induction h with
  | nil => exact level_of_sealed .nil
  | plain _ hsealed _ ih =>
    exact (level_of_sealed hsealed).append (ih fun e he ↦ hfenced e (List.mem_cons_of_mem _ he))
  | default hfront _ hback _ ih =>
    exact (level_of_sealed hfront).append ((hfenced _ List.mem_cons_self).append
      ((level_of_sealed hback).append (ih fun e he ↦ hfenced e (List.mem_cons_of_mem _ he))))

theorem enclosed_of_mem (h : AttributeText cs as) {e : List Char} (he : .default e ∈ as) :
    Enclosed e := by
  induction h with
  | nil => contradiction
  | plain hplain _ _ ih =>
    rcases List.mem_cons.1 he with he | he
    · exact absurd he.symm (hplain e)
    · exact ih he
  | default _ hexpression _ _ ih =>
    rcases List.mem_cons.1 he with he | he
    · exact Attribute.default.inj he ▸ hexpression
    · exact ih he

end AttributeText

/-- No attribute begins with a parenthesis. -/
theorem stops_of_attributes {cs : List Char} {as : List Attribute} (h : attributes cs = .ok as) :
    Stops (· == '(') cs := by
  cases cs with
  | nil => exact stops_nil _
  | cons c cs =>
    refine stops_cons.2 (beq_eq_false_iff_ne.2 ?_)
    rintro rfl
    have hnotNull : notNull.run ('(' :: cs) = none := by
      rw [notNull, phrase]
      · exact run_bind_of_none (run_bind_of_none (run_keyword_cons_of_ne
          (by decide : "not".toList = 'n' :: "ot".toList) (by decide)))
      · exact List.cons_ne_nil _ _
    have hoptions : options.run ('(' :: cs) = none := by
      rw [options, run_bind_of_none (run_keyword_cons_of_ne
        (by decide : "options".toList = 'o' :: "ptions".toList) (by decide))]
    have hplain : plainAttribute.run ('(' :: cs) = none := by
      rw [plainAttribute, run_orElse_of_none hnotNull, run_map_of_none hoptions]
    have hdefault : defaultHead.run ('(' :: cs) = none := by
      rw [defaultHead, run_bind_of_none (run_keyword_cons_of_ne
        (by decide : "default".toList = 'd' :: "efault".toList) (by decide))]
    rw [attributes_eq_error (List.cons_ne_nil _ _) hplain hdefault] at h
    contradiction

end Dump

/-! ## Trimmed texts -/

namespace Text

theorem stripRight_append {bs : List Char} (hbs : ∀ c ∈ bs, isBlank c = true) (u : List Char) :
    stripRight (u ++ bs) = stripRight u := by
  rw [stripRight, stripRight, List.reverse_append, stripLeft, stripLeft,
    List.dropWhile_append_of_pos fun c hc ↦ hbs c (List.mem_reverse.1 hc)]

theorem strip_stripRight (cs : List Char) : strip (stripRight cs) = strip cs := by
  obtain ⟨bs, hbs, hblank⟩ := stripRight_append_blanks cs
  have hleft : ∃ es, stripLeft cs = stripLeft (stripRight cs) ++ es ∧
      ∀ c ∈ es, isBlank c = true := by
    have hdrop :
        stripLeft (stripRight cs ++ bs) = if (stripLeft (stripRight cs)).isEmpty then stripLeft bs
        else stripLeft (stripRight cs) ++ bs := List.dropWhile_append
    rw [← hbs] at hdrop
    rw [hdrop]
    split
    · rename_i hempty
      exact ⟨stripLeft bs, by rw [List.isEmpty_iff.1 hempty]; rfl, fun c hc ↦
        hblank c ((List.dropWhile_sublist _).subset hc)⟩
    · exact ⟨bs, rfl, hblank⟩
  obtain ⟨es, hes, hblank'⟩ := hleft
  rw [strip, strip, hes, stripRight_append hblank']

/-- A text and what is left of it after trimming begin alike, blanks apart. -/
theorem stops_stripLeft_of_strip {p : Char → Bool} {cs : List Char} (h : Stops p (strip cs)) :
    Stops p (stripLeft cs) := by
  obtain ⟨bs, hbs, hblank⟩ := stripRight_append_blanks (stripLeft cs)
  change stripLeft cs = strip cs ++ bs at hbs
  cases hs : strip cs with
  | nil =>
    have hstops := stops_stripLeft cs
    rw [hbs, hs, List.nil_append] at hstops ⊢
    cases bs with
    | nil => exact stops_nil _
    | cons b bs => exact absurd (hblank b List.mem_cons_self) (by simp [stops_cons.1 hstops])
  | cons c s =>
    rw [hs] at h hbs
    rw [hbs]
    exact stops_cons.2 (stops_cons.1 h)

end Text

namespace Dump

/-! ## Columns -/

/-- The pieces of a text that is read as a column; behind the type other text may follow. -/
theorem exists_of_columnText {cs rest : List Char} {n : String} {t : TypeText}
    (h : columnText.value? cs = some (n, t, rest)) {x : ColumnType × Option ColumnLength × Bool}
    (hread : readType t = .ok x) :
    ∃ b pn g pt, cs = b ++ (pn ++ (g ++ (pt ++ rest))) ∧ (∀ c ∈ b, isBlank c = true) ∧
      (∀ c ∈ g, isBlank c = true) ∧ Piece pn ∧ Piece pt ∧ (Balanced n → Sealed pn) ∧ Sealed pt ∧
      ∀ rest', (Stops isNameChar rest → Stops isNameChar rest') →
        Stops (· == '(') (stripLeft rest') →
        columnText.value? (pn ++ (g ++ (pt ++ rest'))) = some (n, t, rest') := by
  obtain ⟨⟨_, r⟩, hrun, rfl⟩ := Option.map_eq_some_iff.1 h
  obtain ⟨_, m, hblanks, hrun⟩ := exists_of_run_bind hrun
  obtain ⟨n', m₁, hname, hrun⟩ := exists_of_run_bind hrun
  obtain ⟨_, m₂, hgap, hrun⟩ := exists_of_run_bind hrun
  obtain ⟨t', m₃, htype, hrun⟩ := exists_of_run_bind hrun
  obtain ⟨_, m₄, hremainder, hrun⟩ := exists_of_run_bind hrun
  obtain ⟨rfl, rfl⟩ := Prod.mk.inj (Option.some.inj hremainder)
  obtain ⟨he, rfl⟩ := Prod.mk.inj (Option.some.inj hrun)
  obtain ⟨rfl, rfl, rfl⟩ : n' = n ∧ t' = t ∧ m₃ = rest := by simpa using he
  obtain ⟨b, hb, hbb⟩ := exists_stripLeft cs
  rw [show stripLeft cs = m from (Prod.mk.inj (Option.some.inj hblanks)).2] at hb
  obtain ⟨pn, rfl, hpn, hsealed, hname', -⟩ := Identifier.exists_of_run_name hname
  obtain ⟨rfl, d, ds, rfl, hd⟩ := exists_of_run_gap hgap
  obtain ⟨pt, hpt, hpiece, hsealed', htype'⟩ := exists_of_run_typeText htype hread
  obtain ⟨g, hg, hgb⟩ := exists_stripLeft (d :: ds)
  rw [hpt] at hg
  -- The gap between the name and the type is not empty, or the type would begin with a blank.
  obtain ⟨e, g', rfl⟩ : ∃ e g', g = e :: g' := by
    cases g with
    | nil =>
      have hstops := hpiece.front.append hpiece.ne_nil (b := m₃)
      rw [List.nil_append] at hg
      rw [← hg] at hstops
      exact absurd hd (by simp [stops_cons.1 hstops])
    | cons e g' => exact ⟨e, g', rfl⟩
  refine ⟨b, pn, e :: g',
    pt, by rw [hb, hg], hbb, hgb, hpn, hpiece, hsealed, hsealed', fun rest' hr hr' ↦ ?_⟩
  have hblank : isBlank e = true := hgb e List.mem_cons_self
  have hfront := hpiece.front.append hpiece.ne_nil (b := rest')
  have hnext : Stops isNameChar (e :: g' ++ (pt ++ rest')) := by
    refine stops_cons.2 (Bool.eq_false_iff.2 fun hname ↦ ?_)
    rw [isBlank_eq_false_of_isNameChar hname] at hblank
    contradiction
  have hgap' : gap.run (e :: g' ++ (pt ++ rest')) = some ((), pt ++ rest') := by
    change (if isBlank e then some ((), stripLeft (g' ++ (pt ++ rest'))) else none) = _
    rw [if_pos hblank, stripLeft_append (fun c hc ↦ hgb c (List.mem_cons_of_mem e hc)) hfront]
  rw [value?, columnText, run_bind_of_run (run_blanks_of_stops (hpn.front.append hpn.ne_nil)),
    run_bind_of_run (hname' _ hnext), run_bind_of_run hgap', run_bind_of_run (htype' rest' hr hr'),
    run_bind_of_run (run_remainder rest')]
  rfl

theorem Attribute.name_foldl_apply (as : List Attribute) (c : Column) :
    (as.foldl Attribute.apply c).name = c.name := by
  induction as generalizing c with
  | nil => rfl
  | cons a as ih =>
    rw [List.foldl_cons, ih]
    cases a with
    | notNull => rfl
    | commitTimestamp allowed => cases allowed <;> rfl
    | default e => rfl

/-- The default expressions of a column, all that are given. -/
def expressions (cs : List Char) : List (List Char) :=
  match columnText.value? cs with
  | none => []
  | some (_, _, rest) =>
    ((attributes (strip rest)).toOption.getD []).filterMap fun
      | .default e => some e
      | _ => none

theorem exists_of_readColumn {cs : List Char} {c : Column} (h : readColumn cs = .ok c) :
    ∃ t rest x as, columnText.value? cs = some (c.name, t, rest) ∧ readType t = .ok x ∧
      attributes (strip rest) = .ok as ∧
      c = as.foldl Attribute.apply
        { name := c.name, type := x.1, length := x.2.1, isArray := x.2.2 } := by
  rw [readColumn] at h
  split at h
  · contradiction
  · rename_i n t rest hvalue
    obtain ⟨⟨type, length, isArray⟩, hread, h⟩ := bind_eq_ok h
    obtain ⟨as, has, h⟩ := bind_eq_ok h
    obtain rfl := Except.ok.inj h
    rw [Attribute.name_foldl_apply]
    exact ⟨t, rest, _, as, hvalue, hread, has, rfl⟩

/-- The pieces of a column are passed by the scan for the end of a body, and by the scan for commas
if no expression is in its way. -/
private theorem passes_and_level {cs : List Char} {c : Column} (h : readColumn cs = .ok c)
    (hname : Balanced c.name) :
    Passes cs ∧ ((∀ e ∈ expressions cs, Enclosed e → Fenced e) → Level cs) := by
  obtain ⟨t, rest, x, as, hvalue, hread, has, -⟩ := exists_of_readColumn h
  obtain ⟨b, pn, g, pt, hcs, hb, hg, -, -, hpn, hpt, -⟩ := exists_of_columnText hvalue hread
  have hmade := attributeText_of_attributes has
  obtain ⟨u, hu, hublank⟩ := exists_stripLeft rest
  obtain ⟨v, hv, hvblank⟩ := stripRight_append_blanks (stripLeft rest)
  have hrest : rest = u ++ (strip rest ++ v) := hu.trans (congrArg (u ++ ·) hv)
  have hhead : Sealed (b ++ (pn ++ (g ++ (pt ++ u)))) :=
    (sealed_blanks hb).append
      ((hpn hname).append ((sealed_blanks hg).append (hpt.append (sealed_blanks hublank))))
  -- All in front of the attributes, blanks included, has no commas or parentheses that are not
  -- closed in it.
  have hall : cs = b ++ (pn ++ (g ++ (pt ++ u))) ++ (strip rest ++ v) := by
    rw [hcs]
    conv_lhs => rw [hrest]
    simp only [List.append_assoc]
  have hexpressions : ∀ e, .default e ∈ as → e ∈ expressions cs := by
    intro e he
    rw [expressions, hvalue]
    dsimp only
    rw [has]
    exact List.mem_filterMap.2 ⟨_, he, rfl⟩
  rw [hall]
  refine ⟨(passes_of_sealed hhead).append
    (hmade.passes.append (passes_of_sealed (sealed_blanks hvblank))),
    fun hfenced ↦ ?_⟩
  rw [← hall] at hfenced
  exact (level_of_sealed hhead).append ((hmade.level fun e he ↦ hfenced e (hexpressions e he)
    (hmade.enclosed_of_mem he)).append
    (level_of_sealed (sealed_blanks hvblank)))

theorem passes_of_readColumn {cs : List Char} {c : Column} (h : readColumn cs = .ok c)
    (hname : Balanced c.name) : Passes cs :=
  (passes_and_level h hname).1

/-- Only comparison signs can get a column in the way of the scan for commas. -/
theorem level_of_readColumn {cs : List Char} {c : Column} (h : readColumn cs = .ok c)
    (hname : Balanced c.name)
    (hquoted : ∀ e ∈ expressions cs, Quoted '<' e ∧ Quoted '>' e) : Level cs :=
  (passes_and_level h hname).2 fun e he henclosed ↦
    henclosed.fenced (hquoted e he).1 (hquoted e he).2

/-- A column is read again after trimming. -/
theorem readColumn_strip {cs : List Char} {c : Column} (h : readColumn cs = .ok c) :
    readColumn (strip cs) = .ok c ∧ strip cs ≠ [] := by
  obtain ⟨t, rest, x, as, hvalue, hread, has, hc⟩ := exists_of_readColumn h
  obtain ⟨b, pn, g, pt, hcs, hb, -, hpn, hpt, -, -, hagain⟩ := exists_of_columnText hvalue hread
  obtain ⟨v, hv, hvblank⟩ := stripRight_append_blanks rest
  have hstrip : strip cs = pn ++ (g ++ (pt ++ stripRight rest)) := by
    have hassoc : cs = b ++ (pn ++ (g ++ (pt ++ stripRight rest)) ++ v) := by
      rw [hcs]
      conv_lhs => rw [hv]
      simp only [List.append_assoc]
    rw [hassoc]
    refine strip_between hb hvblank ?_ (hpn.front.append hpn.ne_nil) ?_
    · exact List.append_ne_nil_of_left_ne_nil hpn.ne_nil _
    -- At the end stands the last attribute, or the type if there is none.
    · have hback : Stops isBlank (pt ++ stripRight rest).reverse := by
        by_cases hnil : stripRight rest = []
        · rw [hnil, List.append_nil]
          exact hpt.back
        · refine Stops.reverse_append ?_ hnil
          rw [stripRight, List.reverse_reverse]
          exact stops_stripLeft _
      have hne : pt ++ stripRight rest ≠ [] := List.append_ne_nil_of_left_ne_nil hpt.ne_nil _
      exact (hback.reverse_append hne).reverse_append (List.append_ne_nil_of_right_ne_nil _ hne)
  have hvalue' : columnText.value? (strip cs) = some (c.name, t, stripRight rest) := by
    rw [hstrip]
    refine hagain _ (fun hstops ↦ ?_) (stops_stripLeft_of_strip ?_)
    · rw [hv] at hstops
      cases hs : stripRight rest with
      | nil => exact stops_nil _
      | cons d ds =>
        rw [hs] at hstops
        exact stops_cons.2 (stops_cons.1 hstops)
    · rw [strip_stripRight]
      exact stops_of_attributes has
  refine ⟨?_, hstrip ▸ List.append_ne_nil_of_left_ne_nil hpn.ne_nil _⟩
  rw [readColumn, hvalue']
  dsimp only
  rw [hread, strip_stripRight, has]
  exact congrArg Except.ok hc.symm

end Dump

end SchemaLedger
