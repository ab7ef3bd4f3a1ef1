import Mathlib
import SchemaLedger.Identifier
import SchemaLedger.Proofs.Text.Splitting

/-!
# Written names are read back

The written form of a name is a bare word or the name between backticks. `unquote`, which takes a
whole text for a name, gives every name back. The scanner that reads a name off a text gives it back
as long as the name is `Legible`: it has a character, and no backtick.
-/

namespace SchemaLedger.Identifier

open Text Text.Scanner

/-- Can be read back when written between backticks. -/
structure Legible (n : String) : Prop where
  ne_empty : n ≠ ""
  noBacktick : '\x60' ∉ n.toList

theorem Legible.toList_ne_nil {n : String} (h : Legible n) : n.toList ≠ [] :=
  fun e ↦ h.ne_empty (String.toList_eq_nil_iff.1 e)

/-! ## The two written forms -/

theorem escape_eq_self {cs : List Char} (h : '\x60' ∉ cs) : escape cs = cs := by
  induction cs with
  | nil => rfl
  | cons c cs ih =>
    obtain ⟨hc, hcs⟩ : '\x60' ≠ c ∧ '\x60' ∉ cs := by simpa using h
    rw [escape, if_neg (Ne.symm hc), ih hcs]

theorem unescape_escape (cs : List Char) : unescape (escape cs) = cs := by
  induction cs with
  | nil => rfl
  | cons c cs ih =>
    by_cases hc : c = '\x60'
    · rw [escape, if_pos hc, hc, unescape, ih]
    · -- What is written for the rest never begins with a backtick, so a backslash stays one.
      have hhead (ds : List Char) : escape cs ≠ '\x60' :: ds := by
        cases cs with
        | nil => exact (List.cons_ne_nil _ ds).symm
        | cons d cs =>
          intro e
          rw [escape] at e
          split at e
          · exact absurd (List.cons.inj e).1 (by decide)
          · rename_i hd
            exact hd (List.cons.inj e).1
      rw [escape, if_neg hc, unescape, ih]
      exact fun ds _ e ↦ hhead ds e

theorem toList_quote_of_not_isPlain {n : String} (hp : isPlain n = false) :
    (quote n).toList = '\x60' :: (escape n.toList ++ ['\x60']) := by
  rw [quote, if_neg (by simp [hp]), String.toList_ofList]

theorem quote_of_isPlain {n : String} (hp : isPlain n = true) : quote n = n := by
  rw [quote, if_pos hp]

/-- A name that is written bare is a letter and characters of a word. -/
theorem exists_of_isPlain {n : String} (hp : isPlain n = true) :
    ∃ c cs, n.toList = c :: cs ∧ c.isAlpha = true ∧
      ∀ d ∈ cs, d.isAlphanum = true ∨ d = '_' := by
  rw [isPlain, Bool.and_eq_true] at hp
  cases hn : n.toList with
  | nil =>
    rw [hn] at hp
    exact absurd hp.1 (by simp [isWord])
  | cons c cs =>
    rw [hn, isWord, Bool.and_eq_true, List.all_eq_true] at hp
    exact ⟨c, cs, rfl, hp.1.1, fun d hd ↦ by simpa using hp.1.2 d hd⟩

theorem mem_of_isPlain {n : String} (hp : isPlain n = true) {d : Char} (hd : d ∈ n.toList) :
    d.isAlphanum = true ∨ d = '_' := by
  obtain ⟨c, cs, hn, hc, hcs⟩ := exists_of_isPlain hp
  rw [hn] at hd
  rcases List.mem_cons.1 hd with rfl | hd
  · exact Or.inl (by rw [Char.isAlphanum, hc, Bool.true_or])
  · exact hcs d hd

theorem isNameChar_of_isPlain {n : String} (hp : isPlain n = true) {d : Char}
    (hd : d ∈ n.toList) : isNameChar d = true := by
  rcases mem_of_isPlain hp hd with h | rfl
  · rw [Char.isAlphanum, Bool.or_eq_true] at h
    rcases h with h | h <;> simp [isNameChar, isNameStart, h]
  · decide

theorem ne_of_isPlain {n : String} (hp : isPlain n = true) {d : Char}
    (hd : d.isAlphanum = false) (hd' : d ≠ '_') : d ∉ n.toList := by
  intro h
  rcases mem_of_isPlain hp h with h | h
  · exact absurd h (by simp [hd])
  · exact hd' h

theorem legible_of_isPlain {n : String} (hp : isPlain n = true) : Legible n := by
  refine ⟨?_, ne_of_isPlain hp (by decide) (by decide)⟩
  rintro rfl
  exact absurd hp (by decide)

/-! ## Ends of a written name -/

theorem toList_quote_ne_nil (n : String) : (quote n).toList ≠ [] := by
  cases hp : isPlain n with
  | false => rw [toList_quote_of_not_isPlain hp]; exact List.cons_ne_nil _ _
  | true => rw [quote_of_isPlain hp]; exact (legible_of_isPlain hp).toList_ne_nil

theorem stops_isBlank_of_isPlain {n : String} (hp : isPlain n = true) {cs : List Char}
    (h : ∀ c ∈ cs, c ∈ n.toList) : Stops isBlank cs := by
  refine Stops.of_forall fun c hc ↦ ?_
  rcases mem_of_isPlain hp (h c hc) with h | rfl
  · exact isBlank_eq_false_of_isAlphanum h
  · decide

theorem stops_quote (n : String) : Stops isBlank (quote n).toList := by
  cases hp : isPlain n with
  | false => rw [toList_quote_of_not_isPlain hp]; exact stops_cons.2 (by decide)
  | true => rw [quote_of_isPlain hp]; exact stops_isBlank_of_isPlain hp fun _ h ↦ h

theorem stops_reverse_quote (n : String) : Stops isBlank (quote n).toList.reverse := by
  cases hp : isPlain n with
  | false =>
    rw [toList_quote_of_not_isPlain hp, List.reverse_cons, List.reverse_append]
    exact stops_cons.2 (by decide)
  | true =>
    rw [quote_of_isPlain hp]; exact stops_isBlank_of_isPlain hp fun _ h ↦ List.mem_reverse.1 h

theorem stops_quote_append (n : String) (cs : List Char) : Stops isBlank ((quote n).toList ++ cs) :=
  (stops_quote n).append (toList_quote_ne_nil n)

/-! ## Characters of a written name -/

section Characters

variable {d : Char}

theorem count_escape (hd : d ≠ '\\') (cs : List Char) : (escape cs).count d = cs.count d := by
  induction cs with
  | nil => rfl
  | cons c cs ih =>
    rw [escape]
    split
    · rw [List.count_cons_of_ne hd.symm, List.count_cons, List.count_cons, ih]
    · rw [List.count_cons, List.count_cons, ih]

theorem count_quote (hd : d ≠ '\\') (hd' : d ≠ '\x60') (n : String) :
    (quote n).toList.count d = n.toList.count d := by
  cases hp : isPlain n with
  | false =>
    have hlast : [('\x60' : Char)].count d = 0 := List.count_eq_zero.2 (by simpa using hd')
    rw [toList_quote_of_not_isPlain hp, List.count_cons_of_ne hd'.symm, List.count_append, hlast,
      count_escape hd, Nat.add_zero]
  | true => rw [quote_of_isPlain hp]

theorem notMem_quote {n : String} (h : d ∉ n.toList) (hd : d ≠ '\\') (hd' : d ≠ '\x60') :
    d ∉ (quote n).toList := by
  rw [← List.count_eq_zero, count_quote hd hd', List.count_eq_zero]
  exact h

end Characters

/-! ## Reading a name back -/

/-- A bare word is no text between backticks. -/
theorem run_quotedName_eq_none {c : Char} {cs : List Char} (h : c ≠ '\x60') :
    quotedName.run (c :: cs) = none := by
  rw [quotedName, run_bind_of_none (run_symbol_of_ne h)]

theorem run_quotedName {cs : List Char} (hne : cs ≠ []) (h : '\x60' ∉ cs) (r : List Char) :
    quotedName.run ('\x60' :: (cs ++ '\x60' :: r)) = some (cs, r) := by
  rw [quotedName, run_bind_of_run (run_symbol _ _), run_bind_of_run (run_upTo h r), if_neg]
  · rfl
  · simpa using hne

theorem exists_of_run_quotedName {cs u r : List Char} (h : quotedName.run cs = some (u, r)) :
    u ≠ [] ∧ '\x60' ∉ u ∧ cs = '\x60' :: (u ++ '\x60' :: r) := by
  obtain ⟨_, m, hopen, hrest⟩ := exists_of_run_bind h
  obtain ⟨v, t, hclose, hlast⟩ := exists_of_run_bind hrest
  obtain ⟨hv, rfl⟩ := exists_of_run_upTo hclose
  obtain rfl := exists_of_run_symbol hopen
  split at hlast
  · contradiction
  · rename_i hne
    obtain ⟨rfl, rfl⟩ := Prod.mk.inj (Option.some.inj hlast)
    exact ⟨fun e ↦ hne (List.isEmpty_iff.2 e), hv, rfl⟩

theorem exists_of_run_bareName {cs u r : List Char} (h : bareName.run cs = some (u, r)) :
    cs = u ++ r ∧ (∃ c v, u = c :: v ∧ isNameStart c = true) ∧ ∀ c ∈ u, isNameChar c = true := by
  cases cs with
  | nil => contradiction
  | cons c cs =>
    change (if isNameStart c then (chars isNameChar).run (c :: cs) else none) = _ at h
    split at h
    · rename_i hc
      obtain ⟨he, hne, hu, -⟩ := exists_of_run_chars h
      obtain ⟨d, v, rfl⟩ := List.exists_cons_of_ne_nil hne
      obtain rfl := (List.cons.inj he).1
      exact ⟨he, ⟨_, v, rfl, hc⟩, hu⟩
    · contradiction

/-- A name stands between backticks, or it is a word. -/
theorem of_run_name {cs r : List Char} {n : String} (h : name.run cs = some (n, r)) :
    quotedName.run cs = some (n.toList, r) ∨
      quotedName.run cs = none ∧ bareName.run cs = some (n.toList, r) := by
  rw [name, StateT.run_map] at h
  obtain ⟨⟨u, m⟩, hrun, he⟩ := Option.map_eq_some_iff.1 h
  obtain ⟨rfl, rfl⟩ := Prod.mk.inj he
  rw [String.toList_ofList]
  cases hquoted : quotedName.run cs with
  | some x => exact Or.inl ((run_orElse_of_run hquoted).symm.trans hrun)
  | none => exact Or.inr ⟨rfl, (run_orElse_of_none hquoted).symm.trans hrun⟩

/-- A bare word is read as a name, whatever it means elsewhere. -/
theorem run_name_word {c : Char} {cs r : List Char} (hc : isNameStart c = true)
    (hcs : ∀ d ∈ c :: cs, isNameChar d = true) (hr : Stops isNameChar r) :
    name.run (c :: (cs ++ r)) = some (String.ofList (c :: cs), r) := by
  have hb : c ≠ '\x60' := by
    rintro rfl
    contradiction
  have hread : (quotedName <|> bareName).run (c :: (cs ++ r)) = some (c :: cs, r) := by
    rw [run_orElse_of_none (run_quotedName_eq_none hb)]
    change (if isNameStart c then (chars isNameChar).run (c :: (cs ++ r)) else none) = _
    rw [if_pos hc]
    exact run_chars (List.cons_ne_nil c cs) hcs hr
  rw [name, run_map_of_run hread]

/-- A name is read off its written form where the word does not go on. -/
theorem run_name_quote {n : String} (h : Legible n) {r : List Char} (hr : Stops isNameChar r) :
    name.run ((quote n).toList ++ r) = some (n, r) := by
  cases hp : isPlain n with
  | false =>
    have hread : (quotedName <|> bareName).run ((quote n).toList ++ r) = some (n.toList, r) := by
      rw [toList_quote_of_not_isPlain hp, escape_eq_self h.noBacktick, List.cons_append,
        List.append_assoc, List.singleton_append]
      exact run_orElse_of_run (run_quotedName h.toList_ne_nil h.noBacktick r)
    rw [name, run_map_of_run hread, String.ofList_toList]
  | true =>
    obtain ⟨c, cs, hn, hc, -⟩ := exists_of_isPlain hp
    have hs : isNameStart c = true := by simp [isNameStart, hc]
    rw [quote_of_isPlain hp, hn, List.cons_append, run_name_word hs
      (fun d hd ↦ isNameChar_of_isPlain hp (hn ▸ hd)) hr, ← hn, String.ofList_toList]

/-- Whatever is read as a name can be read back. -/
theorem yields_name : Yields Legible name := by
  intro cs n r h
  have hlegible {u : List Char} (hu : n.toList = u) (hne : u ≠ []) (hb : '\x60' ∉ u) : Legible n :=
    ⟨fun e ↦ hne (hu ▸ e ▸ String.toList_empty), hu ▸ hb⟩
  rcases of_run_name h with hquoted | ⟨-, hbare⟩
  · obtain ⟨hne, hb, -⟩ := exists_of_run_quotedName hquoted
    exact hlegible rfl hne hb
  · obtain ⟨-, ⟨c, v, hu, -⟩, hword⟩ := exists_of_run_bareName hbare
    refine hlegible hu (List.cons_ne_nil c v) fun hb ↦ ?_
    exact absurd (hword _ (hu ▸ hb)) (by decide)

theorem toList_quote_empty : (quote "").toList = ['\x60', '\x60'] := by decide

/-- There is no name between two backticks. -/
theorem run_name_quote_empty (r : List Char) : name.run ((quote "").toList ++ r) = none := by
  have hquoted : quotedName.run ('\x60' :: '\x60' :: r) = none := by
    have hnil : (upTo '\x60').run ('\x60' :: r) = some ([], r) :=
      run_upTo (List.not_mem_nil : '\x60' ∉ []) r
    rw [quotedName, run_bind_of_run (run_symbol _ _), run_bind_of_run hnil]
    rfl
  rw [toList_quote_empty, name, List.cons_append, List.singleton_append]
  exact run_map_of_none ((run_orElse_of_none hquoted).trans rfl)

/-- Every name but the empty one is read. -/
theorem run_bind_name_quote {n : String} (h : '\x60' ∉ n.toList) {r : List Char}
    (hr : Stops isNameChar r) {α : Type} (f : String → Scanner α) :
    (name >>= f).run ((quote n).toList ++ r) = if n = "" then none else (f n).run r := by
  by_cases hn : n = ""
  · rw [if_pos hn, hn, run_bind_of_none (run_name_quote_empty r)]
  · rw [if_neg hn, run_bind_of_run (run_name_quote ⟨hn, h⟩ hr)]

/-- The written form of a name, as a whole text with blanks before it, stands for the name, whatever
characters the name has. -/
theorem unquote_quote (n : String) {bs : List Char} (hbs : ∀ c ∈ bs, isBlank c = true) :
    unquote (String.ofList (bs ++ (quote n).toList)) = n := by
  have hs : strip (bs ++ (quote n).toList) = (quote n).toList :=
    strip_append hbs (stops_quote n) (stops_reverse_quote n)
  cases hp : isPlain n with
  | false =>
    have hu : unwrap? (quote n).toList = some (escape n.toList) := by
      rw [toList_quote_of_not_isPlain hp, unwrap?, if_pos (by simp), List.dropLast_concat]
    rw [unquote, String.toList_ofList, hs, hu]
    dsimp only
    rw [unescape_escape, String.ofList_toList]
  | true =>
    have hu : unwrap? (quote n).toList = none := by
      obtain ⟨c, cs, hn, hc, -⟩ := exists_of_isPlain hp
      rw [quote_of_isPlain hp, hn, unwrap?, if_neg]
      rintro ⟨rfl, -⟩
      exact absurd hc (by decide)
    rw [unquote, String.toList_ofList, hs, hu]
    dsimp only
    rw [trim, String.toList_ofList, hs, quote_of_isPlain hp, String.ofList_toList]

/-- Reading undoes writing, so no two names are written alike; and only a plain name is written as
it is. -/
theorem unquote_leftInverse :
    Function.LeftInverse unquote quote ∧ Function.Injective quote ∧ ∀ n, quote n = n ↔
    isPlain n = true := by
  have hinverse : Function.LeftInverse unquote quote := fun n ↦ by
    have hnil : ∀ c ∈ ([] : List Char), isBlank c = true := fun _ hc ↦ absurd hc List.not_mem_nil
    have h := unquote_quote n hnil
    rwa [List.nil_append, String.ofList_toList] at h
  refine ⟨hinverse, hinverse.injective, fun n ↦ ⟨fun h ↦ ?_, quote_of_isPlain⟩⟩
  -- Between backticks the name has two more of them, whatever is escaped in it.
  by_contra hp
  have hcount : (quote n).toList.count '\x60' = n.toList.count '\x60' := by rw [h]
  rw [toList_quote_of_not_isPlain (Bool.eq_false_iff.2 hp), List.count_cons_self, List.count_append,
    count_escape (by decide)] at hcount
  omega

/-- A keyword and the blanks behind it are read off a written name only if it is a bare one that
is spelled like the keyword. -/
theorem exists_of_run_keyword_gap_quote {w : String} (hw : w.toList.all isNameChar = true)
    {n : String} {r : List Char} (hr : Stops isNameChar r) {α : Type} {f : Unit → Scanner α}
    {p : α × List Char}
    (h : (keyword w >>= fun _ ↦ gap >>= f).run ((quote n).toList ++ r) = some p) :
    isPlain n = true ∧ n.toList.map fold = w.toList ∧
      ∃ m, gap.run r = some ((), m) ∧ (f ()).run m = some p := by
  cases hp : isPlain n with
  | false =>
    rw [toList_quote_of_not_isPlain hp, ← List.nil_append ('\x60' :: _ ++ r)] at h
    obtain ⟨-, m, hgap, -⟩ := exists_of_run_keyword_gap hw (by simp) (stops_cons.2 (by decide)) h
    rw [run_gap_eq_none (stops_cons.2 (by decide))] at hgap
    contradiction
  | true =>
    rw [quote_of_isPlain hp] at h
    obtain ⟨hfold, hrest⟩ :=
      exists_of_run_keyword_gap hw (fun c hc ↦ isNameChar_of_isPlain hp hc) hr h
    exact ⟨rfl, hfold, hrest⟩

private theorem eq_or_of_fold {c : Char} {d : Char} (hs : d ≠ 's') (hk : d ≠ 'k')
    (h : fold c = d) : c = d ∨ c.toNat + 32 = d.toNat := by
  rw [fold] at h
  split at h
  · exact absurd h.symm hs
  · split at h
    · exact absurd h.symm hk
    · rw [Char.toLower] at h
      split at h
      · rename_i hc
        right
        have h1 := UInt32.le_iff_toNat_le.1 hc.1
        have h2 := UInt32.le_iff_toNat_le.1 hc.2
        rw [← h]
        simp only [Char.toNat, Char.reduceVal, UInt32.reduceToNat, UInt32.reduceSub] at h1 h2 ⊢
        rw [UInt32.toNat_add]
        simp only [UInt32.reduceToNat]
        omega
      · exact Or.inl h

/-- `IF` is a reserved word in every spelling. -/
theorem not_isPlain_of_fold {n : String} (h : n.toList.map fold = "if".toList) :
    isPlain n = false := by
  obtain ⟨c, cs, hn, hc, hcs⟩ := List.map_eq_cons_iff.1 h
  obtain ⟨d, ds, rfl, hd, hds⟩ := List.map_eq_cons_iff.1 hcs
  obtain rfl := List.map_eq_nil_iff.1 hds
  have hword : n = String.ofList [c, d] := by rw [← hn, String.ofList_toList]
  have hc' : c = 'i' ∨ c = 'I' :=
    (eq_or_of_fold (by decide) (by decide) hc).imp_right fun e ↦
      Char.toNat_inj.1 (Nat.add_right_cancel (m := 32) e)
  have hd' : d = 'f' ∨ d = 'F' :=
    (eq_or_of_fold (by decide) (by decide) hd).imp_right fun e ↦
      Char.toNat_inj.1 (Nat.add_right_cancel (m := 32) e)
  rw [hword]
  rcases hc' with rfl | rfl <;> rcases hd' with rfl | rfl <;> decide +kernel

/-! ## Written names in lists -/

/-- Legible, and between backticks the whole of a literal: no backslash takes the backtick behind
the name away. -/
structure Closed (n : String) : Prop extends Legible n where
  after_eq : (Quotation.inside '\x60').after n.toList = .inside '\x60'

theorem Legible.closed {n : String} (h : Legible n) (hb : '\\' ∉ n.toList) : Closed n :=
  ⟨h, Quotation.after_inside h.noBacktick hb⟩

theorem isInert_of_isPlain {n : String} (hp : isPlain n = true) {c : Char} (hc : c ∈ n.toList) :
    isInert c = true := by
  have hne : ∀ d : Char, d.isAlphanum = false → d ≠ '_' → c ≠ d :=
    fun d hd hd' e ↦ ne_of_isPlain hp hd hd' (e ▸ hc)
  simp only [isInert, isQuote, Bool.and_eq_true, bne_iff_ne, Bool.not_eq_true',
    Bool.or_eq_false_iff, decide_eq_false_iff_not]
  refine ⟨⟨⟨⟨⟨⟨⟨?_, ?_⟩, ?_⟩, ?_⟩, ?_⟩, ?_⟩, ?_⟩, ?_⟩ <;> exact hne _ (by decide) (by decide)

theorem sealed_quote {n : String} (h : Closed n) : Sealed (quote n).toList := by
  cases hp : isPlain n with
  | false =>
    rw [toList_quote_of_not_isPlain hp, escape_eq_self h.noBacktick]
    exact Sealed.literal (by decide) h.noBacktick h.after_eq
  | true =>
    rw [quote_of_isPlain hp]
    exact Sealed.of_forall fun c hc ↦ isInert_of_isPlain hp hc

/-! ## The empty name

Two backticks are no name, but a literal with nothing in it. -/

theorem sealed_quote_empty : Sealed (quote "").toList := by
  rw [toList_quote_empty]
  exact Sealed.literal (by decide) (List.not_mem_nil : '\x60' ∉ []) rfl

/-- Between backticks the whole of a literal, if nothing at all is a name too. -/
structure Balanced (n : String) : Prop where
  noBacktick : '\x60' ∉ n.toList
  after_eq : (Quotation.inside '\x60').after n.toList = .inside '\x60'

instance (n : String) : Decidable (Balanced n) :=
  decidable_of_iff ('\x60' ∉ n.toList ∧ (Quotation.inside '\x60').after n.toList = .inside '\x60')
    ⟨fun h ↦ ⟨h.1, h.2⟩, fun h ↦ ⟨h.noBacktick, h.after_eq⟩⟩

theorem balanced_empty : Balanced "" := by decide

theorem Closed.balanced {n : String} (h : Closed n) : Balanced n := ⟨h.noBacktick, h.after_eq⟩

theorem Balanced.closed {n : String} (h : Balanced n) (hne : n ≠ "") : Closed n :=
  ⟨⟨hne, h.noBacktick⟩, h.after_eq⟩

theorem Balanced.sealed_quote {n : String} (h : Balanced n) : Sealed (quote n).toList := by
  by_cases hne : n = ""
  · rw [hne]
    exact sealed_quote_empty
  · exact Identifier.sealed_quote (h.closed hne)

/-- Has no character that means something between backticks. -/
structure Tame (n : String) : Prop where
  noBacktick : '\x60' ∉ n.toList
  noBackslash : '\\' ∉ n.toList

instance (n : String) : Decidable (Tame n) :=
  decidable_of_iff ('\x60' ∉ n.toList ∧ '\\' ∉ n.toList) ⟨fun h ↦ ⟨h.1, h.2⟩, fun h ↦ ⟨h.1, h.2⟩⟩

theorem Tame.balanced {n : String} (h : Tame n) : Balanced n :=
  ⟨h.noBacktick, Quotation.after_inside h.noBacktick h.noBackslash⟩

end SchemaLedger.Identifier
