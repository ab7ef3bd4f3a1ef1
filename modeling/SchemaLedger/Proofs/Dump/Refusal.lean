import Mathlib
import SchemaLedger.Proofs.Dump
import SchemaLedger.Proofs.Text.Backticks

/-!
# What is read can be read back

Statements are written for any names, and some of them are refused when they are read: those with an
empty name, and those in which a name of a list has a closing parenthesis, where the list is then
taken to end. A statement with balanced names that is accepted is therefore one of which the lemmas
on reading speak. Only among the columns that an index stores are empty names passed over.
-/

namespace SchemaLedger

open Text Text.Scanner Identifier

/-! ## Scanners that read to the end -/

namespace Text.Scanner

variable {α β : Type}

/-- Leaves nothing. -/
def Ends (s : Scanner α) : Prop := ∀ cs a r, s.run cs = some (a, r) → r = []

theorem Ends.bind {s : Scanner α} {f : α → Scanner β} (hf : ∀ a, Ends (f a)) :
    Ends (s >>= f) := by
  intro cs b r e
  obtain ⟨a, m, -, h⟩ := exists_of_run_bind e
  exact hf a m b r h

theorem Ends.finished (a : α) : Ends (do finished; return a) := by
  intro cs b r e
  cases cs with
  | nil => exact (Prod.mk.inj (Option.some.inj e)).2.symm
  | cons c cs => contradiction

theorem Ends.bind_pure {s : Scanner α} (h : Ends s) (f : α → β) :
    Ends (do let a ← s; return f a) := by
  intro cs b r e
  obtain ⟨a, m, hs, hrest⟩ := exists_of_run_bind e
  obtain ⟨-, rfl⟩ := Prod.mk.inj (Option.some.inj hrest)
  exact h cs a _ hs

theorem Ends.orElse {s t : Scanner α} (hs : Ends s) (ht : Ends t) : Ends (s <|> t) := by
  intro cs a r e
  cases h : s.run cs with
  | none => exact ht cs a r ((run_orElse_of_none h).symm.trans e)
  | some x => exact hs cs a r (h.trans ((run_orElse_of_run h).symm.trans e))

/-- Names that use up a text use up its backticks. -/
theorem Ends.exists_backticks {n : Nat} {s : Scanner α} (h : Ends s) (hs : Pairs n s)
    {cs r : List Char} {a : α} (e : s.run cs = some (a, r)) :
    ∃ k ≤ n, backticks cs = 2 * k := by
  obtain ⟨k, hk, hcs⟩ := hs cs a r e
  rw [h cs a r e] at hcs
  exact ⟨k, hk, hcs.trans (Nat.zero_add _)⟩

end Text.Scanner

/-! ## Lists of names -/

namespace Identifier

theorem mem_quote {n : String} {c : Char} (h : c ∈ n.toList) : c ∈ (quote n).toList := by
  have hescape : ∀ cs : List Char, c ∈ cs → c ∈ escape cs := by
    intro cs hcs
    induction cs with
    | nil => contradiction
    | cons d cs ih =>
      rw [escape]
      rcases List.mem_cons.1 hcs with rfl | hcs
      · split <;> simp
      · split <;> simp [ih hcs]
  cases hp : isPlain n with
  | false =>
    rw [toList_quote_of_not_isPlain hp]
    exact List.mem_cons_of_mem _ (List.mem_append_left _ (hescape _ h))
  | true => rwa [quote_of_isPlain hp]

/-- A written name without backticks of its own is guarded by its quotes. -/
theorem guarded_quote {n : String} (h : '\x60' ∉ n.toList) :
    Guarded (quote n).toList ∧ backticks (quote n).toList % 2 = 0 := by
  cases hp : isPlain n with
  | false =>
    rw [toList_quote_of_not_isPlain hp, escape_eq_self h]
    constructor
    · intro u v e
      cases u with
      | nil =>
        have := (List.cons.inj e).1
        contradiction
      | cons c u =>
        obtain ⟨rfl, hrest⟩ := List.cons.inj e
        have hu : '\x60' ∉ u := by
          -- What is cut off ends inside the quotes, or with the closing one.
          rcases List.append_eq_append_iff.1 hrest with ⟨w, rfl, hw⟩ | ⟨w, hw, -⟩
          · cases w with
            | nil =>
              have := (List.cons.inj hw).1
              contradiction
            | cons d w =>
              have := (List.cons.inj hw).2
              simp at this
          · exact fun hmem ↦ h (hw ▸ List.mem_append_left w hmem)
        rw [backticks_cons_self, backticks_eq_zero hu]
    · rw [backticks_cons_self, backticks_append, backticks_eq_zero h]
      rfl
  | true =>
    rw [quote_of_isPlain hp]
    exact ⟨.of_notMem (ne_of_isPlain hp (by decide) (by decide)), by rw [backticks_eq_zero h]⟩

end Identifier

theorem guarded_keySql {parts : List KeyPart} (h : ∀ p ∈ parts, '\x60' ∉ p.name.toList) :
    Guarded (keySql parts).toList ∧ backticks (keySql parts).toList % 2 = 0 := by
  rw [toList_keySql]
  refine Guarded.intercalate (by decide) (by decide) fun x hx ↦ ?_
  obtain ⟨p, hp, rfl⟩ := List.mem_map.1 hx
  obtain ⟨hguarded, heven⟩ := guarded_quote (h p hp)
  rw [KeyPart.toList_sql]
  cases p.order with
  | asc =>
    rw [List.append_nil]
    exact ⟨hguarded, heven⟩
  | desc =>
    have hdesc : backticks " DESC".toList = 0 := by decide
    refine ⟨hguarded.append heven (.of_notMem (by decide)), ?_⟩
    rw [backticks_append, hdesc, Nat.add_zero, heven]

theorem noParenthesis_of_keySql {parts : List KeyPart} (h : ')' ∉ (keySql parts).toList) :
    ∀ p ∈ parts, ')' ∉ p.name.toList := by
  intro p hp hmem
  refine h ?_
  rw [toList_keySql]
  have hsql : ')' ∈ p.sql.toList := by
    rw [KeyPart.toList_sql]
    exact List.mem_append_left _ (mem_quote hmem)
  exact mem_intercalate (List.mem_map_of_mem hp) hsql


namespace Dump

/-! ## Key parts -/

theorem spares_direction {d : Char} (hd : isNameChar d = false) : Spares d direction := by
  refine (Spares.chars hd).bind fun word ↦ ?_
  split
  · exact .pure _
  · split
    · exact .pure _
    · exact .failure

theorem pairs_direction : Pairs 0 direction := .of_spares (spares_direction (by decide))

theorem pairs_keyPart : Pairs 1 keyPart :=
  Pairs.blanks.after fun _ ↦ Pairs.name.before fun _ ↦
    ((Pairs.gap.after fun _ ↦ pairs_direction).attempt).after fun _ ↦ Pairs.blanks.after fun _ ↦
      Pairs.finished.after fun _ ↦ Pairs.pure _

theorem ends_keyPart : Ends keyPart :=
  .bind fun _ ↦ .bind fun _ ↦ .bind fun _ ↦ .bind fun _ ↦ .finished _

/-- A list of names that is cut inside a name is not read. -/
theorem even_of_readKeyParts {cs : List Char} {parts : List KeyPart}
    (h : readKeyParts cs = .ok parts) : backticks cs % 2 = 0 := by
  have heven : ∀ x ∈ (splitCommas cs).map backticks, 2 ∣ x := by
    intro x hx
    obtain ⟨part, hpart, rfl⟩ := List.mem_map.1 hx
    obtain ⟨p, -, hp⟩ := exists_of_mapM h hpart
    obtain ⟨r, hrun⟩ := exists_of_value? (keyPart_of_readKeyPart hp)
    obtain ⟨k, -, hk⟩ := ends_keyPart.exists_backticks pairs_keyPart hrun
    exact ⟨k, hk⟩
  rw [← sum_backticks_splitCommas]
  exact Nat.mod_eq_zero_of_dvd (List.dvd_sum heven)

theorem value?_keyPart_empty {p : KeyPart} (h : p.name = "") {bs : List Char}
    (hbs : ∀ c ∈ bs, isBlank c = true) : keyPart.value? (bs ++ p.sql.toList) = none := by
  have hblanks : blanks.run (bs ++ p.sql.toList) = some ((), p.sql.toList) := by
    rw [run_blanks, stripLeft_append hbs p.stops_sql]
  rw [value?, keyPart, run_bind_of_run hblanks, KeyPart.toList_sql, h,
    run_bind_of_none (run_name_quote_empty _)]
  rfl

theorem ne_empty_of_readKeyParts {parts ps : List KeyPart}
    (hbalanced : ∀ p ∈ parts, Balanced p.name) (h : readKeyParts (keySql parts).toList = .ok ps) :
    parts ≠ [] ∧ ∀ p ∈ parts, p.name ≠ "" := by
  cases parts with
  | nil =>
    have := readKeyParts_nil.symm.trans h
    contradiction
  | cons p parts =>
    refine ⟨List.cons_ne_nil p parts, fun q hq hempty ↦ ?_⟩
    have hapart : Apart (p.sql.toList :: parts.map (·.sql.toList)) := apart_sql hbalanced
    rw [readKeyParts, toList_keySql, List.map_cons, hapart.splitCommas_eq, List.map_map] at h
    rcases List.mem_cons.1 hq with rfl | hq
    · obtain ⟨r, -, hr⟩ := exists_of_mapM h List.mem_cons_self
      rw [← List.nil_append q.sql.toList, value?_keyPart_empty hempty (by simp)] at hr
      contradiction
    · obtain ⟨r, -, hr⟩ := exists_of_mapM h
        (List.mem_cons_of_mem _ (List.mem_map_of_mem (f := _ ∘ _) hq))
      dsimp only [Function.comp_apply] at hr
      rw [value?_keyPart_empty hempty (List.all_eq_true.1 (by decide))] at hr
      contradiction

/-! ## The key clause -/

/-- The list of a key is read as a whole. -/
private theorem columns_eq_of_upTo {key : List KeyPart} (hbalanced : ∀ p ∈ key, Balanced p.name)
    {r x m : List Char}
    (hrun : parenthesised.run (" (".toList ++ ((keySql key).toList ++ ')' :: r)) = some (x, m))
    (heven : backticks x % 2 = 0) :
      x = (keySql key).toList ∧ m = r ∧ ∀ p ∈ key, ')' ∉ p.name.toList := by
  have htext : " (".toList ++ ((keySql key).toList ++ ')' :: r)
      = ' ' :: '(' :: ((keySql key).toList ++ ')' :: r) := by
    simp
  rw [htext, parenthesised,
    run_bind_of_run (run_blanks_cons (by decide) (stops_cons.2 (by decide))),
    run_bind_of_run (run_symbol _ _)] at hrun
  have hguarded := (guarded_keySql fun p hp ↦ (hbalanced p hp).noBacktick).1
  rcases hguarded.of_run_upTo hrun with ⟨hclose, rfl, rfl⟩ | hodd
  · exact ⟨rfl, rfl, noParenthesis_of_keySql hclose⟩
  · rw [heven] at hodd
    contradiction

/-- Behind the list of a key stands at most one parent, and it has a name. -/
private theorem parents_of_run {is : List Interleave} (his : ∀ i ∈ is, '\x60' ∉ i.parent.toList)
    {columns : List Char} {p : (List Char × Option Interleave) × List Char}
    (h : (do
      let parent ← attempt parentClause
      blanks
      finished
      return (columns, parent) : Scanner (List Char × Option Interleave)).run
        (is.flatMap (·.sql.toList)) = some p) :
    ∃ parent : Option Interleave, is = parent.toList ∧ ∀ i ∈ parent, Legible i.parent := by
  cases is with
  | nil => exact ⟨none, rfl, by simp⟩
  | cons i is =>
    have hcomma (j : Interleave) (cs : List Char) : Stops isBlank (j.sql.toList ++ cs) := by
      rw [Interleave.toList_sql]
      exact stops_cons.2 (by decide)
    rw [List.flatMap_cons] at h
    -- A clause without a name is not taken for one, and a second clause is left over behind the
    -- first.
    by_cases hi : i.parent = ""
    · have hnone : parentClause.run (i.sql.toList ++ is.flatMap (·.sql.toList)) = none := by
        rw [Interleave.toList_sql, parentClause]
        simp only [List.cons_append, List.append_assoc]
        rw [run_bind_of_run (run_blanks_of_stops (stops_cons.2 (by decide))),
          run_bind_of_run (run_symbol _ _), run_bind_of_run (run_blanks _),
          stripLeft_append (List.all_eq_true.1 (by decide)) (stops_append (by decide) _),
          run_bind_of_run (run_interleavePhrase _),
          run_bind_of_run (run_gap_of_stops (by decide) (stops_quote_append _ _)), hi,
          run_bind_of_none (run_name_quote_empty _)]
      rw [run_bind_of_run (run_attempt_of_none hnone),
        run_bind_of_run (run_blanks_of_stops (hcomma i _)), Interleave.toList_sql,
        List.cons_append, run_bind_of_none (run_finished_cons _ _)] at h
      contradiction
    · have hlegible : Legible i.parent := ⟨hi, his i List.mem_cons_self⟩
      rw [run_bind_of_run (run_attempt_of_run (run_parentClause hlegible
        (stops_interleaves (by decide) is) (stops_interleaves (by decide) is))),
        run_bind_of_run (run_blanks_of_stops (stops_interleaves (by decide) is))] at h
      cases is with
      | nil => exact ⟨some i, rfl, by simpa using hlegible⟩
      | cons j is =>
        rw [List.flatMap_cons, Interleave.toList_sql, List.cons_append,
          run_bind_of_none (run_finished_cons _ _)] at h
        contradiction

/-- A key clause that is read has names that can be read back and at most one parent. -/
theorem of_readKeyClause {key : List KeyPart} {is : List Interleave}
    (hbalanced : ∀ p ∈ key, Balanced p.name) (his : ∀ i ∈ is, '\x60' ∉ i.parent.toList)
    {k : KeyClause} (h : readKeyClause (keyClauseSql key is) = .ok k) :
    ∃ parent : Option Interleave, is = parent.toList ∧ (∀ p ∈ key, Listable p.name) ∧
      ∀ i ∈ parent, Legible i.parent := by
  rw [readKeyClause] at h
  split at h
  · contradiction
  · rename_i columns interleave hvalue
    obtain ⟨r, hrun⟩ := exists_of_value? hvalue
    rw [keyClauseSql_eq, keyClauseText,
      run_bind_of_run (run_blanks_of_stops (stops_append (by decide) _)),
      run_bind_of_run (run_primaryKey _)] at hrun
    obtain ⟨x, m, hlist, hrest⟩ := exists_of_run_bind hrun
    have hx : x = columns := by
      obtain ⟨parent, m, -, hrest⟩ := exists_of_run_bind hrest
      obtain ⟨_, m, -, hrest⟩ := exists_of_run_bind hrest
      obtain ⟨_, m, -, hrest⟩ := exists_of_run_bind hrest
      exact (Prod.mk.inj (Prod.mk.inj (Option.some.inj hrest)).1).1
    -- A cut list is not empty, and its parts are not read.
    have heven : backticks x % 2 = 0 := by
      rw [hx, ← backticks_strip]
      dsimp only at h
      split at h
      · rename_i hempty
        rw [List.isEmpty_iff.1 hempty]
        rfl
      · obtain ⟨parts, hparts, -⟩ := bind_eq_ok h
        exact even_of_readKeyParts hparts
    obtain ⟨hcolumns, rfl, hclose⟩ := columns_eq_of_upTo hbalanced hlist heven
    obtain ⟨parent, hparent, hlegible⟩ := parents_of_run his hrest
    refine ⟨parent, hparent, fun p hp ↦ ?_, hlegible⟩
    have hne : p.name ≠ "" := by
      dsimp only at h
      rw [← hx, hcolumns, strip_keySql] at h
      split at h
      · rename_i hempty
        have hkey : (keySql key).toList ≠ [] := by
          obtain ⟨q, qs, rfl⟩ := List.exists_cons_of_ne_nil (List.ne_nil_of_mem hp)
          rw [toList_keySql, List.map_cons]
          exact intercalate_ne_nil q.toList_sql_ne_nil
        exact absurd (List.isEmpty_iff.1 hempty) hkey
      · obtain ⟨parts, hparts, -⟩ := bind_eq_ok h
        exact (ne_empty_of_readKeyParts hbalanced hparts).2 p hp
    exact ⟨(hbalanced p hp).closed hne, hclose p hp⟩

/-! ## Index statements -/

theorem ends_indexEnd {α : Type} (f : Option String → α) : Ends (indexEnd f) :=
  .bind fun _ ↦ .bind fun _ ↦ .finished _

theorem pairs_indexEnd {α : Type} (f : Option String → α) : Pairs 1 (indexEnd f) := by
  have hclause : Pairs 1 interleaveInClause :=
    Pairs.blanks.after fun _ ↦ (Pairs.symbol (by decide)).after fun _ ↦ Pairs.blanks.after fun _ ↦
      (Pairs.phrase (by decide)).after fun _ ↦ Pairs.gap.after fun _ ↦ Pairs.name
  exact hclause.attempt.before fun _ ↦ Pairs.blanks.after fun _ ↦ Pairs.finished.after fun _ ↦
    Pairs.pure _

private theorem guarded_storing {names : List String} (h : ∀ c ∈ names, '\x60' ∉ c.toList) :
    Guarded (Index.storedText names) ∧ backticks (Index.storedText names) % 2 = 0 := by
  refine Guarded.intercalate (by decide) (by decide) fun x hx ↦ ?_
  obtain ⟨c, hc, rfl⟩ := List.mem_map.1 hx
  exact guarded_quote (h c hc)

private theorem even_parentText {parent : Option String} (h : ∀ p ∈ parent, '\x60' ∉ p.toList) :
    backticks (Index.parentText parent) % 2 = 0 := by
  cases parent with
  | none => rfl
  | some p =>
    have hhead : backticks ", INTERLEAVE IN ".toList = 0 := by decide
    rw [Index.parentText, Option.elim_some, backticks_append, hhead, Nat.zero_add]
    exact (guarded_quote (h p rfl)).2

/-- The end of an index statement: the parent, and nothing else. -/
private theorem legible_of_run_indexEnd {parent : Option String}
    (hparent : ∀ p ∈ parent, '\x60' ∉ p.toList) {α : Type} {f : Option String → α} {a : α}
    {r : List Char} (h : (indexEnd f).run (Index.parentText parent) = some (a, r)) :
    ∀ p ∈ parent, Legible p := by
  intro p hp
  obtain rfl := Option.mem_def.1 hp
  refine ⟨?_, hparent p rfl⟩
  rintro rfl
  -- The clause is not read without a name, so its comma is left over where the end should be.
  have hnone : interleaveInClause.run (Index.parentText (some "")) = none := by
    rw [run_interleaveInClause_eq, run_name_quote_empty]
  rw [indexEnd, run_bind_of_run (run_attempt_of_none hnone), parentText_some,
    run_bind_of_run (run_blanks_of_stops (stops_cons.2 (by decide))),
    run_bind_of_none (run_finished_cons _ _)] at h
  contradiction

/-- Where the list of stored columns is cut by one of its names, what is left has an odd number of
backticks, and the names behind the cut cannot use them up. -/
private theorem mem_of_run_indexEnd {storing : List String}
    (hnames : ∀ c ∈ storing, '\x60' ∉ c.toList)
    {parent : Option String} (hparent : ∀ p ∈ parent, '\x60' ∉ p.toList) {u m : List Char}
    (hupTo : (upTo ')').run (Index.storedText storing ++ ')' :: Index.parentText parent) =
      some (u, m))
    {α : Type} {f : Option String → α} {a : α} {r : List Char}
    (h : (indexEnd f).run m = some (a, r)) :
    ')' ∉ Index.storedText storing ∧ m = Index.parentText parent := by
  obtain ⟨hguarded, heven⟩ := guarded_storing hnames
  rcases hguarded.of_run_upTo hupTo with ⟨hlist, -, rfl⟩ | hodd
  · exact ⟨hlist, rfl⟩
  · obtain ⟨k, -, hk⟩ := (ends_indexEnd f).exists_backticks (pairs_indexEnd f) h
    have hcount := congrArg backticks (exists_of_run_upTo hupTo).2
    have hrest := even_parentText hparent
    rw [backticks_append, backticks_append, backticks_cons_of_ne (by decide),
      backticks_cons_of_ne (by decide)] at hcount
    omega

/-- What follows the key of an index: names that are stored, of which none cuts the list. -/
private theorem of_run_indexOptions {storing : List String} (hbalanced : ∀ c ∈ storing, Balanced c)
    {parent : Option String} (hparent : ∀ p ∈ parent, '\x60' ∉ p.toList) {α : Type}
    {f : Option (List Char) → Option String → α} {a : α} {r : List Char}
    (h : (indexOptions f).run (Index.storingText storing ++ Index.parentText parent) =
      some (a, r)) :
    (∀ c ∈ storing, Listable c ∨ c = "") ∧ ∀ p ∈ parent, Legible p := by
  rw [indexOptions] at h
  by_cases hs : storing = []
  · have hnil : Index.storingText [] = [] := rfl
    rw [hs, hnil, List.nil_append,
      run_bind_of_run (run_attempt_of_none (run_storingClause_parentText parent))] at h
    exact ⟨by simp [hs], legible_of_run_indexEnd hparent h⟩
  · have hclose : ')' ∈ Index.storedText storing ++ ')' :: Index.parentText parent :=
      List.mem_append_right _ List.mem_cons_self
    -- The list is read up to the first parenthesis that closes, which may be one of a name.
    obtain ⟨u, m, hcut, hu⟩ := List.eq_append_cons_of_mem hclose
    have hupTo : (upTo ')').run (Index.storedText storing ++ ')' :: Index.parentText parent)
        = some (u, m) := by
      rw [hcut, run_upTo hu]
    rw [run_bind_of_run (run_attempt_of_run ((run_storingClause_eq hs _).trans hupTo))] at h
    obtain ⟨hlist, rfl⟩ :=
      mem_of_run_indexEnd (fun c hc ↦ (hbalanced c hc).noBacktick) hparent hupTo h
    refine ⟨fun c hc ↦ ?_, legible_of_run_indexEnd hparent h⟩
    by_cases hempty : c = ""
    · exact Or.inr hempty
    · refine Or.inl ⟨(hbalanced c hc).closed hempty, fun hmem ↦ hlist ?_⟩
      exact mem_intercalate (List.mem_map_of_mem hc) (mem_quote hmem)

/-- An index statement whose key is read has names that can be read back. -/
private theorem of_value?_indexText {i : Index} (hname : '\x60' ∉ i.name.toList)
    (htable : '\x60' ∉ i.table.toList) (hcolumns : ∀ p ∈ i.columns, Balanced p.name)
    (hstoring : ∀ c ∈ i.storing, Balanced c) (hparent : ∀ p ∈ i.interleaveIn, '\x60' ∉ p.toList)
    {t : IndexText} {parts : List KeyPart} (hparts : readKeyParts t.columns = .ok parts)
    (h : indexText.value? i.sql.toList = some t) :
    Legible i.name ∧ Legible i.table ∧ i.columns ≠ [] ∧ (∀ p ∈ i.columns, Listable p.name) ∧
      (∀ c ∈ i.storing, Listable c ∨ c = "") ∧ ∀ p ∈ i.interleaveIn, Legible p := by
  have hon (cs : List Char) : " ON ".toList ++ cs = ' ' :: ("ON".toList ++ ' ' :: cs) := by
    simp
  have hopen {p : Char → Bool} (hp : p ' ' = false) (cs : List Char) :
      Stops p (" (".toList ++ cs) := stops_cons.2 hp
  obtain ⟨r, hrun⟩ := exists_of_value? h
  rw [Index.toList_sql, hon, indexText_eq, run_bind_of_run (run_indexHead _ _ _),
    run_bind_of_run (run_gap_of_stops (by decide) (stops_quote_append _ _))] at hrun
  -- Each name was read where it is written, and what is written for none is not read.
  have hname : Legible i.name := by
    refine ⟨fun hempty ↦ ?_, hname⟩
    rw [hempty, run_bind_of_none (run_name_quote_empty _)] at hrun
    cases hrun
  rw [run_bind_of_run (run_name_quote hname (stops_cons.2 (by decide))),
    run_bind_of_run (run_gap_of_stops (by decide) (stops_append (by decide) _)),
    run_bind_of_run (run_keyword_append (by decide) _),
    run_bind_of_run (run_gap_of_stops (by decide) (stops_quote_append _ _))] at hrun
  have htable : Legible i.table := by
    refine ⟨fun hempty ↦ ?_, htable⟩
    rw [hempty, run_bind_of_none (run_name_quote_empty _)] at hrun
    cases hrun
  rw [run_bind_of_run (run_name_quote htable (hopen (by decide) _))] at hrun
  obtain ⟨x, m, hlist, hrest⟩ := exists_of_run_bind hrun
  have hx : t.columns = x := by
    obtain ⟨storing, m, -, hrest⟩ := exists_of_run_bind hrest
    obtain ⟨parent, m, -, hrest⟩ := exists_of_run_bind hrest
    obtain ⟨_, m, -, hrest⟩ := exists_of_run_bind hrest
    obtain ⟨_, m, -, hrest⟩ := exists_of_run_bind hrest
    rw [← (Prod.mk.inj (Option.some.inj hrest)).1]
  rw [hx] at hparts
  obtain ⟨rfl, rfl, hclose⟩ := columns_eq_of_upTo hcolumns hlist (even_of_readKeyParts hparts)
  obtain ⟨hne, hnonempty⟩ := ne_empty_of_readKeyParts hcolumns hparts
  obtain ⟨hstoring, hlegible⟩ := of_run_indexOptions hstoring hparent hrest
  exact ⟨hname, htable, hne, fun p hp ↦ ⟨(hcolumns p hp).closed (hnonempty p hp), hclose p hp⟩,
    hstoring, hlegible⟩

private theorem exists_of_readIndex {cs : List Char} {j : Index} (h : readIndex cs = .ok j) :
    ∃ t parts, indexText.value? cs = some t ∧ readKeyParts t.columns = .ok parts := by
  rw [readIndex] at h
  split at h
  · contradiction
  · rename_i t hvalue
    obtain ⟨parts, hparts, -⟩ := bind_eq_ok h
    exact ⟨t, parts, hvalue, hparts⟩

/-- An index that is read can be read back. -/
theorem of_readIndex {i j : Index} (hname : '\x60' ∉ i.name.toList)
    (htable : '\x60' ∉ i.table.toList) (hbalanced : ∀ c ∈ i.referenced, Balanced c)
    (hparent : ∀ p ∈ i.interleaveIn, '\x60' ∉ p.toList) (h : readIndex i.sql.toList = .ok j) :
    j = { i with storing := i.storing.filter (· != "") } ∧ j.Readable := by
  obtain ⟨t, parts, hvalue, hparts⟩ := exists_of_readIndex h
  obtain ⟨hname, htable, hne, hcolumns, hstoring, hparent⟩ := of_value?_indexText hname htable
    (fun p hp ↦ hbalanced p.name (List.mem_append_left _ (List.mem_map_of_mem hp)))
    (fun c hc ↦ hbalanced c (List.mem_append_right _ hc)) hparent hparts hvalue
  have hread := readIndex_filter hname htable hne hcolumns hstoring hparent
  obtain rfl := Except.ok.inj (hread.symm.trans h)
  refine ⟨rfl, hname, htable, hne, fun c hc ↦ ?_, hparent⟩
  rcases List.mem_append.1 hc with hc | hc
  · obtain ⟨p, hp, rfl⟩ := List.mem_map.1 hc
    exact hcolumns p hp
  · obtain ⟨hc, hnonempty⟩ := List.mem_filter.1 hc
    exact (hstoring c hc).resolve_right (by simpa using hnonempty)

/-! ## Tables -/

theorem of_foldlM_add {columns : List ColumnClause} (hb : ∀ c ∈ columns, '\x60' ∉ c.name.toList)
    {b body : TableBody} (h : (columns.map (·.text.toList)).foldlM TableBody.add b = .ok body) :
    (∀ c ∈ columns, c.Readable) ∧ ((b.columns.map (·.name)).Nodup →
      (b.columns.map (·.name) ++ columns.map (·.name)).Nodup) := by
  induction columns generalizing b with
  | nil => exact ⟨by simp, fun hnodup ↦ by simpa using hnodup⟩
  | cons c columns ih =>
    rw [List.map_cons, List.foldlM_cons] at h
    obtain ⟨b', hadd, hrest⟩ := bind_eq_ok h
    rw [TableBody.add, if_neg (by simp [isKeyClause_text]), if_neg (by simp [isForeignKey_text]),
      columnOfText] at hadd
    obtain ⟨d, hd, hadd⟩ := bind_eq_ok hadd
    -- A column that was taken in has been read, and as the clause that was written.
    have hread : readColumn c.text.toList = .ok d := by
      cases hr : readColumn c.text.toList with
      | error e =>
        rw [hr] at hd
        contradiction
      | ok d' =>
        rw [hr] at hd
        exact congrArg Except.ok (Except.ok.inj hd)
    have hc := readable_of_readColumn (hb c List.mem_cons_self) hread
    obtain rfl := Except.ok.inj ((readColumn_text hc).symm.trans hread)
    split at hadd
    · contradiction
    · rename_i hnew
      obtain rfl := Except.ok.inj hadd
      have hfresh : c.name ∉ b.columns.map (·.name) := by
        intro hmem
        obtain ⟨e, he, hname⟩ := List.mem_map.1 hmem
        exact hnew (List.any_eq_true.2 ⟨e, he, by simpa [ColumnClause.column] using hname⟩)
      obtain ⟨hreadable, hdistinct⟩ := ih (fun e he ↦ hb e (List.mem_cons_of_mem c he)) hrest
      have hname : (b.columns ++ [c.column]).map (·.name) = b.columns.map (·.name) ++ [c.name] := by
        rw [List.map_append]
        rfl
      refine ⟨fun e he ↦ ?_, fun hnodup ↦ ?_⟩
      · rcases List.mem_cons.1 he with rfl | he
        · exact hc
        · exact hreadable e he
      · dsimp only at hdistinct
        rw [hname] at hdistinct
        have := hdistinct (List.nodup_append.2 ⟨hnodup, List.nodup_singleton _, by
          rintro a ha b hb rfl
          exact hfresh (List.mem_singleton.1 hb ▸ ha)⟩)
        rwa [List.append_assoc, List.singleton_append] at this

theorem exists_of_build {t : TableText} {table : Table} (h : t.build = .ok table) :
    ∃ body key, t.elements.foldlM TableBody.add {} = .ok body ∧ t.key body = .ok key ∧
      ∀ n ∈ key.columns, n ∈ body.columns.map (·.name) := by
  rw [TableText.build] at h
  obtain ⟨body, hbody, h⟩ := bind_eq_ok h
  obtain ⟨key, hkey, h⟩ := bind_eq_ok h
  dsimp only at h
  split at h
  · contradiction
  · rename_i hfind
    refine ⟨body, key, hbody, hkey, fun n hn ↦ ?_⟩
    have hmem := List.find?_eq_none.1 hfind n hn
    rw [Bool.not_eq_true', Bool.not_eq_false, Table.hasColumn_iff] at hmem
    exact hmem

theorem reading_eq_ok {α : Type} {read : List Char → Except Malformation α} {cs : List Char}
    {a : α} :
    reading read cs = .ok a ↔ read cs = .ok a := by
  rw [reading]
  cases read cs with
  | error e =>
    constructor
    · intro h
      contradiction
    · intro h
      contradiction
  | ok b => exact ⟨fun h ↦ congrArg _ (Except.ok.inj h), fun h ↦ congrArg _ (Except.ok.inj h)⟩

end Dump

end SchemaLedger
