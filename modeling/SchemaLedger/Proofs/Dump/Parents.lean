import Mathlib
import SchemaLedger.Proofs.Database.Redump

/-!
# Parents in a dump

Nothing is looked up about the parent that a table is interleaved in. Every statement is read for
itself, so statements can be read without the tables that they depend on: whatever tables are left
out, with their indices, the others are read as before. That the parents of all tables are there is
therefore up to the statements, and a table is reported missing only where an index is to be put on
it.
-/

namespace SchemaLedger.Dump

open Text Text.Scanner

/-! ## Statements by themselves -/

/-- What a statement says if it is read by itself. -/
def item? (statement : String) : Option Item := (readItem statement.toList).toOption

/-- The table that a statement creates or puts an index on. -/
def Item.subject : Item → String
  | table text => text.name
  | index i => i.table

/-- The table that a statement is about, if it can be read. -/
def subject? (statement : String) : Option String := (item? statement).map Item.subject

/-- The parent that the text of a table names. -/
def TableText.parent? (t : TableText) : Option String :=
  t.build.toOption.bind fun table ↦ table.interleave.map (·.parent)

/-- The tables that statements create. -/
def created (statements : List String) : List String :=
  (tables (statements.filterMap item?)).map (·.name)

/-- The parents that statements name. -/
def parents (statements : List String) : List String :=
  (tables (statements.filterMap item?)).filterMap TableText.parent?

/-- A blank text is no statement. -/
theorem item?_of_blank {statement : String} (h : strip statement.toList = []) :
    item? statement = none := by
  have hleft : stripLeft statement.toList = [] := by
    cases hc : stripLeft statement.toList with
    | nil => rfl
    | cons c cs =>
      have hblank : isBlank c = false := stops_cons.1 (hc ▸ stops_stripLeft statement.toList)
      have hmem : c ∈ statement.toList :=
        (List.dropWhile_sublist _).subset (hc ▸ List.mem_cons_self)
      exact absurd (h ▸ mem_strip hmem hblank) List.not_mem_nil
  have htable : tableHead.run statement.toList = none := by
    rw [tableHead, run_bind_of_run (run_blanks _), hleft]
    rfl
  have hindex : isIndex statement.toList = false := by
    have hhead : indexHead.run statement.toList = none := by
      rw [indexHead, run_bind_of_run (run_blanks _), hleft]
      rfl
    rw [isIndex, value?, run_bind_of_none hhead]
    rfl
  rw [item?, readItem, htable, hindex]
  rfl

/-- Statements are read one by one. -/
theorem eq_of_readItems {statements : List String} {items : List Item}
    (h : readItems statements = .ok items) :
    items = statements.filterMap item? := by
  induction statements generalizing items with
  | nil => exact (Except.ok.inj h).symm
  | cons st statements ih =>
    by_cases hblank : strip st.toList = []
    · rw [readItems, List.map_cons, List.filter_cons_of_neg (by simp [hblank])] at h
      rw [List.filterMap_cons_none (item?_of_blank hblank), ← ih h]
    · rw [readItems, List.map_cons, List.filter_cons_of_pos (by simpa using hblank)] at h
      obtain ⟨item, rest, hitem, hrest, rfl⟩ := mapM_cons_eq_ok h
      have hsome : item? st = some item := by
        rw [item?, reading_eq_ok.1 hitem]
        rfl
      rw [List.filterMap_cons_some hsome, ← ih hrest]

/-- Some of the statements that are read are read as well. -/
theorem readItems_of_subset {statements some : List String} {items : List Item}
    (h : readItems statements = .ok items) (hsome : some ⊆ statements) :
    readItems some = .ok (some.filterMap item?) := by
  have hread : ∀ cs ∈ (some.map String.toList).filter fun cs ↦ !(strip cs).isEmpty,
      ∃ item, reading readItem cs = .ok item := by
    intro cs hcs
    obtain ⟨hcs, hblank⟩ := List.mem_filter.1 hcs
    have hmem : cs ∈ (statements.map String.toList).filter fun cs ↦ !(strip cs).isEmpty :=
      List.mem_filter.2 ⟨List.map_subset _ hsome hcs, hblank⟩
    obtain ⟨item, -, hitem⟩ := exists_of_mapM h hmem
    exact ⟨item, hitem⟩
  obtain ⟨items', hitems'⟩ := exists_mapM hread
  have hitems' : readItems some = .ok items' := hitems'
  rw [hitems', ← eq_of_readItems hitems']

/-! ## Reading fewer statements -/

/-- The items about the tables that are kept. -/
theorem filterMap_item?_filter (statements : List String) (keep : String → Bool) :
    (statements.filter fun st ↦ (subject? st).all keep).filterMap item? =
      (statements.filterMap item?).filter (keep ·.subject) := by
  rw [List.filterMap_filter, List.filter_filterMap]
  congr 1
  funext st
  rw [subject?]
  cases item? st with
  | none => simp
  | some item => simp [Option.filter]

theorem tables_filter (items : List Item) (keep : String → Bool) :
    tables (items.filter (keep ·.subject)) = (tables items).filter (keep ·.name) := by
  rw [tables, tables, List.filterMap_filter, List.filter_filterMap]
  congr 1
  funext item
  cases item with
  | table text => rfl
  | index i => exact ite_self none

theorem indices_filter (items : List Item) (keep : String → Bool) :
    indices (items.filter (keep ·.subject)) = (indices items).filter (keep ·.table) := by
  rw [indices, indices, List.filterMap_filter, List.filter_filterMap]
  congr 1
  funext item
  cases item with
  | table text => exact ite_self none
  | index i => rfl

theorem name_of_build {text : TableText} {t : Table} (h : text.build = .ok t) :
    t.name = text.name := by
  obtain ⟨body, key, hbody, hkey, hdeclared⟩ := exists_of_build h
  obtain rfl := Except.ok.inj ((build_eq hbody hkey hdeclared).symm.trans h)
  rfl

/-- Without the statements about some tables, the other tables are read as before. -/
theorem parse_filter {statements : List String} {s : Schema} (h : parse statements = .ok s)
    (keep : String → Bool) :
    parse (statements.filter fun st ↦ (subject? st).all keep) =
      .ok (s.filter fun name _ ↦ keep name) := by
  obtain ⟨items, ts, hitems, hreading⟩ := exists_of_parse h
  have hkept : readItems (statements.filter fun st ↦ (subject? st).all keep) =
      .ok (items.filter (keep ·.subject)) := by
    rw [readItems_of_subset hitems (List.filter_subset_self _), filterMap_item?_filter,
      eq_of_readItems hitems]
  have hbuilt : (tables (items.filter (keep ·.subject))).mapM TableText.build =
      .ok (ts.filter (keep ·.name)) := by
    rw [tables_filter]
    exact mapM_filter hreading.built fun text t ht ↦ congrArg keep (name_of_build ht)
  have hdistinct : ((ts.filter (keep ·.name)).map (·.name)).Nodup :=
    (List.filter_sublist.map _).nodup hreading.distinct
  obtain ⟨s', hs'⟩ := exists_parse hkept hbuilt hdistinct fun i hi ↦ by
    rw [indices_filter] at hi
    obtain ⟨hi, hkeep⟩ := List.mem_filter.1 hi
    obtain ⟨t, ht, hname, hcolumns⟩ := hreading.declared i hi
    exact ⟨t, List.mem_filter.2 ⟨ht, hname ▸ hkeep⟩, hname, hcolumns⟩
  obtain ⟨items', ts', hitems', hreading'⟩ := exists_of_parse hs'
  obtain rfl := Except.ok.inj (hkept.symm.trans hitems')
  obtain rfl := Except.ok.inj (hbuilt.symm.trans hreading'.built)
  rw [hs']
  refine congrArg Except.ok (Std.ExtTreeMap.ext_getElem? fun k ↦ ?_)
  rw [Std.ExtTreeMap.getElem?_filter', hreading.lookup, hreading'.lookup, indices_filter,
    List.filter_filter, List.find?_filter]
  by_cases hk : keep k = true
  · -- What is kept under the name is all that there is under the name.
    have htable (t : Table) : decide (keep t.name = true ∧ (t.name == k) = true) =
        (t.name == k) := by
      by_cases ht : t.name = k <;> simp [ht, hk]
    have hindex (i : Index) : (i.table == k && keep i.table) = (i.table == k) := by
      by_cases hi : i.table = k <;> simp [hi, hk]
    have hall {o : Option Table} : o.filter (fun _ ↦ true) = o := by
      cases o <;> rfl
    simp only [htable, hindex, hk, hall]
  · have hnone : ts.find? (fun t ↦ decide (keep t.name = true ∧ (t.name == k) = true)) = none := by
      refine List.find?_eq_none.2 fun t _ ht ↦ hk ?_
      obtain ⟨ht, hname⟩ := of_decide_eq_true ht
      exact beq_iff_eq.1 hname ▸ ht
    have hall {o : Option Table} : o.filter (fun _ ↦ false) = none := by
      cases o <;> rfl
    simp only [hnone, Bool.eq_false_of_not_eq_true hk, hall, Option.map_none]

/-! ## Parents -/

section

variable {statements : List String} {s : Schema} (h : parse statements = .ok s)

include h

/-- The tables that are read are those that are created. -/
theorem contains_iff_of_parse {name : String} :
    s.contains name = true ↔ name ∈ created statements := by
  obtain ⟨items, ts, hitems, hreading⟩ := exists_of_parse h
  rw [created, ← eq_of_readItems hitems, ← Std.ExtTreeMap.isSome_getElem?_eq_contains,
    hreading.lookup, Option.isSome_map, List.find?_isSome, List.mem_map]
  constructor
  · rintro ⟨t, ht, hname⟩
    obtain ⟨text, htext, hbuild⟩ := exists_of_mem_mapM hreading.built ht
    exact ⟨text, htext, (name_of_build hbuild).symm.trans (beq_iff_eq.1 hname)⟩
  · rintro ⟨text, htext, rfl⟩
    obtain ⟨t, ht, hbuild⟩ := exists_of_mapM hreading.built htext
    exact ⟨t, ht, beq_iff_eq.2 (name_of_build hbuild)⟩

/-- The tables that are read have the parents that are named. -/
theorem mem_parents_iff_of_parse {parent : String} :
    parent ∈ parents statements ↔
    ∃ (k : String) (t : Table), s[k]? = some t ∧ ∃ i ∈ t.interleave, i.parent = parent := by
  obtain ⟨items, ts, hitems, hreading⟩ := exists_of_parse h
  have hparent? {text : TableText} {t : Table} (hbuild : text.build = .ok t) :
      text.parent? = t.interleave.map (·.parent) := by
    rw [TableText.parent?, hbuild]
    rfl
  rw [parents, ← eq_of_readItems hitems, List.mem_filterMap]
  constructor
  · rintro ⟨text, htext, hparent⟩
    obtain ⟨t, ht, hbuild⟩ := exists_of_mapM hreading.built htext
    rw [hparent? hbuild] at hparent
    obtain ⟨i, hi, rfl⟩ := Option.map_eq_some_iff.1 hparent
    refine ⟨t.name,
      _, by rw [hreading.lookup, find?_eq_some_of_mem hreading.distinct ht]; rfl, i, ?_, rfl⟩
    dsimp only
    rw [Table.foldl_registerIndex]
    exact hi
  · rintro ⟨k, t, ht, i, hi, rfl⟩
    rw [hreading.lookup] at ht
    obtain ⟨u, hu, rfl⟩ := Option.map_eq_some_iff.1 ht
    obtain ⟨text, htext, hbuild⟩ := exists_of_mem_mapM hreading.built (List.mem_of_find?_eq_some hu)
    refine ⟨text, htext, ?_⟩
    rw [Table.foldl_registerIndex] at hi
    rw [hparent? hbuild, show u.interleave = some i from hi]
    rfl

/-- The parents of all tables are there if and only if the statements create all the parents that
they name. -/
theorem forall_parents_iff :
    (∀ (k : String) (t : Table), s[k]? = some t → ∀ i ∈ t.interleave, s.contains i.parent = true) ↔
      parents statements ⊆ created statements := by
  constructor
  · intro hall parent hparent
    obtain ⟨k, t, ht, i, hi, rfl⟩ := (mem_parents_iff_of_parse h).1 hparent
    exact (contains_iff_of_parse h).1 (hall k t ht i hi)
  · intro hsubset k t ht i hi
    exact (contains_iff_of_parse h).2
      (hsubset ((mem_parents_iff_of_parse h).2 ⟨k, t, ht, i, hi, rfl⟩))

end

/-! ## What is reported missing -/

/-- The key of a table can only lack a column. -/
theorem column_of_build {text : TableText} {table context : String} {column : Option String}
    (h : text.build = .error (.dangling table column context)) : column ≠ none := by
  rw [TableText.build] at h
  rcases bind_eq_error h with hbody | ⟨body, hbody, h⟩
  · have hclear : Undangling (text.elements.foldlM TableBody.add {}) :=
      .foldlM (fun b element _ ↦ undangling_add b element) _
    cases hclear _ hbody
  rcases bind_eq_error h with hkey | ⟨key, hkey, h⟩
  · cases undangling_key text body _ hkey
  dsimp only at h
  split at h
  · obtain ⟨rfl, rfl, rfl⟩ := SchemaError.dangling.inj (Except.error.inj h)
    exact Option.some_ne_none _
  · contradiction

theorem column_of_addTable {s : Schema} {text : TableText} {table context : String}
    {column : Option String}
    (h : addTable s text = .error (.dangling table column context)) : column ≠ none := by
  rcases bind_eq_error h with hbuild | ⟨t, -, h⟩
  · exact column_of_build hbuild
  · split at h <;> cases h

/-- Of an index, the table may be missing. -/
theorem of_addIndex {s : Schema} {i : Index} {table context : String}
    (h : addIndex s i = .error (.dangling table none context)) :
    i.table = table ∧ context = "index " ++ i.name := by
  rw [addIndex] at h
  split at h
  · obtain ⟨rfl, -, rfl⟩ := SchemaError.dangling.inj (Except.error.inj h)
    exact ⟨rfl, rfl⟩
  · rcases bind_eq_error h with h | ⟨t, -, h⟩
    · rw [Table.addIndex] at h
      split at h
      · cases h
      · contradiction
    · contradiction

/-- A table is reported missing only where an index is to be put on it. -/
theorem exists_index_of_missing {statements : List String} {table context : String}
    (h : parse statements = .error (.dangling table none context)) :
    ∃ st ∈ statements, ∃ i, item? st = some (.index i) ∧ i.table = table ∧
      context = "index " ++ i.name := by
  rcases bind_eq_error h with hitems | ⟨items, hitems, h⟩
  · have hclear : Undangling (readItems statements) := .mapM fun cs _ ↦ .reading _ cs
    cases hclear _ hitems
  rcases bind_eq_error h with htables | ⟨s, -, h⟩
  · obtain ⟨s, text, -, hadd⟩ := exists_of_foldlM_error htables
    exact absurd rfl (column_of_addTable hadd)
  · obtain ⟨s, i, hi, hadd⟩ := exists_of_foldlM_error h
    have hmem : .index i ∈ statements.filterMap item? := eq_of_readItems hitems ▸ mem_indices.1 hi
    obtain ⟨st, hst, hitem⟩ := List.mem_filterMap.1 hmem
    exact ⟨st, hst, i, hitem, of_addIndex hadd⟩

/-- Parents are not looked up. Where statements are read, the parents of all tables are there
exactly if the statements create all the parents that they name; and the statements about any tables
can be left out, parents or not, and the other tables are read as before. Where a table is reported
missing, it is for an index. -/
theorem parse_passes_over_parents (statements : List String) :
    (∀ s, parse statements = .ok s →
      ((∀ (k : String) (t : Table), s[k]? = some t →
        ∀ i ∈ t.interleave, s.contains i.parent = true) ↔
          parents statements ⊆ created statements) ∧
        ∀ keep : String → Bool, parse (statements.filter fun st ↦ (subject? st).all keep) =
          .ok (s.filter fun name _ ↦ keep name)) ∧
      ∀ table context, parse statements = .error (.dangling table none context) →
        ∃ st ∈ statements, ∃ i, item? st = some (.index i) ∧ i.table = table ∧
          context = "index " ++ i.name :=
  ⟨fun _ h ↦ ⟨forall_parents_iff h, parse_filter h⟩, fun _ _ h ↦ exists_index_of_missing h⟩

/-- A table in another one, and an index on it. -/
def rooms : List String :=
  ["CREATE TABLE rooms (house INT64, no INT64) PRIMARY KEY (house, no), INTERLEAVE IN PARENT houses",
    "CREATE INDEX room_no ON rooms (no)"]

/-- The other one. -/
def houses : List String := ["CREATE TABLE houses (house INT64) PRIMARY KEY (house)"]

theorem rooms_parse :
    ∃ s, parse (rooms ++ houses) = .ok s ∧
      (∀ (k : String) (t : Table), s[k]? = some t →
        ∀ i ∈ t.interleave, s.contains i.parent = true) ∧
      parse rooms = .ok (s.filter fun name _ ↦ name != "houses") := by
  have hsome : (parse (rooms ++ houses)).toOption.isSome = true := by decide +kernel
  obtain ⟨s, hs⟩ := Option.isSome_iff_exists.1 hsome
  have hs := eq_ok_of_toOption hs
  obtain ⟨hparents, hfilter⟩ := (parse_passes_over_parents (rooms ++ houses)).1 s hs
  have hrest : rooms = (rooms ++ houses).filter fun st ↦ (subject? st).all (· != "houses") := by
    decide +kernel
  exact ⟨s, hs, hparents.2 (by decide +kernel),
    (congrArg parse hrest).trans (hfilter (· != "houses"))⟩

/-- A parent that is not there is not reported. -/
theorem rooms_without_houses :
    ∃ s t, parse rooms = .ok s ∧ s["rooms"]? = some t ∧ t.interleave = some ⟨"houses", false⟩ ∧
      s.contains "houses" = false := by
  have hread :
      (parse rooms).toOption.map (fun s ↦ (s["rooms"]?.map (·.interleave), s.contains "houses"))
      = some (some (some ⟨"houses", false⟩), false) := by
    decide +kernel
  obtain ⟨s, hs, h⟩ := Option.map_eq_some_iff.1 hread
  obtain ⟨hrooms, hhouses⟩ := Prod.mk.inj h
  obtain ⟨t, ht, hparent⟩ := Option.map_eq_some_iff.1 hrooms
  exact ⟨s, t, eq_ok_of_toOption hs, ht, hparent, hhouses⟩

end SchemaLedger.Dump
