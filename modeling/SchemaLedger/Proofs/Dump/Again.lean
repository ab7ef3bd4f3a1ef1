import Mathlib
import SchemaLedger.Proofs.Dump.Sound
import SchemaLedger.Proofs.Lowering.Table

/-!
# Sound tables are read again

The statements of sound tables, if they are read at all, are read as the same tables: with their
columns and keys, and with their indices in order. Statements that stand behind them may add tables
of other names, and indices.
-/

namespace SchemaLedger

open Text Text.Scanner Identifier

namespace Table

/-- What the statement of a table says, which leaves out its indices. -/
def bare (t : Table) : Table :=
  declared t.name (t.columns.map Column.toClause) (t.primaryKey.map fun c ↦ ⟨c, .asc⟩) t.interleave

@[simp] theorem name_bare (t : Table) : t.bare.name = t.name := rfl

@[simp] theorem columnNames_bare (t : Table) : t.bare.columnNames = t.columnNames := by
  rw [bare, columnNames_declared, List.map_map]
  rfl

@[simp] theorem primaryKey_bare (t : Table) : t.bare.primaryKey = t.primaryKey :=
  KeyPart.map_name_asc t.primaryKey

@[simp] theorem interleave_bare (t : Table) : t.bare.interleave = t.interleave := rfl

@[simp] theorem indices_bare (t : Table) : t.bare.indices = [] := rfl

/-- Its statements can be read, all but the indices. -/
def Writable (t : Table) : Prop :=
  Declarable t.name (t.columns.map Column.toClause) (t.primaryKey.map fun c ↦ ⟨c, .asc⟩)
    t.interleave

/-! ## Statements of a table -/

theorem timed_of_foldlM {table : String} {cs : List Column} {d d' : TableDraft}
    (h : (cs.map fun c ↦ Definition.column c.toDef).foldlM (TableDraft.add table) d = .ok d') :
    ∀ c ∈ cs, c.stated = some .commitTimestamp → c.type = .timestamp := by
  induction cs generalizing d with
  | nil => exact fun c hc ↦ absurd hc List.not_mem_nil
  | cons c cs ih =>
    rw [List.map_cons, List.foldlM_cons] at h
    obtain ⟨d₁, hadd, h⟩ := bind_eq_ok h
    have hauto : c.toDef.autoIncrement = false := rfl
    rw [TableDraft.add, hauto, if_neg Bool.false_ne_true, Column.lower_toDef] at hadd
    intro e he
    rcases List.mem_cons.1 he with rfl | he
    · intro hstated
      by_contra htype
      rw [if_pos ⟨hstated, htype⟩] at hadd
      contradiction
    · exact ih h e he

theorem timed_of_draft {t : Table} {d : TableDraft} (h : t.toCreate.draft = .ok d) : t.Timed := by
  rw [CreateTable.draft, toCreate, List.foldlM_append] at h
  obtain ⟨d₁, hcolumns, -⟩ := bind_eq_ok h
  exact timed_of_foldlM hcolumns

/-- The statements of a table are written only if no other type is to hold the commit timestamp. -/
theorem timed_of_sql {t : Table} {own : List String} (h : t.sql = .ok own) : t.Timed := by
  rw [sql] at h
  obtain ⟨l, hlower, -⟩ := map_eq_ok h
  rw [Statement.lowerAll] at hlower
  obtain ⟨ls, hmap, -⟩ := map_eq_ok hlower
  rw [statements] at hmap
  obtain ⟨l₁, -, hcreate, -, -⟩ := mapM_cons_eq_ok hmap
  rw [Statement.lower, CreateTable.lower] at hcreate
  obtain ⟨d, hdraft, -⟩ := bind_eq_ok hcreate
  exact timed_of_draft hdraft

namespace Sound

variable {t : Table} (h : t.Sound)

include h

/-- The statements of a sound table that is written. -/
theorem sql_eq {own : List String} (hsql : t.sql = .ok own) :
    own = t.toDdl.text :: t.indices.map Index.sql := by
  rw [sql, lowerAll_statements (timed_of_sql hsql) h.declaresKey
    fun i hi ↦ (h.indices i hi).2.1] at hsql
  have hown : (t.toDdl :: t.indices.map Ddl.createIndex).map Ddl.text = own := Except.ok.inj hsql
  rw [← hown, List.map_cons, List.map_map]
  rfl

theorem noBacktick : ∀ n ∈ t.columnNames, '\x60' ∉ n.toList :=
  fun n hn ↦ (h.columns n hn).noBacktick

theorem noBacktick_clauses : ∀ c ∈ t.columns.map Column.toClause, '\x60' ∉ c.name.toList := by
  intro c hc
  obtain ⟨d, hd, rfl⟩ := List.mem_map.1 hc
  exact h.noBacktick d.name (List.mem_map_of_mem hd)

theorem declaresKey_clauses : ∀ p ∈ t.primaryKey.map (fun c ↦ (⟨c, .asc⟩ : KeyPart)),
    p.name ∈ (t.columns.map Column.toClause).map (·.name) := by
  intro p hp
  obtain ⟨n, hn, rfl⟩ := List.mem_map.1 hp
  rw [List.map_map]
  exact h.declaresKey n hn

theorem noBacktick_parents : ∀ i ∈ t.interleave.toList, '\x60' ∉ i.parent.toList :=
  fun i hi ↦ (h.parents i (Option.mem_toList.1 hi)).noBacktick

/-- The statement of a sound table is read as what it says. -/
theorem build_eq {item : Dump.Item} (hread : Dump.readItem t.toDdl.text.toList = .ok item)
    {text : Dump.TableText} (hitem : item = .table text) {u : Table} (hbuild : text.build = .ok u) :
    t.Writable ∧ u = t.bare := by
  obtain ⟨parent, hparent, hdeclarable, rfl⟩ := Dump.declarable_of_build h.legible
    h.noBacktick_clauses h.declaresKey_clauses h.noBacktick_parents hread hitem hbuild
  have hparent : t.interleave = parent := by
    cases hi : t.interleave <;> cases parent <;> simp_all
  rw [← hparent] at hdeclarable ⊢
  exact ⟨hdeclarable, rfl⟩

/-- The indices of a sound table are read as themselves. -/
theorem readIndex_eq (hwritable : t.Writable) {i j : Index} (hi : i ∈ t.indices)
    (hread : Dump.readIndex i.sql.toList = .ok j) : j = i ∧ i.Readable := by
  have hindex := h.indices i hi
  have hlegible : ∀ n ∈ i.referenced, Closed n := by
    intro n hn
    obtain ⟨c, hc, rfl⟩ := List.mem_map.1 (h.declaresIndexed i hi n hn)
    exact hwritable.closed c.toClause (List.mem_map_of_mem hc)
  have htable : '\x60' ∉ i.table.toList := by
    rw [h.named i hi]
    exact h.legible.noBacktick
  obtain ⟨rfl, hreadable⟩ := Dump.of_readIndex hindex.1.noBacktick htable
    (fun n hn ↦ (hlegible n hn).balanced) (fun p hp ↦ (hindex.2.2 p hp).noBacktick) hread
  have hstoring : i.storing.filter (· != "") = i.storing := by
    refine List.filter_eq_self.2 fun n hn ↦ ?_
    exact bne_iff_ne.2 (hlegible n (List.mem_append_right _ hn)).ne_empty
  rw [hstoring] at hreadable ⊢
  exact ⟨rfl, hreadable⟩

end Sound

end Table

namespace Dump

/-! ## Statements one after another -/

theorem readItems_append {a b : List String} {items : List Item}
    (h : readItems (a ++ b) = .ok items) :
    ∃ xs ys, readItems a = .ok xs ∧ readItems b = .ok ys ∧ items = xs ++ ys := by
  rw [readItems, List.map_append, List.filter_append, List.mapM_append] at h
  obtain ⟨xs, hxs, h⟩ := bind_eq_ok h
  obtain ⟨ys, hys, h⟩ := bind_eq_ok h
  exact ⟨xs, ys, hxs, hys, (Except.ok.inj h).symm⟩

theorem exists_of_readItems_cons {s : String} {ss : List String} (hstops : Stops isBlank s.toList)
    (hne : s.toList ≠ []) {items : List Item} (h : readItems (s :: ss) = .ok items) :
    ∃ item rest, readItem s.toList = .ok item ∧ readItems ss = .ok rest ∧ items = item :: rest := by
  obtain ⟨c, cs, hcs⟩ := List.exists_cons_of_ne_nil hne
  have hc : c ∈ strip s.toList := by
    rw [hcs] at hstops ⊢
    exact mem_strip List.mem_cons_self (stops_cons.1 hstops)
  have hstrip : (!(strip s.toList).isEmpty) = true := by
    simpa using List.ne_nil_of_mem hc
  rw [readItems, List.map_cons, List.filter_cons_of_pos (by exact hstrip)] at h
  obtain ⟨item, rest, hread, hrest, rfl⟩ := mapM_cons_eq_ok h
  exact ⟨item, rest, reading_eq_ok.1 hread, hrest, rfl⟩

theorem toList_index_ne_nil (i : Index) : i.sql.toList ≠ [] := by
  rw [Index.toList_sql, Index.headText_append]
  exact List.append_ne_nil_of_left_ne_nil (by decide) _

theorem exists_of_readItems_indices {is : List Index} {items : List Item}
    (h : readItems (is.map Index.sql) = .ok items) :
    ∃ js, items = js.map .index ∧ is.mapM (fun i ↦ readIndex i.sql.toList) = .ok js := by
  induction is generalizing items with
  | nil =>
    obtain rfl := Except.ok.inj h
    exact ⟨[], rfl, rfl⟩
  | cons i is ih =>
    rw [List.map_cons] at h
    obtain ⟨item, rest, hread, hrest, rfl⟩ :=
      exists_of_readItems_cons (stops_index i) (toList_index_ne_nil i) h
    obtain ⟨js, rfl, hjs⟩ := ih hrest
    rw [readItem_index] at hread
    obtain ⟨j, hj, rfl⟩ := map_eq_ok hread
    refine ⟨j :: js, rfl, ?_⟩
    rw [List.mapM_cons, hj, hjs]
    rfl

theorem stops_createTable (table : String) (ine : Bool) (columns : List ColumnClause)
    (key : List KeyPart) (is : List Interleave) :
    Stops isBlank (Ddl.createTable table ine columns key is).text.toList := by
  rw [toList_createTable]
  exact stops_append (u := headText table ine) rfl _

theorem toList_createTable_ne_nil (table : String) (ine : Bool) (columns : List ColumnClause)
    (key : List KeyPart) (is : List Interleave) :
    (Ddl.createTable table ine columns key is).text.toList ≠ [] := by
  rw [toList_createTable]
  exact List.append_ne_nil_of_left_ne_nil (List.cons_ne_nil _ _) _

/-- The statement of a table with a legible name is read as a table, if it is read. -/
theorem exists_text_of_readItem {table : String} (h : Legible table) {ine : Bool}
    {columns : List ColumnClause} {key : List KeyPart} {is : List Interleave} {item : Item}
    (hread : readItem (Ddl.createTable table ine columns key is).text.toList = .ok item) :
    ∃ text, item = .table text ∧ text.name = table := by
  rw [toList_createTable, readItem, run_tableHead h] at hread
  dsimp only at hread
  rw [readTableText] at hread
  split at hread
  · contradiction
  · exact ⟨_, (Except.ok.inj hread).symm, rfl⟩

/-! ## Tables one after another -/

theorem tables_append (xs ys : List Item) : tables (xs ++ ys) = tables xs ++ tables ys :=
  List.filterMap_append

theorem indices_append (xs ys : List Item) : indices (xs ++ ys) = indices xs ++ indices ys :=
  List.filterMap_append

/-- What is read of the statements of a sound table, and of those behind them. -/
theorem exists_of_readItems_sql {t : Table} (ht : t.Sound) {own : List String}
    (hown : t.sql = .ok own)
    {rest : List String} {items : List Item} (hitems : readItems (own ++ rest) = .ok items) :
    ∃ text js ys, readItem t.toDdl.text.toList = .ok (.table text) ∧
      t.indices.mapM (fun i ↦ readIndex i.sql.toList) = .ok js ∧ readItems rest = .ok ys ∧
      tables items = text :: tables ys ∧ indices items = js ++ indices ys := by
  rw [ht.sql_eq hown] at hitems
  obtain ⟨xs, ys, hxs, hys, rfl⟩ := readItems_append hitems
  obtain ⟨item, is, hread, his, rfl⟩ := exists_of_readItems_cons
    (stops_createTable _ _ _ _ _) (toList_createTable_ne_nil _ _ _ _ _) hxs
  obtain ⟨js, rfl, hjs⟩ := exists_of_readItems_indices his
  obtain ⟨text, rfl, -⟩ := exists_text_of_readItem ht.legible hread
  have htables : tables (.table text :: js.map .index ++ ys) = text :: tables ys := by
    rw [tables_append]
    exact congrArg (text :: · ++ tables ys) (tables_map_index js)
  have hindices : indices (.table text :: js.map .index ++ ys) = js ++ indices ys := by
    rw [indices_append]
    exact congrArg (· ++ indices ys) (indices_map_index js)
  exact ⟨text, js, ys, hread, hjs, hys, htables, hindices⟩

/-- Sound tables that are read from their statements. -/
theorem of_readItems_sql {ts : List Table} (hts : ∀ t ∈ ts, t.Sound) {owns : List (List String)}
    (hsql : ts.mapM Table.sql = .ok owns) {items : List Item}
    (hitems : readItems owns.flatten = .ok items) {us : List Table}
    (hbuilt : (tables items).mapM TableText.build = .ok us) :
    us = ts.map Table.bare ∧ indices items = ts.flatMap (·.indices) ∧
      ∀ t ∈ ts, t.Writable ∧ ∀ i ∈ t.indices, i.Readable := by
  induction ts generalizing owns items us with
  | nil =>
    obtain rfl := Except.ok.inj hsql
    obtain rfl := Except.ok.inj hitems
    obtain rfl := Except.ok.inj hbuilt
    exact ⟨rfl, rfl, fun t ht ↦ absurd ht List.not_mem_nil⟩
  | cons t ts ih =>
    have ht := hts t List.mem_cons_self
    obtain ⟨own, owns, hown, howns, rfl⟩ := mapM_cons_eq_ok hsql
    rw [List.flatten_cons] at hitems
    obtain ⟨text, js, ys, hread, hjs, hys, htables, hindices⟩ :=
      exists_of_readItems_sql ht hown hitems
    rw [htables] at hbuilt
    obtain ⟨u, us, hu, hus, rfl⟩ := mapM_cons_eq_ok hbuilt
    obtain ⟨rfl, hrest, hwritables⟩ :=
      ih (fun u hu ↦ hts u (List.mem_cons_of_mem t hu)) howns hys hus
    obtain ⟨hwritable, rfl⟩ := ht.build_eq hread rfl hu
    have heq : js = t.indices.map id := eq_map_of_mapM hjs fun i hi j hj ↦
      (ht.readIndex_eq hwritable hi hj).1
    rw [List.map_id] at heq
    refine ⟨rfl, ?_, fun v hv ↦ ?_⟩
    · rw [hindices, hrest, heq, List.flatMap_cons]
    · rcases List.mem_cons.1 hv with rfl | hv
      · refine ⟨hwritable, fun i hi ↦ ?_⟩
        obtain ⟨j, -, hj⟩ := exists_of_mapM hjs hi
        exact (ht.readIndex_eq hwritable hi hj).2
      · exact hwritables v hv

/-- What is read of the statements of sound tables and of statements behind them. -/
structure Rereading (ts : List Table) (items : List Item) (us : List Table) (s : Schema) :
    Prop where
  built : (tables items).mapM TableText.build = .ok us
  writable : ∀ t ∈ ts, t.Writable ∧ ∀ i ∈ t.indices, i.Readable
  distinct : ((ts.map Table.bare ++ us).map (·.name)).Nodup
  lookup : ∀ k, s[k]? = ((ts.map Table.bare ++ us).find? (·.name == k)).map fun t ↦
    ((ts.flatMap (·.indices) ++ indices items).filter (·.table == k)).foldl Table.registerIndex t

theorem exists_of_parse_append {ts : List Table} (hts : ∀ t ∈ ts, t.Sound)
    {owns : List (List String)} (hsql : ts.mapM Table.sql = .ok owns) {more : List String}
    {s : Schema} (h : parse (owns.flatten ++ more) = .ok s) :
    ∃ items us, readItems more = .ok items ∧ Rereading ts items us s := by
  obtain ⟨all, vs, hall, hreading⟩ := exists_of_parse h
  obtain ⟨xs, items, hxs, hitems, rfl⟩ := readItems_append hall
  have hbuilt := hreading.built
  have hlookup := hreading.lookup
  have hdistinct := hreading.distinct
  rw [tables_append, List.mapM_append] at hbuilt
  obtain ⟨bs, hbs, hbuilt⟩ := bind_eq_ok hbuilt
  obtain ⟨us, hus, hbuilt⟩ := bind_eq_ok hbuilt
  obtain rfl := Except.ok.inj hbuilt
  obtain ⟨rfl, hindices, hwritable⟩ := of_readItems_sql hts hsql hxs hbs
  rw [indices_append, hindices] at hlookup
  exact ⟨items, us, hitems, hus, hwritable, hdistinct, hlookup⟩

/-- Where names are distinct, a table is found by its name. -/
theorem find?_eq_some_of_mem {ts : List Table} (h : (ts.map (·.name)).Nodup) {t : Table}
    (ht : t ∈ ts) :
    ts.find? (·.name == t.name) = some t := by
  cases hfind : ts.find? (·.name == t.name) with
  | none =>
    have hne := List.find?_eq_none.1 hfind t ht
    simp at hne
  | some u =>
    have hname : u.name = t.name := by simpa using List.find?_some hfind
    exact congrArg some (List.inj_on_of_nodup_map h (List.mem_of_find?_eq_some hfind) ht hname)

/-- A table of the dump, with the indices that stand behind it. -/
theorem Rereading.lookup_of_mem {ts : List Table} (hts : ∀ t ∈ ts, t.Sound) {items : List Item}
    {us : List Table} {s : Schema} (h : Rereading ts items us s) {t : Table} (ht : t ∈ ts) :
    s[t.name]? = some ((t.indices ++ (indices items).filter (·.table == t.name)).foldl
      Table.registerIndex t.bare) := by
  have hdistinct := h.distinct
  rw [List.map_append] at hdistinct
  have hnames : (ts.map (·.name)).Nodup := by
    have hleft := (List.nodup_append.1 hdistinct).1
    rwa [List.map_map] at hleft
  have hfind : (ts.map Table.bare ++ us).find? (·.name == t.name) = some t.bare :=
    find?_eq_some_of_mem h.distinct (List.mem_append_left _ (List.mem_map_of_mem ht))
  -- Only the table itself has indices that name it.
  have hown : (ts.flatMap (·.indices)).filter (·.table == t.name) = t.indices := by
    clear hfind hdistinct h
    induction ts with
    | nil => contradiction
    | cons u ts ih =>
      rw [List.map_cons, List.nodup_cons] at hnames
      have hother {v w : Table} (hv : v.Sound) (hne : v.name ≠ w.name) :
          v.indices.filter (·.table == w.name) = [] := by
        refine List.filter_eq_nil_iff.2 fun i hi e ↦ hne ?_
        rw [← hv.named i hi]
        exact beq_iff_eq.1 e
      rw [List.flatMap_cons, List.filter_append]
      rcases List.mem_cons.1 ht with rfl | ht
      · have hself : t.indices.filter (·.table == t.name) = t.indices :=
          List.filter_eq_self.2 fun i hi ↦ beq_iff_eq.2 ((hts t List.mem_cons_self).named i hi)
        have hrest : (ts.flatMap (·.indices)).filter (·.table == t.name) = [] := by
          refine List.filter_eq_nil_iff.2 fun i hi e ↦ ?_
          obtain ⟨v, hv, hi⟩ := List.mem_flatMap.1 hi
          refine hnames.1 ?_
          rw [← beq_iff_eq.1 e, (hts v (List.mem_cons_of_mem t hv)).named i hi]
          exact List.mem_map_of_mem hv
        rw [hself, hrest, List.append_nil]
      · have hne : u.name ≠ t.name := fun e ↦ hnames.1 (e ▸ List.mem_map_of_mem ht)
        rw [hother (hts u List.mem_cons_self) hne, List.nil_append,
          ih (fun v hv ↦ hts v (List.mem_cons_of_mem u hv)) ht hnames.2]
  rw [h.lookup, hfind, List.filter_append, hown]
  rfl

end Dump

end SchemaLedger
