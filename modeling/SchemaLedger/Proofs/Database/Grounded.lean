import Mathlib
import SchemaLedger.Proofs.Database.Extension
import SchemaLedger.Proofs.Database.Written
import SchemaLedger.Proofs.Reconciliation.Diff

/-!
# Facts follow the columns

A ledger is grounded in a database if every fact of it is about a column that is there. When a
database executes statements and the ledger takes the steps that go with them, it stays grounded: a
fact that is stored is about a column that has just been made or changed, the facts of what has been
dropped are gone, and those of a table that has another name have been moved with it.
-/

namespace SchemaLedger

variable {db db' : Database}

/-! ## Columns of a database -/

namespace Database

/-- A table of the database has a column. -/
def HasColumn (db : Database) (table column : String) : Prop :=
  ∃ t, db.tables[table]? = some t ∧ column ∈ t.schema.columnNames

theorem HasColumn.of_extends {table column : String} (h : db.HasColumn table column)
    (hextends : db'.Extends db table) : db'.HasColumn table column := by
  obtain ⟨t, ht, hcolumn⟩ := h
  obtain ⟨u, hu, hut⟩ := hextends t ht
  exact ⟨u, hu, hut.columns column hcolumn⟩

/-- A column stays unless the command of a statement takes something from its table. -/
theorem HasColumn.of_run (hdb : db.Sound) {d : Ddl} (htame : d.Tame) (hok : db.run d.text = .ok db')
    {table column : String} (hkeep : table ∉ d.command.removes) (h : db.HasColumn table column) :
    db'.HasColumn table column := by
  refine h.of_extends (hdb.extends_of_run hok fun c hc ↦ ?_)
  rw [command_of_run htame hok] at hc
  obtain rfl := Option.some.inj hc
  exact hkeep

/-! ## Statements one after another -/

theorem exists_of_updateDdl_append {xs ys : List String}
    (h : updateDdl (xs ++ ys) db = .ok () db') :
    ∃ m, updateDdl xs db = .ok () m ∧ updateDdl ys m = .ok () db' := by
  have happend : updateDdl (xs ++ ys) = (do updateDdl xs; updateDdl ys) := List.forM_append
  rw [happend] at h
  obtain ⟨_, m, hxs, hys⟩ := exists_of_run_bind_ok h
  exact ⟨m, hxs, hys⟩

theorem exists_of_execute {x : String} (h : execute x db = .ok () db') :
    ∃ m, db.run x = .ok m ∧ db' = { m with appliedDdl := m.appliedDdl ++ [x] } := by
  rcases execute_cases x db with ⟨e, he⟩ | ⟨m, hm, hok⟩
  · rw [he] at h
    contradiction
  · rw [hok] at h
    obtain ⟨-, rfl⟩ := EStateM.Result.ok.inj h
    exact ⟨m, hm, rfl⟩

theorem exists_of_updateDdl_singleton {x : String} (h : updateDdl [x] db = .ok () db') :
    ∃ m, db.run x = .ok m ∧ db' = { m with appliedDdl := m.appliedDdl ++ [x] } := by
  obtain ⟨_, m, hx, hnil⟩ := exists_of_run_bind_ok h
  obtain ⟨-, rfl⟩ := EStateM.Result.ok.inj hnil
  exact exists_of_execute hx

theorem HasColumn.of_updateDdl {ds : List Ddl} (htame : ∀ d ∈ ds, d.Tame) (hdb : db.Sound)
    {table column : String} (hkeep : ∀ d ∈ ds, table ∉ d.command.removes)
    (hok : updateDdl (ds.map Ddl.text) db = .ok () db') (h : db.HasColumn table column) :
    db'.HasColumn table column := by
  induction ds generalizing db with
  | nil =>
    obtain ⟨-, rfl⟩ := EStateM.Result.ok.inj hok
    exact h
  | cons d ds ih =>
    obtain ⟨_, m, hfirst, hrest⟩ := exists_of_run_bind_ok hok
    have hm : m.Sound := ending_of_ok hfirst ▸ keeps_sound_execute _ db hdb
    obtain ⟨m, hrun, rfl⟩ := exists_of_execute hfirst
    have hcolumn := h.of_run hdb (htame d List.mem_cons_self) hrun (hkeep d List.mem_cons_self)
    exact ih (fun e he ↦ htame e (List.mem_cons_of_mem d he)) hm
      (fun e he ↦ hkeep e (List.mem_cons_of_mem d he)) hrest hcolumn

end Database

/-! ## Grounded ledgers -/

theorem Fact.existsIn_schema {f : Fact} :
    f.existsIn db.schema = true ↔ db.HasColumn f.table f.column := by
  rw [existsIn, Database.getElem?_schema, Option.any_map, Option.any_eq_true]
  refine exists_congr fun t ↦ and_congr_right fun _ ↦ ?_
  exact Table.hasColumn_iff

namespace Ledger

/-- Every fact is about a column that is there. -/
def Grounded (l : Ledger) (db : Database) : Prop := ∀ f ∈ l.entries, f.existsIn db.schema = true

variable {l : Ledger}

theorem grounded_iff :
    l.Grounded db ↔ ∀ k v, l.get? k = some v → db.HasColumn k.table k.column := by
  constructor
  · intro h k v hv
    exact Fact.existsIn_schema.1 (h (.ofKey k v) (mem_entries.2 hv))
  · intro h f hf
    exact Fact.existsIn_schema.2 (h f.key f.value (mem_entries.1 hf))

namespace Grounded

theorem mono (h : l.Grounded db)
    (hdb : ∀ table column, db.HasColumn table column → db'.HasColumn table column) :
    l.Grounded db' :=
  grounded_iff.2 fun k v hv ↦ hdb _ _ (grounded_iff.1 h k v hv)

/-- Whether a ledger is grounded depends on the tables alone, not on their rows. -/
theorem of_schema (h : l.Grounded db) (hschema : db'.schema = db.schema) : l.Grounded db' := by
  intro f hf
  rw [hschema]
  exact h f hf

theorem insertAll (h : l.Grounded db) {fs : List Fact}
    (hfs : ∀ f ∈ fs, db.HasColumn f.table f.column) :
    (l.insertAll fs).Grounded db := by
  refine grounded_iff.2 fun k v hv ↦ ?_
  rcases exists_of_get?_insertAll hv with hv | ⟨f, hf, rfl, -⟩
  · exact grounded_iff.1 h k v hv
  · exact hfs f hf

/-- Facts of a column may be forgotten with it. -/
theorem eraseColumn {table column : String}
    (h : ∀ k v, l.get? k = some v → ¬(table = k.table ∧ column = k.column) →
      db.HasColumn k.table k.column) : (l.eraseColumn table column).Grounded db := by
  refine grounded_iff.2 fun k v hv ↦ ?_
  rw [get?_eraseColumn] at hv
  split at hv
  · contradiction
  · exact h k v hv ‹_›

theorem eraseTable {table : String}
    (h : ∀ k v, l.get? k = some v → table ≠ k.table → db.HasColumn k.table k.column) :
    (l.eraseTable table).Grounded db := by
  refine grounded_iff.2 fun k v hv ↦ ?_
  rw [get?_eraseTable] at hv
  split at hv
  · contradiction
  · exact h k v hv ‹_›

/-- New columns may get facts. -/
theorem upserts (h : l.Grounded db) {fs : List Fact}
    (hdb : ∀ table column, db.HasColumn table column → db'.HasColumn table column)
    (hfs : ∀ f ∈ fs, db'.HasColumn f.table f.column) :
      (l.applyAll (fs.map .upsert)).Grounded db' := by
  rw [applyAll_upserts]
  exact (h.mono hdb).insertAll hfs

theorem dropColumn (h : l.Grounded db) {table column : String} {t : StoredTable}
    (ht : db.tables[table]? = some t) {rows : Std.ExtTreeMap String Row} :
    (l.eraseColumn table column).Grounded (db.store table ⟨t.schema.eraseColumn column, rows⟩) := by
  refine eraseColumn fun k v hv hk ↦ ?_
  obtain ⟨u, hu, hcolumn⟩ := grounded_iff.1 h k v hv
  by_cases htable : table = k.table
  · -- Of the table itself the other columns are left.
    subst htable
    obtain rfl := Option.some.inj (ht.symm.trans hu)
    refine ⟨_, (Database.getElem?_store ..).trans (if_pos rfl),
      Table.mem_columnNames_eraseColumn.2 ⟨hcolumn, ?_⟩⟩
    rintro rfl
    exact hk ⟨rfl, rfl⟩
  · exact ⟨u, (Database.getElem?_store ..).trans ((if_neg htable).trans hu), hcolumn⟩

theorem renameTable (h : l.Grounded db) {old new : String} {t : StoredTable}
    (ht : db.tables[old]? = some t) (hnew : db.tables[new]? = none) :
    (l.renameTable old new).Grounded (db.renamed old new t) := by
  rw [renameTable_eq]
  refine insertAll (eraseTable fun k v hv hold ↦ ?_) fun f hf ↦ ?_
  · obtain ⟨u, hu, hcolumn⟩ := grounded_iff.1 h k v hv
    have hne : new ≠ k.table := by
      rintro rfl
      rw [hnew] at hu
      contradiction
    refine ⟨u.renameParent old new, ?_, hcolumn⟩
    rw [Database.getElem?_renamed, if_neg hne, if_neg hold, hu]
    rfl
  · obtain ⟨g, hg, rfl⟩ := List.mem_map.1 hf
    obtain ⟨hg, htable⟩ := mem_ofTable.1 hg
    obtain ⟨u, hu, hcolumn⟩ := Fact.existsIn_schema.1 (h g hg)
    rw [htable, ht] at hu
    obtain rfl := Option.some.inj hu
    exact ⟨t.rename new, (Database.getElem?_renamed ..).trans (if_pos rfl), hcolumn⟩

theorem dropTable (h : l.Grounded db) {name : String} :
    (l.eraseTable name).Grounded { db with tables := db.tables.erase name } := by
  refine eraseTable fun k v hv hne ↦ ?_
  obtain ⟨u, hu, hcolumn⟩ := grounded_iff.1 h k v hv
  refine ⟨u, ?_, hcolumn⟩
  rw [Std.ExtTreeMap.getElem?_erase, if_neg fun e ↦ hne (Std.LawfulEqOrd.compare_eq_iff_eq.1 e), hu]

/-! ## Statements and their steps -/

/-- A database executes statements, and the ledger takes the steps that go with them. -/
theorem of_mirrors {ds : List Ddl} {delta : Delta} (hmirrors : Mirrors False ds delta)
    (htame : ∀ d ∈ ds, d.Tame) (hdb : db.Sound) (h : l.Grounded db)
    (hok : Database.updateDdl (ds.map Ddl.text) db = .ok () db') :
      (l.applyAll delta).Grounded db' := by
  induction hmirrors generalizing l db db' with
  | nil =>
    obtain ⟨-, rfl⟩ := EStateM.Result.ok.inj hok
    exact h
  | @createTable table ifNotExists columns key interleaves facts hlenient hkey _ habout =>
    obtain ⟨m, hrun, rfl⟩ := Database.exists_of_updateDdl_singleton hok
    have htame := htame _ List.mem_cons_self
    have hparents : ∀ i ∈ interleaves, '\x60' ∉ i.parent.toList := fun i hi ↦
      (htame _
        (List.mem_cons_of_mem _ (List.mem_append_right _ (List.mem_map_of_mem hi)))).noBacktick
    rcases Database.of_run_createTable (htame _ List.mem_cons_self).noBacktick
        (fun c hc ↦ (htame.clauses c hc).noBacktick) hkey hparents hrun with
      ⟨hine, -, -⟩ | ⟨-, parent, -, -, -, rfl⟩
    · exact absurd hine hlenient
    · refine h.upserts (fun _ _ ↦ .of_run hdb htame hrun List.not_mem_nil) fun f hf ↦ ?_
      obtain ⟨rfl, hcolumn⟩ := habout f hf
      refine ⟨_, (Database.getElem?_store ..).trans (if_pos rfl), ?_⟩
      rw [Table.columnNames_declared]
      exact hcolumn
  | createIndex | dropIndex =>
    obtain ⟨m, hrun, rfl⟩ := Database.exists_of_updateDdl_singleton hok
    exact h.mono fun _ _ ↦ .of_run hdb (htame _ List.mem_cons_self) hrun List.not_mem_nil
  | addColumn table _ habout =>
    obtain ⟨m, hrun, rfl⟩ := Database.exists_of_updateDdl_singleton hok
    have htame := htame _ List.mem_cons_self
    obtain ⟨t, -, -, -, rfl⟩ := Database.of_run_addColumn htame hrun
    refine h.upserts (fun _ _ ↦ .of_run hdb htame hrun List.not_mem_nil) fun f hf ↦ ?_
    obtain ⟨rfl, hcolumn⟩ := habout f hf
    refine ⟨_, (Database.getElem?_store ..).trans (if_pos rfl), ?_⟩
    rw [Table.columnNames_appendColumn, hcolumn]
    exact List.mem_append_right _ List.mem_cons_self
  | dropColumn table column =>
    obtain ⟨m, hrun, rfl⟩ := Database.exists_of_updateDdl_singleton hok
    obtain ⟨t, ht, -, -, -, rfl⟩ := Database.of_run_dropColumn (htame _ List.mem_cons_self) hrun
    exact h.dropColumn ht
  | @alterColumn table c facts _ habout =>
    obtain ⟨_, m, hfirst, -⟩ := exists_of_run_bind_ok hok
    obtain ⟨m, hrun, -⟩ := Database.exists_of_execute hfirst
    obtain ⟨t, ht, -, hmem, -⟩ := Database.of_run_alterColumn (htame _ List.mem_cons_self) hrun
    have hkeep {table' column : String} : db.HasColumn table' column →
        db'.HasColumn table' column := by
      refine .of_updateDdl htame hdb (fun d hd ↦ ?_) hok
      rcases List.mem_cons.1 hd with rfl | hd
      · exact List.not_mem_nil
      · split at hd
        · exact List.mem_singleton.1 hd ▸ List.not_mem_nil
        · contradiction
    have herased : (l.eraseColumn table c.name).Grounded db :=
      eraseColumn fun k v hv _ ↦ grounded_iff.1 h k v hv
    refine herased.upserts (fun _ _ ↦ hkeep) fun f hf ↦ ?_
    obtain ⟨rfl, hcolumn⟩ := habout f hf
    exact hkeep ⟨t, ht, hcolumn ▸ hmem⟩
  | renameTable old new =>
    obtain ⟨m, hrun, rfl⟩ := Database.exists_of_updateDdl_singleton hok
    obtain ⟨-, t, ht, hnew, rfl⟩ := Database.of_run_renameTable (htame _ List.mem_cons_self) hrun
    exact h.renameTable ht hnew
  | dropTable table ifExists =>
    obtain ⟨m, hrun, rfl⟩ := Database.exists_of_updateDdl_singleton hok
    rcases Database.of_run_dropTable (htame _ List.mem_cons_self) hrun with
      ⟨-, rfl⟩ | ⟨t, -, -, rfl⟩
    · exact eraseTable fun k v hv _ ↦ grounded_iff.1 h k v hv
    · exact h.dropTable
  | append _ _ ih ih' =>
    rw [List.map_append] at hok
    obtain ⟨m, hfirst, hrest⟩ := Database.exists_of_updateDdl_append hok
    rw [applyAll, List.foldl_append]
    have hm : m.Sound := ending_of_ok hfirst ▸ Database.keeps_sound_updateDdl _ db hdb
    exact ih' (fun d hd ↦ htame d (List.mem_append_right _ hd)) hm
      (ih (fun d hd ↦ htame d (List.mem_append_left _ hd)) hdb h hfirst) hrest

end Grounded

end Ledger

end SchemaLedger
