import Mathlib
import SchemaLedger.Proofs.Database.Grounded
import SchemaLedger.Proofs.Database.Meaning
import SchemaLedger.Proofs.Lowering.Alteration

/-!
# Changes to tables keep their meaning

The changes of a statement are written one by one, with the indices that they ask for behind them,
and what the database makes of a text depends on what it recognizes in it: a column is appended to
the table or altered in it, and for an index the whole table is written down and read back. Here it
is said what each change is to do to a database, on tables and rows alone. What is written does
this.

It takes names that can be read back, and that goes for the names that are in the database already
as well: a column whose name was read as more than a name may have a default that is not written,
and an index on another column loses it. And a stored column without a name is none.
-/

namespace SchemaLedger

open Identifier

/-! ## Calls -/

namespace Database

variable {db db' : Database} {p : String → Prop}

/-- A database that has had batches of statements with names of a kind, each of them as far as it
was accepted, and calls that do not define data. -/
inductive Managed (p : String → Prop) : Database → Prop
  | empty : Managed p {}
  | batch {db : Database} {statements : List Statement} {lowered : Lowered} (managed : Managed p db)
      (names : ∀ s ∈ statements, ∀ n ∈ s.names, p n)
      (lower : Statement.lowerAll statements = .ok lowered) :
      Managed p (ending (updateDdl lowered.sql) db)
  | call {db : Database} (c : Call) (managed : Managed p db) (other : ∀ sql, c ≠ .updateDdl sql) :
      Managed p (c.apply db)

theorem Managed.mono {q : String → Prop} (h : db.Managed p) (hpq : ∀ n, p n → q n) :
    db.Managed q := by
  induction h with
  | empty => exact .empty
  | batch _ hnames hlower ih => exact .batch ih (fun s hs n hn ↦ hpq n (hnames s hs n hn)) hlower
  | call c _ hother ih => exact .call c ih hother

theorem Managed.orderly (h : db.Managed Tame) : db.Orderly := by
  induction h with
  | empty => exact orderly_empty
  | batch _ htame hlower ih =>
    have hmirrors : Mirrors True _ _ := Statement.mirrors_of_lowerAll hlower fun _ _ _ ↦ trivial
    exact keeps_orderly_of_mirrors hmirrors (Statement.tame_of_lowerAll hlower htame) _ ih
  | call c _ hother ih => exact ih.call hother

end Database

/-! ## What changes mean -/

/-- A column as the database keeps it: of a default only the permission to hold the commit
timestamp, and nothing of where its values come from. -/
def Column.kept (c : Column) : Column :=
  { c with defaultValue := c.defaultValue.filter (· == .commitTimestamp), generation := none }

namespace StoredTable

/-- The table with another schema. -/
def mapSchema (f : Table → Table) (t : StoredTable) : StoredTable := { t with schema := f t.schema }

/-- The table without a column and its values. -/
def eraseColumn (column : String) (t : StoredTable) : StoredTable where
  schema := t.schema.eraseColumn column
  rows := t.rows.map fun _ row ↦ row.erase column

end StoredTable

namespace Database

/-- The database with one table changed. -/
def modifyTable (n : String) (f : StoredTable → StoredTable) (db : Database) : Database :=
  { db with tables := db.tables.modify n f }

/-- The database with indices appended to those of a table. -/
def index (table : String) (is : List Index) (db : Database) : Database :=
  db.modifyTable table (.mapSchema (is.foldl Table.registerIndex ·))

/-- The database without the foreign keys of a table. -/
def unkey (table : String) (db : Database) : Database :=
  db.modifyTable table (.mapSchema ({ · with foreignKeys := [] }))

end Database

namespace AlterAction

/-- What a change does to a database, indices apart. -/
def effect (table : String) (db : Database) : AlterAction → Database
  | addColumn c =>
    match c.meaning? with
    | some d => db.modifyTable table (.mapSchema (·.appendColumn d.kept))
    | none => db
  | changeColumn _ c =>
    match c.meaning? with
    | some d => db.modifyTable table (.mapSchema (·.modifyColumn c.name (Column.alter d.kept)))
    | none => db
  | dropColumn column => db.modifyTable table (.eraseColumn column)
  | dropIndex name =>
    match db.indexOwner? name with
    | some owner => db.modifyTable owner.name (.mapSchema (·.dropIndex name))
    | none => db
  | _ => db

end AlterAction

namespace AlterTable

/-- What the changes do to a database one after another, indices apart. -/
def effect (a : AlterTable) (db : Database) : Database :=
  a.actions.foldl (AlterAction.effect a.table) db

end AlterTable

/-! ## Changes to one table -/

namespace Database

variable {db db' : Database}

theorem getElem?_modifyTable (n : String) (f : StoredTable → StoredTable) (db : Database)
    (k : String) :
    (db.modifyTable n f).tables[k]? = if n = k then db.tables[n]?.map f else db.tables[k]? := by
  rw [modifyTable, Std.ExtTreeMap.getElem?_modify]
  simp only [Std.LawfulEqOrd.compare_eq_iff_eq]

theorem store_eq_modifyTable {n : String} {t : StoredTable} (ht : db.tables[n]? = some t)
    (f : StoredTable → StoredTable) : db.store n (f t) = db.modifyTable n f := by
  have htables : (db.store n (f t)).tables = (db.modifyTable n f).tables := by
    refine Std.ExtTreeMap.ext_getElem? fun k ↦ ?_
    rw [getElem?_store, getElem?_modifyTable, ht]
    rfl
  exact congrArg (fun tables ↦ { db with tables }) htables

theorem modifyTable_modifyTable (n : String) (f g : StoredTable → StoredTable) (db : Database) :
    (db.modifyTable n f).modifyTable n g = db.modifyTable n (g ∘ f) := by
  have htables : ((db.modifyTable n f).modifyTable n g).tables =
      (db.modifyTable n (g ∘ f)).tables := by
    refine Std.ExtTreeMap.ext_getElem? fun k ↦ ?_
    by_cases hk : n = k
    · simp only [getElem?_modifyTable, if_pos hk, if_true, Option.map_map]
    · simp only [getElem?_modifyTable, if_neg hk]
  exact congrArg (fun tables ↦ { db with tables }) htables

theorem modifyTable_mapSchema (n : String) (f g : Table → Table) (db : Database) :
    (db.modifyTable n (.mapSchema f)).modifyTable n (.mapSchema g)
      = db.modifyTable n (.mapSchema fun t ↦ g (f t)) :=
  modifyTable_modifyTable ..

theorem modifyTable_modifyColumn (n column : String) {f : Column → Column}
    (hf : ∀ c, (f c).name = c.name) (g : Column → Column) (db : Database) :
    (db.modifyTable n (.mapSchema (·.modifyColumn column f))).modifyTable n
      (.mapSchema (·.modifyColumn column g))
      = db.modifyTable n (.mapSchema (·.modifyColumn column (g ∘ f))) := by
  rw [modifyTable_mapSchema]
  exact congrArg (fun h ↦ db.modifyTable n (.mapSchema h))
    (funext fun t ↦ t.modifyColumn_modifyColumn column hf)

theorem modifyTable_log (n : String) (f : StoredTable → StoredTable) (sql : List String)
    (db : Database) :
    (db.log sql).modifyTable n f = (db.modifyTable n f).log sql := rfl

/-- What a change does does not depend on the statements before. -/
theorem effect_log (table : String) (a : AlterAction) (sql : List String) (db : Database) :
    a.effect table (db.log sql) = (a.effect table db).log sql := by
  cases a with
  | addColumn c | changeColumn old c =>
    rw [AlterAction.effect, AlterAction.effect]
    cases c.meaning? <;> rfl
  | dropIndex name =>
    have howner : (db.log sql).indexOwner? name = db.indexOwner? name := rfl
    rw [AlterAction.effect, AlterAction.effect, howner]
    cases db.indexOwner? name <;> rfl
  | _ => rfl

theorem foldl_effect_log (table : String) (as : List AlterAction) (sql : List String)
    (db : Database) :
    as.foldl (AlterAction.effect table) (db.log sql) =
      (as.foldl (AlterAction.effect table) db).log sql := by
  induction as generalizing db with
  | nil => rfl
  | cons a as ih => rw [List.foldl_cons, List.foldl_cons, effect_log, ih]

end Database

/-! ## Written changes -/

theorem LoweredColumn.Meant.kept_column {x : LoweredColumn} (h : x.Meant) :
    x.clause.column = x.column.kept := by
  have hdefault :
      (if x.defaultValue == some .commitTimestamp then some ColumnDefault.commitTimestamp else none)
      = x.defaultValue.filter (· == .commitTimestamp) := by
    rcases x.defaultValue with - | - | -
    all_goals rfl
  rw [ColumnClause.column, h.name_clause, h.commitTimestamp_clause, hdefault]
  rfl

theorem ColumnClause.column_plain {c : ColumnClause} (h : c.commitTimestamp = false) :
    c.plain.column = c.column := by
  rw [ColumnClause.plain, ← h]

/-- A column that is altered in two steps is altered as the clause says. -/
theorem ColumnClause.permit_alter {c : ColumnClause} (h : c.commitTimestamp = true) :
    Column.permit true ∘ Column.alter c.plain.column = Column.alter c.column := by
  have hdefault : c.column.defaultValue = some .commitTimestamp := if_pos h
  refine funext fun d ↦ ?_
  rw [Column.alter, hdefault]
  rfl

namespace Database

variable {db db' : Database}

theorem exists_log_of_updateDdl {x : String} (h : updateDdl [x] db = .ok () db') :
    ∃ m, db.run x = .ok m ∧ db' = m.log [x] :=
  exists_of_updateDdl_singleton h

theorem eq_of_run_alterColumn {table : String} {c : ColumnClause}
    (htame : (Ddl.alterColumn table c).Tame)
    (hok : db.run (Ddl.alterColumn table c).text = .ok db') :
    db' = db.modifyTable table
      (.mapSchema (·.modifyColumn c.name (Column.alter c.plain.column))) := by
  obtain ⟨t, ht, -, -, rfl⟩ := of_run_alterColumn htame hok
  exact store_eq_modifyTable ht (.mapSchema (·.modifyColumn c.name (Column.alter c.plain.column)))

theorem eq_of_run_allowCommitTimestamp {table column : String}
    (htame : (Ddl.allowCommitTimestamp table column).Tame)
    (hok : db.run (Ddl.allowCommitTimestamp table column).text = .ok db') :
    db' = db.modifyTable table (.mapSchema (·.modifyColumn column (Column.permit true))) := by
  obtain ⟨t, ht, -, rfl⟩ := of_run_allowCommitTimestamp htame hok
  exact store_eq_modifyTable ht (.mapSchema (·.modifyColumn column (Column.permit true)))

/-- A new column is written as what the database keeps of it. -/
theorem effect_of_addColumn {table : String} {c : ColumnDef} {x : LoweredColumn}
    (hlower : c.lower table = .ok x) (htame : (Ddl.addColumn table x.clause).Tame)
    (hok : updateDdl [(Ddl.addColumn table x.clause).text] db = .ok () db') :
    db' = ((AlterAction.addColumn c).effect table db).log
      [(Ddl.addColumn table x.clause).text] := by
  obtain ⟨rfl, hmeant⟩ := ColumnDef.of_lower hlower
  obtain ⟨m, hrun, rfl⟩ := exists_log_of_updateDdl hok
  obtain ⟨t, ht, -, -, rfl⟩ := of_run_addColumn htame hrun
  rw [AlterAction.effect, hmeant.meaning, hmeant.kept_column]
  exact congrArg (log _) (store_eq_modifyTable ht (.mapSchema (·.appendColumn x.column.kept)))

/-- A column is altered in two steps if it is to hold the commit timestamp, and in one otherwise. -/
theorem effect_of_changeColumn {table old : String} {c : ColumnDef} {x : LoweredColumn}
    (hlower : c.lower table = .ok x) (htame : (Ddl.alterColumn table x.clause).Tame)
    {sql : List String}
    (hsql : sql = (Ddl.alterColumn table x.clause :: if x.clause.commitTimestamp then
      [Ddl.allowCommitTimestamp table c.name] else []).map Ddl.text)
    (hok : updateDdl sql db = .ok () db') :
    db' = ((AlterAction.changeColumn old c).effect table db).log sql := by
  obtain ⟨rfl, hmeant⟩ := ColumnDef.of_lower hlower
  have heffect : (AlterAction.changeColumn old x.source).effect table db
      = db.modifyTable table
        (.mapSchema (·.modifyColumn x.clause.name (Column.alter x.clause.column))) := by
    rw [AlterAction.effect, hmeant.meaning, hmeant.kept_column, hmeant.name_clause]
  rw [heffect]
  rw [← hmeant.name_clause] at hsql
  rw [hsql, List.map_cons, ← List.singleton_append] at hok
  obtain ⟨m, halter, hallow⟩ := exists_of_updateDdl_append hok
  obtain ⟨u, hrun, rfl⟩ := exists_log_of_updateDdl halter
  have hu := eq_of_run_alterColumn htame hrun
  cases htimestamp : x.clause.commitTimestamp with
  | false =>
    rw [htimestamp, if_neg Bool.false_ne_true] at hallow hsql
    obtain ⟨-, rfl⟩ := EStateM.Result.ok.inj hallow
    rw [hsql, hu, ColumnClause.column_plain htimestamp]
    rfl
  | true =>
    rw [htimestamp, if_pos rfl] at hallow hsql
    obtain ⟨v, hrun, rfl⟩ := exists_log_of_updateDdl hallow
    rw [eq_of_run_allowCommitTimestamp htame hrun, hu, hsql, ← ColumnClause.permit_alter htimestamp,
      ← modifyTable_modifyColumn _ _ (Column.name_alter _), modifyTable_log, log_log]
    rfl

/-- The statements of a change do what it means. -/
theorem Orderly.effect_of_updateDdl_lowered (h : db.Orderly) {table : String} (htable : Tame table)
    {a : AlterAction}
    (hnames : ∀ n ∈ a.names, Tame n) {x : LoweredAction} (hlower : a.lower table = .ok x)
    (hok : updateDdl (x.ddl.map Ddl.text) db = .ok () db') :
    db'.Orderly ∧ db' = (a.effect table db).log (x.ddl.map Ddl.text) := by
  obtain ⟨htame, -⟩ := AlterAction.tame_of_lower htable hlower hnames
  have hmirrors : Mirrors True x.ddl x.delta := (AlterAction.mirrors_of_lower hlower).1
  refine ⟨ending_of_ok hok ▸ keeps_orderly_of_mirrors hmirrors htame db h, ?_⟩
  cases a with
  | addColumn c =>
    obtain ⟨column, hcolumn, hddl, -, -⟩ := AlterAction.addColumn_eq_ok hlower
    rw [hddl] at hok htame ⊢
    exact effect_of_addColumn hcolumn (htame _ List.mem_cons_self) hok
  | changeColumn old c =>
    obtain ⟨column, hcolumn, hddl, -, -⟩ := AlterAction.changeColumn_eq_ok hlower
    rw [hddl] at hok htame ⊢
    exact effect_of_changeColumn hcolumn (htame _ List.mem_cons_self) rfl hok
  | dropColumn column =>
    obtain rfl := Except.ok.inj hlower
    obtain ⟨m, hrun, rfl⟩ := exists_log_of_updateDdl hok
    obtain ⟨t, ht, -, -, -, rfl⟩ := of_run_dropColumn (htame _ List.mem_cons_self) hrun
    exact congrArg (log _) (store_eq_modifyTable ht (.eraseColumn column))
  | dropIndex name =>
    obtain rfl := Except.ok.inj hlower
    obtain ⟨m, hrun, rfl⟩ := exists_log_of_updateDdl hok
    obtain ⟨owner, t, howner, ht, rfl⟩ := of_run_dropIndex (htame _ List.mem_cons_self) hrun
    rw [AlterAction.effect, howner]
    exact congrArg (log _) (store_eq_modifyTable ht (.mapSchema (·.dropIndex name)))
  | addIndex i | addSpatialIndex i | addUniqueKey i =>
    obtain ⟨j, -, hj⟩ := bind_eq_ok hlower
    obtain rfl := Except.ok.inj hj
    obtain ⟨-, rfl⟩ := EStateM.Result.ok.inj hok
    exact (log_nil _).symm
  | addForeignKey key => contradiction
  | addPrimaryKey columns => contradiction

/-- The statements of changes do one after another what they mean. -/
theorem Orderly.foldl_effect_of_updateDdl (h : db.Orderly) {table : String} (htable : Tame table)
    {as : List AlterAction} (hnames : ∀ a ∈ as, ∀ n ∈ a.names, Tame n) {xs : List LoweredAction}
    (hlower : as.mapM (AlterAction.lower table) = .ok xs)
    (hok : updateDdl ((xs.flatMap (·.ddl)).map Ddl.text) db = .ok () db') :
    db'.Orderly ∧
      db' = (as.foldl (AlterAction.effect table) db).log ((xs.flatMap (·.ddl)).map Ddl.text) := by
  induction as generalizing xs db with
  | nil =>
    obtain rfl := Except.ok.inj hlower
    obtain ⟨-, rfl⟩ := EStateM.Result.ok.inj hok
    exact ⟨h, (log_nil _).symm⟩
  | cons a as ih =>
    obtain ⟨x, xs, hx, hxs, rfl⟩ := mapM_cons_eq_ok hlower
    rw [List.flatMap_cons, List.map_append] at hok ⊢
    obtain ⟨m, hfirst, hrest⟩ := exists_of_updateDdl_append hok
    obtain ⟨ha, has⟩ := List.forall_mem_cons.1 hnames
    obtain ⟨hm, rfl⟩ := h.effect_of_updateDdl_lowered htable ha hx hfirst
    obtain ⟨hdb', rfl⟩ := ih hm has hxs hrest
    refine ⟨hdb', ?_⟩
    rw [foldl_effect_log, log_log]
    rfl

end Database

/-! ## Written indices -/

namespace Table

theorem unkeyed_foldl_registerIndex (t : Table) (is : List Index) :
    { is.foldl registerIndex t with foreignKeys := [] }
      = is.foldl registerIndex { t with foreignKeys := [] } := by
  rw [foldl_registerIndex, foldl_registerIndex]

end Table

namespace Database

variable {db db' : Database}

theorem unkey_index (table : String) (is : List Index) (db : Database) :
    (db.index table is).unkey table = (db.unkey table).index table is := by
  rw [index, unkey, modifyTable_mapSchema, unkey, index, modifyTable_mapSchema]
  exact congrArg (fun f ↦ db.modifyTable table (.mapSchema f))
    (funext fun t ↦ t.unkeyed_foldl_registerIndex is)

theorem index_nil (table : String) (db : Database) : db.index table [] = db := by
  have htables : (db.index table []).tables = db.tables := by
    refine Std.ExtTreeMap.ext_getElem? fun k ↦ ?_
    rw [index, getElem?_modifyTable]
    split
    · rw [‹table = k›]
      exact congrFun Option.map_id _
    · rfl
  exact congrArg (fun tables ↦ { db with tables }) htables

theorem index_cons (table : String) (i : Index) (is : List Index) (db : Database) :
    db.index table (i :: is) = (db.index table [i]).index table is := by
  rw [index, index, index, modifyTable_mapSchema]
  rfl

/-- An index is put behind those of its table. What is made anew beside it is the foreign key. -/
theorem Orderly.unkey_of_run_createIndex (h : db.Orderly) {i : Index}
    (htame : (Ddl.createIndex i).Tame) (hok : db.run i.sql = .ok db') :
    db'.unkey i.table = (db.index i.table [i.listed]).unkey i.table := by
  obtain ⟨t, ht, -, -, rfl⟩ := h.of_run_createIndex htame hok
  have hstore := store_eq_modifyTable ht (.mapSchema (·.restored.registerIndex i.listed))
  rw [StoredTable.mapSchema] at hstore
  rw [hstore, unkey, modifyTable_mapSchema, unkey_index, unkey, index, modifyTable_mapSchema]
  refine congrArg (fun f ↦ db.modifyTable i.table (.mapSchema f)) (funext fun t ↦ ?_)
  exact t.restored.unkeyed_foldl_registerIndex [i.listed]

/-- Indices are put behind those of their table one after another. -/
theorem Orderly.unkey_of_updateDdl_indices (h : db.Orderly) {table : String} {is : List Index}
    (htable : ∀ i ∈ is, i.table = table) (hcolumns : ∀ i ∈ is, i.columns ≠ [])
    (htame : ∀ i ∈ is, (Ddl.createIndex i).Tame)
    (hok : updateDdl ((is.map .createIndex).map Ddl.text) db = .ok () db') :
    db'.unkey table
      = ((db.index table (is.map Index.listed)).unkey table).log
        ((is.map .createIndex).map Ddl.text) := by
  induction is generalizing db with
  | nil =>
    obtain ⟨-, rfl⟩ := EStateM.Result.ok.inj hok
    rw [List.map_nil, List.map_nil, List.map_nil, log_nil, index_nil]
  | cons i is ih =>
    rw [List.map_cons, List.map_cons, ← List.singleton_append] at hok ⊢
    obtain ⟨m, hfirst, hrest⟩ := exists_of_updateDdl_append hok
    obtain ⟨rfl, htable⟩ := List.forall_mem_cons.1 htable
    obtain ⟨hne, hcolumns⟩ := List.forall_mem_cons.1 hcolumns
    obtain ⟨hi, htame⟩ := List.forall_mem_cons.1 htame
    have hmirrors : Mirrors True _ _ := .createIndex hne
    have hm : m.Orderly :=
      ending_of_ok hfirst ▸ keeps_orderly_of_mirrors hmirrors (List.forall_mem_singleton.2 hi) db h
    obtain ⟨u, hrun, rfl⟩ := exists_log_of_updateDdl hfirst
    have hu := h.unkey_of_run_createIndex hi hrun
    rw [ih hm htable hcolumns htame hrest]
    have hlog : (u.log [(Ddl.createIndex i).text]).index i.table (is.map Index.listed)
        = (u.index i.table (is.map Index.listed)).log [(Ddl.createIndex i).text] := rfl
    have hunkey (v : Database) (sql : List String) :
        (v.log sql).unkey i.table = (v.unkey i.table).log sql := rfl
    rw [hlog, hunkey, log_log, List.map_cons, index_cons, unkey_index, unkey_index, hu]

end Database

namespace AlterTable

variable {a : AlterTable} {l : Lowered} {db db' : Database}

/-- A statement that is accepted in full does to the database what its changes mean, one after
another and the indices that they ask for last. -/
theorem effect_of_updateDdl (h : db.Managed Tame)
    (hnames : ∀ n ∈ (Statement.alterTable a).names, Tame n)
    (hlower : a.lower = .ok l) (hok : Database.updateDdl l.sql db = .ok () db') :
    db'.unkey a.table = (((a.effect db).index a.table (a.indices.map Index.listed)).log l.sql).unkey
      a.table := by
  obtain ⟨xs, hxs, hddl, hcolumns⟩ := lower_eq_ok hlower
  have htame := tame_of_lower hlower hnames
  have hactions : ∀ b ∈ a.actions, ∀ n ∈ b.names, Tame n := fun b hb n hn ↦
    hnames n (List.mem_cons_of_mem _ (List.mem_flatMap.2 ⟨b, hb, hn⟩))
  have hcreate : ∀ i ∈ a.indices, Ddl.createIndex i ∈ l.ddl := fun i hi ↦
    hddl ▸ List.mem_append_right _ (List.mem_map_of_mem hi)
  have htable : ∀ i ∈ a.indices, i.table = a.table := fun i hi ↦
    subjects_of_lower hlower _ (hcreate i hi) _ List.mem_cons_self
  rw [Lowered.sql, hddl, List.map_append] at hok ⊢
  obtain ⟨m, hchanges, hindices⟩ := Database.exists_of_updateDdl_append hok
  obtain ⟨hm, rfl⟩ :=
    h.orderly.foldl_effect_of_updateDdl (hnames _ List.mem_cons_self) hactions hxs hchanges
  rw [hm.unkey_of_updateDdl_indices htable hcolumns (fun i hi ↦ htame _ (hcreate i hi)) hindices]
  rw [← Database.log_log]
  rfl

/-- What can be seen of a table. -/
def glance (n : String) (db : Database) : Option (List Column × List Index × List (List String)) :=
  db.tables[n]?.map fun t ↦ (t.schema.columns, t.schema.indices, t.rows.values.map (·.keys))

/-- A table with a key and an index. -/
def gauges : List Statement :=
  [.createTable
    { table := "gauge"
      definitions :=
        [.column { name := "no", dataType := ⟨"int", none, false⟩ },
          .column { name := "note", dataType := ⟨"varchar", some (.size 80), false⟩ },
          .column { name := "level", dataType := ⟨"int", none, false⟩ },
          .primaryKey [⟨"no", .asc⟩],
          .index .plain { name := some "i", columns := [⟨"level", .asc⟩] }] }]

def reading : Database.Call :=
  .upsertRow "gauge" ["no", "note", "level"] [.ofNat 1, .string "ice", .ofNat 7]

/-- Changes that ask for an index before its column is altered, and drop a column that a row has a
value in. -/
def survey : AlterTable where
  table := "gauge"
  actions :=
    [.dropIndex "i",
     .addUniqueKey { name := some "k", columns := [⟨"level", .desc⟩], storing := [""] },
      .changeColumn "level"
        { name := "level", dataType := ⟨"float", none, false⟩, notNull := true },
      .addColumn
        { name := "read", dataType := ⟨"datetime", none, false⟩,
          defaultExpr := some .currentTimestamp },
      .dropColumn "note"]

theorem surveyed :
    (Statement.lowerAll gauges).toOption.bind (fun l ↦ survey.lower.toOption.bind fun x ↦
        seen (fun _ ↦ glance "gauge") (Database.updateDdl x.sql)
          (reading.apply (ending (l.ddl.forM Database.carryOut) {})))
      = some (some
        ([{ name := "no", type := .int64, isPrimary := true },
            { name := "level", type := .float64, nullable := false, isUnique := true },
            { name := "read", type := .timestamp, defaultValue := some .commitTimestamp }],
          [{ name := "k", table := "gauge", columns := [⟨"level", .desc⟩], unique := true }],
          [["level", "no"]])) := by
  decide +kernel

theorem effect_survey :
    ∃ db l db', db.Managed Tame ∧ survey.lower = .ok l ∧ Database.updateDdl l.sql db = .ok () db' ∧
      glance "gauge" db' = some
        ([{ name := "no", type := .int64, isPrimary := true },
            { name := "level", type := .float64, nullable := false, isUnique := true },
            { name := "read", type := .timestamp, defaultValue := some .commitTimestamp }],
          [{ name := "k", table := "gauge", columns := [⟨"level", .desc⟩], unique := true }],
          [["level", "no"]]) ∧
      db'.unkey "gauge"
        = (((survey.effect db).index "gauge" (survey.indices.map Index.listed)).log l.sql).unkey
          "gauge" := by
  obtain ⟨l, hl, h⟩ := Option.bind_eq_some_iff.1 surveyed
  obtain ⟨x, hx, hseen⟩ := Option.bind_eq_some_iff.1 h
  have hgauges : Statement.Plain gauges := by decide +kernel
  have hmanaged : Database.Managed Tame (reading.apply (ending (Database.updateDdl l.sql) {})) :=
    .call _ (.batch .empty (by decide) (eq_ok_of_toOption hl)) nofun
  have hlower := eq_ok_of_toOption hx
  rw [← (hgauges.agree_updateDdl (eq_ok_of_toOption hl)).ending_eq Database.orderly_empty] at hseen
  obtain ⟨_, db', hok, hglance⟩ := exists_of_seen hseen
  exact ⟨_, x, db', hmanaged, hlower, hok, hglance,
    effect_of_updateDdl hmanaged (by decide) hlower hok⟩

/-- Whether statements with tame names do what they mean to databases with names of a kind, when the
indices that they ask for are listed in some way. -/
def Faithful (p : String → Prop) (f : Index → Index) : Prop :=
  ∀ (a : AlterTable) (l : Lowered) (db db' : Database), db.Managed p →
    (∀ n ∈ (Statement.alterTable a).names, Tame n) → a.lower = .ok l →
    Database.updateDdl l.sql db = .ok () db' →
      db'.unkey a.table = (((a.effect db).index a.table (a.indices.map f)).log l.sql).unkey a.table

/-- What is looked at in a table: the defaults of its columns, and what its indices store. -/
structure View where
  defaults : List (Option ColumnDefault)
  storing : List (List String)
  deriving DecidableEq

/-- A table as it is when a statement has been accepted, and as it is to be. -/
def outlook (statements : List Statement) (a : AlterTable) (f : Index → Index) :
    Option (Option View × Option View) :=
  (Statement.lowerAll statements).toOption.bind fun l ↦ a.lower.toOption.bind fun x ↦
    let db := ending (Database.updateDdl l.sql) {}
    ((Database.updateDdl x.sql).run' db).map fun _ ↦
      (view ((ending (Database.updateDdl x.sql) db).unkey a.table),
        view ((((a.effect db).index a.table (a.indices.map f)).log x.sql).unkey a.table))
where
  view (db : Database) : Option View :=
    db.tables[a.table]?.map fun t ↦ ⟨t.schema.columns.map (·.defaultValue),
      t.schema.indices.map (·.storing)⟩

namespace Faithful

variable {p q : String → Prop} {f : Index → Index}

theorem anti (h : Faithful q f) (hpq : ∀ n, p n → q n) : Faithful p f :=
  fun a l db db' hdb ↦ h a l db db' (hdb.mono hpq)

theorem eq_of_outlook (h : Faithful p f) {statements : List Statement}
    (hp : ∀ s ∈ statements, ∀ n ∈ s.names, p n) {a : AlterTable}
    (htame : ∀ n ∈ (Statement.alterTable a).names, Tame n) {x y : Option View}
    (hxy : outlook statements a f = some (x, y)) : x = y := by
  obtain ⟨l, hl, hxy⟩ := Option.bind_eq_some_iff.1 hxy
  obtain ⟨m, hm, hxy⟩ := Option.bind_eq_some_iff.1 hxy
  obtain ⟨_, hok, hxy⟩ := Option.map_eq_some_iff.1 hxy
  obtain ⟨rfl, rfl⟩ := Prod.mk.inj hxy
  exact congrArg (outlook.view a) (h a m _ _ (.batch .empty hp (eq_ok_of_toOption hl)) htame
    (eq_ok_of_toOption hm) (eq_ok_of_run' hok))

end Faithful

/-- A column whose name is read as a shorter one with a default. -/
def doubtful : List Statement :=
  [.createTable
    { table := "t"
      definitions :=
        [.column { name := "b", dataType := ⟨"int", none, false⟩ },
          .column
            { name := "a\\\x60 int64 default (1), foreign key \x60",
              dataType := ⟨"int", none, false⟩ }] }]

def clear : List Statement :=
  [.createTable
    { table := "t", definitions := [.column { name := "b", dataType := ⟨"int", none, false⟩ }] }]

def indexing (storing : List String) : AlterTable where
  table := "t"
  actions := [.addIndex { name := some "i", columns := [⟨"b", .asc⟩], storing }]

theorem outlooks :
    outlook doubtful (indexing []) Index.listed
        = some (some ⟨[none, none], [[]]⟩, some ⟨[none, some (.expression "1")], [[]]⟩) ∧
      outlook clear (indexing [""]) id = some (some ⟨[none], [[]]⟩, some ⟨[none], [[""]]⟩) := by
  decide +kernel

/-- An index costs a column its default if there may be any names in the database, and stored
columns without names are lost even if there may not. -/
theorem not_faithful :
    ¬Faithful (fun _ ↦ True) id ∧ ¬Faithful (fun _ ↦ True) Index.listed ∧ ¬Faithful Tame id := by
  have hid : ¬Faithful Tame id := fun h ↦
    absurd (h.eq_of_outlook (by decide) (by decide) outlooks.2) (by decide)
  have hlisted : ¬Faithful (fun _ ↦ True) Index.listed := fun h ↦
    absurd (h.eq_of_outlook (fun _ _ _ _ ↦ trivial) (by decide) outlooks.1) (by decide)
  exact ⟨fun h ↦ hid (h.anti fun _ _ ↦ trivial), hlisted, hid⟩

end AlterTable

end SchemaLedger
