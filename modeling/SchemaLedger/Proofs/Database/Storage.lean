import Mathlib
import SchemaLedger.Database.Storage
import SchemaLedger.Proofs.Database.Fitting

/-!
# Tables and rows apart

On a storage, where tables and rows are kept in two maps, every program does step by step what its
counterpart does on a database, where each table holds its rows: their outcomes are the same, and
where the one ends is how the other is kept. So a storage that comes about by calls is that of a
database that comes about by the same calls. Its two maps are about the same tables, although a
storage might be otherwise, and what is known of rows in databases holds of the rows that it keeps.
-/

namespace SchemaLedger

/-- The rows of all tables, by table and key. -/
def Database.rows (db : Database) : Std.ExtTreeMap String (Std.ExtTreeMap String Row) :=
  db.tables.map fun _ t ↦ t.rows

/-- How a database is kept. -/
def Database.storage (db : Database) : Storage where
  tables := db.schema
  rows := db.rows
  appliedDdl := db.appliedDdl
  writes := db.writes
  writeLimit := db.writeLimit

namespace Database

variable {db : Database} {n : String}

theorem getElem?_rows (db : Database) (n : String) : db.rows[n]? = db.tables[n]?.map (·.rows) :=
  Std.ExtTreeMap.getElem?_map

theorem getElem?_storage_tables (db : Database) (n : String) :
    db.storage.tables[n]? = db.tables[n]?.map (·.schema) :=
  getElem?_schema db n

theorem getElem?_storage_rows (db : Database) (n : String) :
    db.storage.rows[n]? = db.tables[n]?.map (·.rows) :=
  getElem?_rows db n

theorem contains_storage_tables (db : Database) (n : String) :
    db.storage.tables.contains n = db.tables.contains n := by
  rw [Std.ExtTreeMap.contains_eq_isSome_getElem?, Std.ExtTreeMap.contains_eq_isSome_getElem?,
    getElem?_storage_tables, Option.isSome_map]

/-- A storage is told from its entries. -/
theorem storage_eq {s : Storage}
    (htables : ∀ n : String, s.tables[n]? = db.tables[n]?.map (·.schema))
    (hrows : ∀ n : String, s.rows[n]? = db.tables[n]?.map (·.rows))
    (hlog : s.appliedDdl = db.appliedDdl) (hwrites : s.writes = db.writes)
    (hlimit : s.writeLimit = db.writeLimit) : s = db.storage := by
  obtain ⟨tables, rows, appliedDdl, writes, writeLimit⟩ := s
  obtain rfl : tables = db.schema :=
    Std.ExtTreeMap.ext_getElem? fun n ↦ (htables n).trans (getElem?_schema db n).symm
  obtain rfl : rows = db.rows :=
    Std.ExtTreeMap.ext_getElem? fun n ↦ (hrows n).trans (getElem?_rows db n).symm
  obtain rfl : appliedDdl = db.appliedDdl := hlog
  obtain rfl : writes = db.writes := hwrites
  obtain rfl : writeLimit = db.writeLimit := hlimit
  rfl

end Database

namespace Storage

variable {ε α β : Type} {db : Database} {n : String}

/-- The same outcome where the database that is reached is kept. -/
def kept : EStateM.Result ε Database α → EStateM.Result ε Storage α
  | .ok a db => .ok a db.storage
  | .error e db => .error e db.storage

/-- From the storage of a database a program does what another does from the database. -/
def Follows (m : StorageM ε α) (d : EStateM ε Database α) (db : Database) : Prop :=
  m db.storage = kept (d db)

namespace Follows

variable {m : StorageM ε α} {d : EStateM ε Database α}

theorem pure (a : α) (db : Database) :
    Follows (Pure.pure a : StorageM ε α) (Pure.pure a : EStateM ε Database α) db := rfl

theorem throw (e : ε) (db : Database) :
    Follows (MonadExcept.throw e : StorageM ε α) (MonadExcept.throw e : EStateM ε Database α) db :=
  rfl

theorem bind {f : α → StorageM ε β} {g : α → EStateM ε Database β} (h : Follows m d db)
    (hf : ∀ a db', d db = .ok a db' → Follows (f a) (g a) db') :
    Follows (m >>= f) (d >>= g) db := by
  rw [Follows] at h ⊢
  cases hd : d db with
  | ok a db' =>
    rw [hd] at h
    rw [run_bind_of_ok h, run_bind_of_ok hd]
    exact hf a db' hd
  | error e db' =>
    rw [hd] at h
    rw [run_bind_of_error h, run_bind_of_error hd]
    rfl

/-- What is done next may depend on what is kept. -/
theorem get_bind {f : Storage → StorageM ε α} {g : Database → EStateM ε Database α}
    (h : Follows (f db.storage) (g db) db) : Follows (get >>= f) (get >>= g) db := h

theorem modify {f : Storage → Storage} {g : Database → Database}
    (h : f db.storage = (g db).storage) :
    Follows (modify f : StorageM ε Unit) (modify g : EStateM ε Database Unit) db :=
  congrArg (EStateM.Result.ok ()) h

theorem ite {c : Prop} [Decidable c] {m' : StorageM ε α} {d' : EStateM ε Database α}
    (h : c → Follows m d db) (h' : ¬c → Follows m' d' db) :
    Follows (if c then m else m') (if c then d else d') db := by
  split
  · exact h ‹_›
  · exact h' ‹_›

theorem forM {xs : List α} {f : α → StorageM ε PUnit} {g : α → EStateM ε Database PUnit}
    (h : ∀ x db, Follows (f x) (g x) db) (db : Database) : Follows (xs.forM f) (xs.forM g) db := by
  induction xs generalizing db with
  | nil => exact .pure _ db
  | cons x xs ih => exact .bind (h x db) fun _ db' _ ↦ ih db'

end Follows

/-! ## Steps -/

theorem follows_reading (read : Except SchemaError α) (db : Database) :
    Follows (reading read) (Edit.reading read) db := by
  cases read <;> rfl

/-- A table that is looked up is the same with its rows or without, and where there is none both
programs end with the same error. -/
theorem follows_lookup_bind (e : ε) {f : Table → StorageM ε α}
    {g : StoredTable → EStateM ε Database α}
    (h : ∀ t, db.tables[n]? = some t → Follows (f t.schema) (g t) db) :
    Follows
      ((do match (← get).tables[n]? with | some t => return t | none => throw e) >>= f)
      ((do match (← get).tables[n]? with | some t => return t | none => throw e) >>= g) db := by
  rw [bind_assoc, bind_assoc]
  refine .get_bind ?_
  rw [db.getElem?_storage_tables]
  cases ht : db.tables[n]? with
  | none => exact .throw e db
  | some t => exact h t ht

theorem follows_demand_bind {f : Table → StorageM Refusal α} {g : StoredTable → Edit α}
    (h : ∀ t, db.tables[n]? = some t → Follows (f t.schema) (g t) db) :
    Follows (demand n >>= f) (Edit.demand n >>= g) db := by
  rw [demand, Edit.demand]
  exact follows_lookup_bind (.rejected (.tableMissing n)) h

/-- A table that is put together with its rows is put in both maps. -/
theorem follows_put (name : String) (t : Table) (db : Database) :
    Follows (putTable name t >>= fun _ ↦ putRows name ∅) (Edit.put name { schema := t }) db := by
  refine congrArg (EStateM.Result.ok ()) (Database.storage_eq (fun k ↦ ?_) (fun k ↦ ?_) rfl rfl rfl)
  all_goals
    dsimp only
    rw [Std.ExtTreeMap.getElem?_insert, Std.ExtTreeMap.getElem?_insert]
    split
    · rfl
  · exact db.getElem?_storage_tables k
  · exact db.getElem?_storage_rows k

/-- A table that is taken out together with its rows is taken out of both maps. -/
theorem follows_takeOut (name : String) (db : Database) :
    Follows (discard (takeTable name) >>= fun _ ↦ discard (takeRows name) : StorageM Refusal Unit)
      (discard (Edit.takeOut name)) db := by
  refine congrArg (EStateM.Result.ok ()) (Database.storage_eq (fun k ↦ ?_) (fun k ↦ ?_) rfl rfl rfl)
  all_goals
    dsimp only
    rw [Std.ExtTreeMap.getElem?_erase, Std.ExtTreeMap.getElem?_erase]
    split
    · rfl
  · exact db.getElem?_storage_tables k
  · exact db.getElem?_storage_rows k

theorem follows_changeSchema (name : String) (f : Table → Table) (db : Database) :
    Follows (changeTable name f) (Edit.changeSchema name f) db := by
  refine congrArg (EStateM.Result.ok ()) (Database.storage_eq (fun k ↦ ?_) (fun k ↦ ?_) rfl rfl rfl)
  · dsimp only
    rw [Std.ExtTreeMap.getElem?_modify, Std.ExtTreeMap.getElem?_modify, db.getElem?_storage_tables,
      db.getElem?_storage_tables, Option.map_map]
    split
    · rw [Option.map_map]
      rfl
    · rfl
  · dsimp only
    rw [Std.ExtTreeMap.getElem?_modify, db.getElem?_storage_rows]
    split
    · rename_i hk
      rw [Std.LawfulEqOrd.compare_eq_iff_eq.1 hk, Option.map_map]
      rfl
    · rfl

theorem follows_changeRows (name : String)
    (f : Std.ExtTreeMap String Row → Std.ExtTreeMap String Row) (db : Database) :
    Follows (changeRows name f : StorageM ε Unit) (modify (Database.modifyRows name f)) db := by
  refine .modify (Database.storage_eq (fun k ↦ ?_) (fun k ↦ ?_) rfl rfl rfl)
  · rw [← Database.getElem?_schema, Database.schema_modifyRows]
    rfl
  · dsimp only
    rw [Std.ExtTreeMap.getElem?_modify, Database.getElem?_modifyRows, db.getElem?_storage_rows,
      db.getElem?_storage_rows, Option.map_map]
    simp only [Std.LawfulEqOrd.compare_eq_iff_eq]
    split
    · rw [Option.map_map]
      rfl
    · rfl

/-- To put a table in place of one that is there is to change that one. -/
theorem follows_putTable {t : StoredTable} (ht : db.tables[n]? = some t) (u : Table) :
    Follows (putTable n u) (Edit.changeSchema n fun _ ↦ u) db := by
  have hschema : db.schema[n]? = some t.schema := by
    rw [Database.getElem?_schema, ht, Option.map_some]
  have hput : (putTable n u : StorageM Refusal Unit) db.storage
      = changeTable n (fun _ ↦ u) db.storage := by
    change EStateM.Result.ok () { db.storage with tables := db.schema.insert n u } = _
    rw [← modify_eq_insert hschema fun _ ↦ u]
    rfl
  exact hput.trans (follows_changeSchema n (fun _ ↦ u) db)

/-! ## Statements -/

theorem follows_createTable (statement name : String) (ifNotExists : Bool) (db : Database) :
    Follows (createTable statement name ifNotExists) (Edit.createTable statement name ifNotExists)
      db := by
  refine .get_bind ?_
  rw [db.contains_storage_tables]
  refine .ite (fun _ ↦ .ite (fun _ ↦ .pure _ _) fun _ ↦ .throw _ _) fun _ ↦
    .bind (follows_reading _ _) fun parsed db' _ ↦ ?_
  cases parsed[name]? with
  | none => exact .throw _ _
  | some table =>
    dsimp only
    cases table.interleave with
    | none => exact follows_put name table db'
    | some i =>
      refine .get_bind ?_
      rw [db'.contains_storage_tables]
      split
      · exact follows_put name table db'
      · exact .throw _ _

theorem follows_dropTable (name : String) (ifExists : Bool) (db : Database) :
    Follows (dropTable name ifExists) (Edit.dropTable name ifExists) db := by
  refine .get_bind ?_
  rw [db.contains_storage_tables]
  refine .ite (fun _ ↦ ?_) fun _ ↦ .ite (fun _ ↦ .pure _ _) fun _ ↦ .throw _ _
  have hchild : (db.storage.tables.values.find? fun t ↦ t.interleave.any (·.parent == name))
      = db.child? name := rfl
  rw [hchild]
  cases db.child? name with
  | none => exact follows_takeOut name db
  | some child => exact .throw _ _

theorem follows_createIndex (statement index table : String) (db : Database) :
    Follows (createIndex statement index table) (Edit.createIndex statement index table) db := by
  refine .get_bind ?_
  have howner : db.storage.indexOwner? index = db.indexOwner? index := rfl
  rw [howner]
  refine .ite (fun _ ↦ .throw _ _) fun _ ↦ follows_demand_bind fun t ht ↦ ?_
  have hreading {β : Type} (read : Except SchemaError β) (a : β) (db' : Database)
      (hread : Edit.reading read db = .ok a db') : db' = db := by
    cases read with
    | error e => contradiction
    | ok b => exact (EStateM.Result.ok.inj hread).2.symm
  refine .bind (follows_reading _ _) fun own db₁ h₁ ↦
    .bind (follows_reading _ _) fun parsed db₂ h₂ ↦ ?_
  obtain rfl := hreading _ _ _ h₁
  obtain rfl := hreading _ _ _ h₂
  cases parsed[table]? with
  | none => exact .throw _ _
  | some u => exact follows_putTable ht u

theorem follows_dropIndex (index : String) (db : Database) :
    Follows (dropIndex index) (Edit.dropIndex index) db := by
  refine .get_bind ?_
  have howner : db.storage.indexOwner? index = db.indexOwner? index := rfl
  have hunique (t : Table) (c : Column) : (t.uniques.flatMap (·.columns)).contains c.name
      = t.uniques.any (·.columns.contains c.name) := by
    rw [List.contains_eq_any_beq, List.any_flatMap]
    simp only [List.contains_eq_any_beq]
  rw [howner]
  cases db.indexOwner? index with
  | none => exact .throw _ _
  | some owner =>
    refine follows_demand_bind fun t _ ↦ .bind (follows_changeSchema _ _ _) fun _ db₁ _ ↦
      .bind (follows_changeSchema _ _ _) fun _ db₂ _ ↦ ?_
    simp only [hunique]
    exact follows_changeSchema _ _ _

theorem follows_addColumn (table : String) (text : List Char) (db : Database) :
    Follows (addColumn table text) (Edit.addColumn table text) db :=
  .bind (follows_reading _ _) fun _ _ _ ↦ follows_demand_bind fun _ _ ↦
    .ite (fun _ ↦ .throw _ _) fun _ ↦ follows_changeSchema _ _ _

theorem follows_dropColumn (table column : String) (db : Database) :
    Follows (dropColumn table column) (Edit.dropColumn table column) db :=
  follows_demand_bind fun _ _ ↦ .ite (fun _ ↦ .throw _ _) fun _ ↦ .ite (fun _ ↦ .throw _ _) fun _ ↦
    .ite (fun _ ↦ .throw _ _) fun _ ↦
      .bind (follows_changeSchema _ _ _) fun _ _ _ ↦ follows_changeRows _ _ _

theorem follows_allowCommitTimestamp (table column : String) (allowed : Bool) (db : Database) :
    Follows (allowCommitTimestamp table column allowed)
      (Edit.allowCommitTimestamp table column allowed) db :=
  follows_demand_bind fun _ _ ↦ .ite (fun _ ↦ .throw _ _) fun _ ↦ follows_changeSchema _ _ _

theorem follows_alterColumn (table : String) (text : List Char) (db : Database) :
    Follows (alterColumn table text) (Edit.alterColumn table text) db :=
  .bind (follows_reading _ _) fun _ _ _ ↦ follows_demand_bind fun _ _ ↦
    .ite (fun _ ↦ .throw _ _) fun _ ↦ follows_changeSchema _ _ _

theorem takeTable_run (name : String) (db : Database) :
    (takeTable name : StorageM ε (Option Table)) db.storage
      = .ok (db.tables[name]?.map (·.schema)) { db.storage with tables := db.schema.erase name } := by
  rw [← Database.getElem?_schema]
  rfl

/-- When the rows have followed, both maps have the new name in place of the old one. -/
theorem follows_renameTable (old new : String) (db : Database) :
    Follows (renameTable old new) (Edit.renameTable old new) db := by
  refine .get_bind ?_
  rw [db.contains_storage_tables]
  refine .ite (fun _ ↦ .throw _ _) fun _ ↦ ?_
  have htake := takeTable_run (ε := Refusal) old db
  cases ht : db.tables[old]? with
  | none =>
    have hschema : db.schema.erase old = db.schema :=
      erase_eq_self (by rw [Database.getElem?_schema, ht, Option.map_none])
    rw [ht, hschema] at htake
    rw [Follows, run_bind_of_ok htake, run_bind_of_ok (Edit.takeOut_run_of_none ht)]
    rfl
  | some t =>
    rw [ht] at htake
    rw [Follows, run_bind_of_ok htake, run_bind_of_ok (Edit.takeOut_run_of_some ht)]
    refine congrArg (EStateM.Result.ok ())
      (Database.storage_eq (fun k ↦ ?tables) (fun k ↦ ?rows) rfl rfl rfl)
    case tables =>
      dsimp only
      rw [Std.ExtTreeMap.getElem?_insert, Std.ExtTreeMap.getElem?_insert,
        Std.ExtTreeMap.getElem?_map, Std.ExtTreeMap.getElem?_map, Std.ExtTreeMap.getElem?_erase,
        Std.ExtTreeMap.getElem?_erase, Database.getElem?_schema]
      split
      · rfl
      · split
        · rfl
        · rw [Option.map_map, Option.map_map]
          rfl
    case rows =>
      dsimp only
      rw [Std.ExtTreeMap.getElem?_insert, Std.ExtTreeMap.getElem?_insert,
        Std.ExtTreeMap.getElem?_map, Std.ExtTreeMap.getElem?_erase, Std.ExtTreeMap.getElem?_erase,
        db.getElem?_storage_rows, db.getElem?_storage_rows, ht]
      split
      · rfl
      · split
        · rfl
        · rw [Option.map_map]
          rfl

theorem follows_alterTable (table : String) (action : TableAction) (db : Database) :
    Follows (alterTable table action) (Edit.alterTable table action) db := by
  cases action with
  | addColumn text => exact follows_addColumn table text db
  | dropColumn column => exact follows_dropColumn table column db
  | allowCommitTimestamp column allowed =>
    exact follows_allowCommitTimestamp table column allowed db
  | alterColumn text => exact follows_alterColumn table text db
  | renameTo new => exact follows_renameTable table new db

/-- Whatever its text, a statement does the same where tables and rows are apart. -/
theorem follows_perform (statement : String) (db : Database) :
    Follows (perform statement) (Edit.perform statement) db := by
  rw [perform, Edit.perform]
  cases Command.ofText? statement with
  | none => exact .throw _ _
  | some command =>
    cases command with
    | createTable name ifNotExists => exact follows_createTable statement name ifNotExists db
    | createIndex name table => exact follows_createIndex statement name table db
    | dropTable name ifExists => exact follows_dropTable name ifExists db
    | dropIndex name => exact follows_dropIndex name db
    | alterTable table action =>
      cases action with
      | none => exact .throw _ _
      | some action => exact follows_alterTable table action db

/-! ## Calls -/

theorem follows_execute (statement : String) (db : Database) :
    Follows (execute statement) (Database.execute statement) db := by
  refine .bind ?_ fun _ db' _ ↦ .modify rfl
  have h := follows_perform statement db
  rw [Follows] at h ⊢
  rw [EStateM.adaptExcept, EStateM.adaptExcept, h]
  cases Edit.perform statement db <;> rfl

theorem follows_updateDdl (statements : List String) (db : Database) :
    Follows (updateDdl statements) (Database.updateDdl statements) db :=
  .forM follows_execute db

theorem follows_schemaDdl (db : Database) : Follows schemaDdl Database.schemaDdl db := by
  refine .get_bind ?_
  have htables : db.storage.tables = db.schema := rfl
  rw [htables]
  cases Database.dumpStatements db.schema <;> rfl

theorem follows_tableFor_bind {operation : String} {f : Table → StorageM PassError α}
    {g : StoredTable → DatabaseM α}
    (h : ∀ t, db.tables[n]? = some t → Follows (f t.schema) (g t) db) :
    Follows (tableFor operation n >>= f) (Database.tableFor operation n >>= g) db := by
  rw [tableFor, Database.tableFor]
  exact follows_lookup_bind (.client operation ("table '" ++ n ++ "' not found")) h

theorem follows_recordWrite (operation : String) (db : Database) :
    Follows (recordWrite operation) (Database.recordWrite operation) db := by
  refine .get_bind ?_
  change Follows (if db.writeLimit.any (· ≤ db.writes) then _ else _) _ db
  exact .ite (fun _ ↦ .throw _ _) fun _ ↦ rfl

theorem follows_readRows (table : String) (columns : List String) (db : Database) :
    Follows (readRows table columns) (Database.readRows table columns) db := by
  refine follows_tableFor_bind fun t ht ↦ ?_
  cases columns.find? (!t.schema.hasColumn ·) with
  | some missing => exact .throw _ _
  | none =>
    have hrows := db.getElem?_storage_rows table
    rw [ht] at hrows
    dsimp only
    rw [Follows, run_bind_of_ok (m := get) (a := db.storage) (t := db.storage) rfl, hrows]
    rfl

/-- The rows that are kept under a name are those of its table, and there are none without a
table. -/
theorem rowsOf_storage (db : Database) (name : String) :
    db.storage.rowsOf name = db.rowsOf name := by
  rw [rowsOf, Database.rowsOf, db.getElem?_storage_rows, Option.map_map]
  rfl

/-- To put fields over a row one by one is to put the row of these fields over it. -/
theorem union_mergeRow (old : Option Row) (fields : List (String × Json)) :
    old.getD ∅ ∪ Database.mergeRow none fields = Database.mergeRow old fields := by
  refine Std.ExtTreeMap.ext_getElem? fun c ↦ ?_
  rw [Std.ExtTreeMap.getElem?_union, Database.getElem?_mergeRow old]

theorem follows_upsertRow (table : String) (columns : List String) (values : List Json)
    (db : Database) :
    Follows (upsertRow table columns values) (Database.upsertRow table columns values) db := by
  rw [upsertRow, Database.upsertRow]
  dsimp only
  refine .ite (fun _ ↦ .throw _ _) fun _ ↦ follows_tableFor_bind fun t ht ↦ ?_
  cases columns.find? (!t.schema.hasColumn ·) with
  | some missing => exact .throw _ _
  | none =>
    dsimp only
    cases Database.keyValues t.schema.primaryKey (Database.mergeRow none (columns.zip values)) with
    | error missing => exact .throw _ _
    | ok key =>
      refine .bind (follows_recordWrite _ _) fun _ db' hwrite ↦ .modify ?_
      obtain rfl : db' = db.counted := by
        rcases Database.recordWrite_outcome "upsert_row" db with ⟨-, e, he⟩ | ⟨-, hok⟩
        · rw [he] at hwrite
          contradiction
        · rw [hok] at hwrite
          exact (EStateM.Result.ok.inj hwrite).2.symm
      have hrows := db.getElem?_storage_rows table
      rw [ht] at hrows
      refine Database.storage_eq (fun k ↦ ?_) (fun k ↦ ?_) rfl rfl rfl
      · rw [← Database.getElem?_schema, Database.schema_modifyRows]
        rfl
      · dsimp only
        rw [Std.ExtTreeMap.getElem?_alter, Database.getElem?_modifyRows]
        simp only [Std.LawfulEqOrd.compare_eq_iff_eq, union_mergeRow]
        split
        · change some ((db.storage.rows[table]?.getD ∅).alter _ _)
            = (db.tables[table]?.map _).map _
          rw [hrows, ht]
          rfl
        · exact db.getElem?_storage_rows k

theorem follows_deleteRow (table : String) (key : List Json) (db : Database) :
    Follows (deleteRow table key) (Database.deleteRow table key) db := by
  rw [deleteRow, Database.deleteRow]
  refine follows_tableFor_bind fun t _ ↦ ?_
  dsimp only
  exact .ite (fun _ ↦ .throw _ _) fun _ ↦ .bind (follows_recordWrite _ _) fun _ db' _ ↦
    follows_changeRows table _ db'

/-! ## Runs -/

/-- The storage after a call, whatever comes of it. -/
def apply : Database.Call → Storage → Storage
  | .updateDdl statements => ending (updateDdl statements)
  | .upsertRow table columns values => ending (upsertRow table columns values)
  | .deleteRow table key => ending (deleteRow table key)
  | .refuseAfter n => (refuseAfter · n)
  | .refuseNone => refuseNone

/-- A storage that comes about by calls, from nothing or from a dump. -/
inductive Reachable : Storage → Prop
  | empty : Reachable {}
  | ofDump {dump : String} {s : Storage} : ofDump dump = .ok s → Reachable s
  | call {s : Storage} (c : Database.Call) : Reachable s → Reachable (apply c s)

theorem Follows.ending_eq {m : StorageM ε α} {d : EStateM ε Database α} (h : Follows m d db) :
    ending m db.storage = (ending d db).storage := by
  rw [Follows] at h
  rw [ending, ending, h]
  cases d db <;> rfl

theorem apply_storage (c : Database.Call) (db : Database) :
    apply c db.storage = (c.apply db).storage := by
  cases c with
  | updateDdl statements => exact (follows_updateDdl statements db).ending_eq
  | upsertRow table columns values => exact (follows_upsertRow table columns values db).ending_eq
  | deleteRow table key => exact (follows_deleteRow table key db).ending_eq
  | refuseAfter n => rfl
  | refuseNone => rfl

theorem storage_ofSchema (s : Schema) :
    (Database.ofSchema s).storage = { tables := s, rows := s.map fun _ _ ↦ ∅ } := by
  refine (Database.storage_eq (fun n ↦ ?_) (fun n ↦ ?_) rfl rfl rfl).symm
  all_goals
    dsimp only [Database.ofSchema]
    rw [Std.ExtTreeMap.getElem?_map]
  · rw [Option.map_map]
    exact Option.map_id'.symm
  · rw [Std.ExtTreeMap.getElem?_map, Option.map_map]
    rfl

/-- What comes about by calls on a storage is kept of what comes about by the same calls on a
database. -/
theorem Reachable.exists_database {s : Storage} (h : s.Reachable) :
    ∃ db : Database, db.Reachable ∧ s = db.storage := by
  induction h with
  | empty =>
    refine ⟨{}, .empty, Database.storage_eq (fun n ↦ ?_) (fun n ↦ ?_) rfl rfl rfl⟩
    all_goals
      rw [Database.getElem?_empty]
      exact Std.ExtTreeMap.getElem?_empty
  | @ofDump dump s hs =>
    obtain ⟨tables, htables, hs⟩ := bind_eq_ok hs
    obtain rfl := Except.ok.inj hs
    have hdump : Database.ofDump dump = .ok (.ofSchema tables) := by
      rw [Database.ofDump, htables]
      rfl
    exact ⟨.ofSchema tables, .ofDump hdump, (storage_ofSchema tables).symm⟩
  | call c _ ih =>
    obtain ⟨db, hdb, rfl⟩ := ih
    exact ⟨c.apply db, .call c hdb, apply_storage c db⟩

/-- Rows are kept for the tables that are there and no others; each names only columns of its table,
has all columns of the key, and is kept under the text of its key. -/
structure RowsFit (s : Storage) : Prop where
  tables : ∀ n : String, (s.rows[n]?).isSome = (s.tables[n]?).isSome
  fits : ∀ (n : String) (t : Table) (rows : Std.ExtTreeMap String Row) (k : String) (row : Row),
    s.tables[n]? = some t → s.rows[n]? = some rows → rows[k]? = some row →
      (∀ c : String, (row[c]?).isSome = true → c ∈ t.columnNames) ∧
        (∀ c ∈ t.primaryKey, (row[c]?).isSome = true) ∧
        k = Database.keyText (t.primaryKey.map fun c ↦ (row[c]?).getD .null)

/-- A storage might keep rows for no table. -/
example : ¬RowsFit { rows := (∅ : Std.ExtTreeMap String _).insert "parcels" ∅ } := fun h ↦ by
  have hrows := h.tables "parcels"
  contradiction

/-- The rows of a storage that comes about by calls fit, whatever the arguments of the calls are. -/
theorem rowsFit_of_reachable {s : Storage} (h : s.Reachable) : s.RowsFit := by
  obtain ⟨db, hdb, rfl⟩ := h.exists_database
  refine ⟨fun n ↦ ?_, fun n t rows k row ht hn hrow ↦ ?_⟩
  · rw [db.getElem?_storage_rows, db.getElem?_storage_tables, Option.isSome_map, Option.isSome_map]
  · rw [db.getElem?_storage_tables] at ht
    rw [db.getElem?_storage_rows] at hn
    obtain ⟨u, hu, rfl⟩ := Option.map_eq_some_iff.1 ht
    rw [hu] at hn
    obtain rfl := Option.some.inj hn
    obtain ⟨values, hvalues, hk⟩ := (hdb.sound.tables n u hu).keyed k row hrow
    obtain ⟨hheld, rfl⟩ := Database.keyValues_eq_ok.1 hvalues
    exact ⟨hdb.fitted n u hu k row hrow, hheld, hk⟩

theorem Reachable.foldl {s : Storage} (h : s.Reachable) (calls : List Database.Call) :
    (calls.foldl (fun s c ↦ apply c s) s).Reachable := by
  induction calls generalizing s with
  | nil => exact h
  | cons c calls ih => exact ih (.call c h)

/-- A row is written, its table changes and gets another name, and of two more rows one is refused.
A second table goes, with its row. -/
def boxes : Storage :=
  [Database.Call.updateDdl ["CREATE TABLE parcels (id int64, code string(8), note string(40), " ++
      "PRIMARY KEY (code, id))", "CREATE TABLE labels (id int64, PRIMARY KEY (id))"],
    .upsertRow "parcels" ["note", "id", "code"] [.string "late", .ofNat 1, .string "x"],
    .upsertRow "labels" ["id"] [.ofNat 7],
    .updateDdl ["ALTER TABLE parcels ADD COLUMN weight int64",
      "CREATE INDEX heavy ON parcels (weight)",
      "ALTER TABLE parcels DROP COLUMN note", "ALTER TABLE parcels RENAME TO boxes",
      "DROP TABLE labels", "ALTER TABLE boxes DROP COLUMN weight"],
    .upsertRow "boxes" ["code", "id", "weight"] [.string "x", .ofNat 2, .ofNat 40],
    .upsertRow "boxes" ["code", "id", "note"] [.string "x", .ofNat 3, .null]].foldl
    (fun s c ↦ apply c s) {}

theorem boxes_rowsFit :
    boxes.tables.keys = ["boxes"] ∧
      boxes.rows.toList.map (fun p ↦ (p.1, p.2.toList.map fun r ↦ (r.1, r.2.keys))) =
        [("boxes", [("[\"x\",1]", ["code", "id"]), ("[\"x\",2]", ["code", "id", "weight"])])] ∧
      boxes.RowsFit := by
  have hboxes : boxes.tables.keys = ["boxes"] ∧
      boxes.rows.toList.map (fun p ↦ (p.1, p.2.toList.map fun r ↦ (r.1, r.2.keys))) =
        [("boxes", [("[\"x\",1]", ["code", "id"]), ("[\"x\",2]", ["code", "id", "weight"])])] := by
    decide +kernel
  exact ⟨hboxes.1, hboxes.2, rowsFit_of_reachable (Reachable.empty.foldl _)⟩

end Storage

end SchemaLedger
