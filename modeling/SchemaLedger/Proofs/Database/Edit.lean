import Mathlib
import SchemaLedger.Database.Edit
import SchemaLedger.Proofs.Database.Step
import SchemaLedger.Proofs.FiniteMap
import SchemaLedger.Proofs.Program

/-!
# All or nothing

A command is executed on the tables where they are, in steps that may be refused. It comes to what
the command makes of the database, or it is refused and leaves the database as it was, whatever it
has done by then. So a batch that is refused leaves what the statements before the refused one come
to.
-/

namespace SchemaLedger

namespace Database

variable {db : Database}

/-- The database that remembers further statements. -/
def log (sql : List String) (db : Database) : Database :=
  { db with appliedDdl := db.appliedDdl ++ sql }

theorem log_nil (db : Database) : db.log [] = db := by
  rw [log, List.append_nil]

theorem log_log (xs ys : List String) (db : Database) : (db.log xs).log ys = db.log (xs ++ ys) := by
  rw [log, log, log, List.append_assoc]

theorem store_store (db : Database) (n : String) (t u : StoredTable) :
    (db.store n t).store n u = db.store n u := by
  have htables : ((db.store n t).store n u).tables = (db.store n u).tables := by
    refine Std.ExtTreeMap.ext_getElem? fun k ↦ ?_
    rw [getElem?_store, getElem?_store, getElem?_store]
    split <;> rfl
  exact congrArg (fun tables ↦ { db with tables }) htables

end Database

/-! ## Steps -/

/-- How a change of a database ends that is made at once or not at all. -/
def Database.settle (db : Database) : Except Refusal Database → EStateM.Result Refusal Database Unit
  | .ok db' => .ok () db'
  | .error e => .error e db

/-- The change is made at once or not at all: it comes to what the function makes of the database,
or it is refused as the function is and the database is as before. -/
def Edit.Realizes (m : Edit Unit) (f : Database → Except Refusal Database) : Prop :=
  ∀ db, m db = db.settle (f db)

namespace Edit

variable {α : Type} {db : Database} {n : String} {t : StoredTable}

theorem get_bind (f : Database → Edit α) (db : Database) : (get >>= f) db = f db db := rfl

/-- A text that is not read changes nothing. -/
theorem reading_bind {read : Except SchemaError α} {f : α → Edit Unit}
    {g : α → Except Refusal Database} (h : ∀ a, f a db = db.settle (g a)) :
    (reading read >>= f) db = db.settle (read.mapError .schema >>= g) := by
  cases read with
  | error e => rfl
  | ok a => exact h a

/-- A table that is not there changes nothing. -/
theorem demand_bind {f : StoredTable → Edit Unit} {g : StoredTable → Except Refusal Database}
    (h : ∀ t, db.tables[n]? = some t → f t db = db.settle (g t)) :
    (demand n >>= f) db = db.settle (db.demand n >>= g) := by
  cases ht : db.tables[n]? with
  | none =>
    have hdemand : demand n db = .error (.rejected (.tableMissing n)) db := by
      rw [demand, get_bind, ht]
      rfl
    rw [run_bind_of_error hdemand, Database.demand, ht]
    rfl
  | some t =>
    have hdemand : demand n db = .ok t db := by
      rw [demand, get_bind, ht]
      rfl
    rw [run_bind_of_ok hdemand, Database.demand, ht]
    exact h t ht

/-- A table that is there is changed by storing it again. -/
theorem change_run (ht : db.tables[n]? = some t) (f : StoredTable → StoredTable) :
    change n f db = .ok () (db.store n (f t)) := by
  rw [Database.store, ← modify_eq_insert ht f]
  rfl

theorem changeSchema_run (ht : db.tables[n]? = some t) (f : Table → Table) :
    changeSchema n f db = .ok () (db.store n { t with schema := f t.schema }) :=
  change_run ht _

/-- To take out a table that is not there changes nothing. -/
theorem takeOut_run_of_none (hn : db.tables[n]? = none) : takeOut n db = .ok none db := by
  change EStateM.Result.ok db.tables[n]? { db with tables := db.tables.erase n } = _
  rw [hn, erase_eq_self hn]

theorem takeOut_run_of_some (ht : db.tables[n]? = some t) :
    takeOut n db = .ok (some t) { db with tables := db.tables.erase n } := by
  change EStateM.Result.ok db.tables[n]? { db with tables := db.tables.erase n } = _
  rw [ht]

/-! ## Commands -/

theorem realizes_createTable (statement name : String) (ifNotExists : Bool) :
    Realizes (createTable statement name ifNotExists)
      (·.createTable statement name ifNotExists) := by
  intro db
  beta_reduce
  rw [createTable, get_bind, Database.createTable]
  split
  · split <;> rfl
  · refine reading_bind fun parsed ↦ ?_
    cases parsed[name]? with
    | none => rfl
    | some table =>
      dsimp only
      cases table.interleave with
      | none => rfl
      | some i =>
        dsimp only
        rw [get_bind]
        split <;> rfl

theorem realizes_dropTable (name : String) (ifExists : Bool) :
    Realizes (dropTable name ifExists) (·.dropTable name ifExists) := by
  intro db
  beta_reduce
  rw [dropTable, get_bind, Database.dropTable]
  split
  · cases db.child? name <;> rfl
  · split <;> rfl

/-- The table that has been taken out is back when the others have followed. -/
theorem realizes_renameTable (old new : String) :
    Realizes (renameTable old new) (·.renameTable old new) := by
  intro db
  beta_reduce
  rw [renameTable, get_bind, Database.renameTable, Database.demand]
  split
  · rfl
  · cases ht : db.tables[old]? with
    | none =>
      rw [run_bind_of_ok (takeOut_run_of_none ht)]
      rfl
    | some t =>
      rw [run_bind_of_ok (takeOut_run_of_some ht)]
      rfl

theorem realizes_createIndex (statement index table : String) :
    Realizes (createIndex statement index table) (·.createIndex statement index table) := by
  intro db
  beta_reduce
  rw [createIndex, get_bind, Database.createIndex]
  split
  · rfl
  · refine demand_bind fun t ht ↦ reading_bind fun own ↦ reading_bind fun parsed ↦ ?_
    cases parsed[table]? with
    | none => rfl
    | some schema => exact changeSchema_run ht _

/-- Three changes, one after another, drop an index. -/
theorem realizes_dropIndex (index : String) : Realizes (dropIndex index) (·.dropIndex index) := by
  intro db
  beta_reduce
  rw [dropIndex, get_bind, Database.dropIndex]
  cases db.indexOwner? index with
  | none => rfl
  | some owner =>
    refine demand_bind fun t ht ↦ ?_
    have hstored (u : StoredTable) : (db.store owner.name u).tables[owner.name]? = some u :=
      (Database.getElem?_store ..).trans (if_pos rfl)
    rw [run_bind_of_ok (changeSchema_run ht _), run_bind_of_ok (changeSchema_run (hstored _) _),
      Database.store_store, changeSchema_run (hstored _), Database.store_store]
    rfl

theorem realizes_addColumn (table : String) (text : List Char) :
    Realizes (addColumn table text) (·.addColumn table text) := by
  intro db
  beta_reduce
  refine reading_bind fun column ↦ demand_bind fun t ht ↦ ?_
  split
  · rfl
  · exact changeSchema_run ht _

/-- First the column goes and then its values. -/
theorem realizes_dropColumn (table column : String) :
    Realizes (dropColumn table column) (·.dropColumn table column) := by
  intro db
  beta_reduce
  refine demand_bind fun t ht ↦ ?_
  split
  · rfl
  split
  · rfl
  split
  · rfl
  rw [run_bind_of_ok (changeSchema_run ht _),
    change_run ((Database.getElem?_store ..).trans (if_pos rfl)), Database.store_store]
  rfl

theorem realizes_allowCommitTimestamp (table column : String) (allowed : Bool) :
    Realizes (allowCommitTimestamp table column allowed)
      (·.allowCommitTimestamp table column allowed) := by
  intro db
  beta_reduce
  refine demand_bind fun t ht ↦ ?_
  split
  · rfl
  · exact changeSchema_run ht _

theorem realizes_alterColumn (table : String) (text : List Char) :
    Realizes (alterColumn table text) (·.alterColumn table text) := by
  intro db
  beta_reduce
  refine reading_bind fun altered ↦ demand_bind fun t ht ↦ ?_
  split
  · rfl
  · exact changeSchema_run ht _

theorem realizes_alterTable (table : String) (action : TableAction) :
    Realizes (alterTable table action) (·.alterTable table action) := by
  cases action with
  | addColumn text => exact realizes_addColumn table text
  | dropColumn column => exact realizes_dropColumn table column
  | allowCommitTimestamp column allowed => exact realizes_allowCommitTimestamp table column allowed
  | alterColumn text => exact realizes_alterColumn table text
  | renameTo new => exact realizes_renameTable table new

/-- Whatever its text, a statement is executed as a whole or not at all. -/
theorem realizes_perform (statement : String) : Realizes (perform statement) (·.run statement) := by
  intro db
  beta_reduce
  rw [perform, Database.run]
  cases Command.ofText? statement with
  | none => rfl
  | some command =>
    cases command with
    | createTable name ifNotExists => exact realizes_createTable statement name ifNotExists db
    | createIndex name table => exact realizes_createIndex statement name table db
    | dropTable name ifExists => exact realizes_dropTable name ifExists db
    | dropIndex name => exact realizes_dropIndex name db
    | alterTable table action =>
      cases action with
      | none => rfl
      | some action => exact realizes_alterTable table action db

theorem perform_of_run {statement : String} {db' : Database} (h : db.run statement = .ok db') :
    perform statement db = .ok () db' :=
  (realizes_perform statement db).trans (congrArg db.settle h)

theorem perform_of_run_error {statement : String} {e : Refusal} (h : db.run statement = .error e) :
    perform statement db = .error e db :=
  (realizes_perform statement db).trans (congrArg db.settle h)

end Edit

/-! ## Tables and nothing else -/

/-- The function reads nothing but the tables and changes nothing else. -/
def OnTables (f : Database → Except Refusal Database) : Prop :=
  ∀ db, f db = (f { tables := db.tables }).map fun r ↦ { db with tables := r.tables }

namespace Database

variable {α : Type}

theorem map_bind {x : Except Refusal α} {f g : α → Except Refusal Database}
    {k : Database → Database} (h : ∀ a, f a = (g a).map k) : (x >>= f) = (x >>= g).map k := by
  cases x with
  | error e => rfl
  | ok a => exact h a

theorem onTables_createTable (statement name : String) (ifNotExists : Bool) :
    OnTables (·.createTable statement name ifNotExists) := by
  intro db
  simp only [createTable]
  split
  · split <;> rfl
  · refine map_bind fun parsed ↦ ?_
    cases parsed[name]? with
    | none => rfl
    | some table =>
      dsimp only
      cases table.interleave with
      | none => rfl
      | some i =>
        dsimp only
        split <;> rfl

theorem onTables_dropTable (name : String) (ifExists : Bool) :
    OnTables (·.dropTable name ifExists) := by
  intro db
  simp only [dropTable]
  split
  · have hchild : child? { tables := db.tables } name = db.child? name := rfl
    rw [hchild]
    cases db.child? name <;> rfl
  · split <;> rfl

theorem onTables_renameTable (old new : String) : OnTables (·.renameTable old new) := by
  intro db
  simp only [renameTable]
  split
  · rfl
  · exact map_bind fun t ↦ rfl

theorem onTables_createIndex (statement index table : String) :
    OnTables (·.createIndex statement index table) := by
  intro db
  have howner : indexOwner? { tables := db.tables } index = db.indexOwner? index := rfl
  simp only [createIndex, howner]
  split
  · rfl
  · refine map_bind fun t ↦ map_bind fun own ↦ map_bind fun parsed ↦ ?_
    cases parsed[table]? <;> rfl

theorem onTables_dropIndex (index : String) : OnTables (·.dropIndex index) := by
  intro db
  have howner : indexOwner? { tables := db.tables } index = db.indexOwner? index := rfl
  simp only [dropIndex, howner]
  cases db.indexOwner? index with
  | none => rfl
  | some owner => exact map_bind fun t ↦ rfl

theorem onTables_addColumn (table : String) (text : List Char) :
    OnTables (·.addColumn table text) := by
  intro db
  refine map_bind fun column ↦ map_bind fun t ↦ ?_
  split <;> rfl

theorem onTables_dropColumn (table column : String) : OnTables (·.dropColumn table column) := by
  intro db
  refine map_bind fun t ↦ ?_
  split
  · rfl
  split
  · rfl
  split <;> rfl

theorem onTables_allowCommitTimestamp (table column : String) (allowed : Bool) :
    OnTables (·.allowCommitTimestamp table column allowed) := by
  intro db
  refine map_bind fun t ↦ ?_
  split <;> rfl

theorem onTables_alterColumn (table : String) (text : List Char) :
    OnTables (·.alterColumn table text) := by
  intro db
  refine map_bind fun altered ↦ map_bind fun t ↦ ?_
  split <;> rfl

theorem onTables_run (statement : String) : OnTables (·.run statement) := by
  intro db
  simp only [run]
  cases Command.ofText? statement with
  | none => rfl
  | some command =>
    cases command with
    | createTable name ifNotExists => exact onTables_createTable statement name ifNotExists db
    | createIndex name table => exact onTables_createIndex statement name table db
    | dropTable name ifExists => exact onTables_dropTable name ifExists db
    | dropIndex name => exact onTables_dropIndex name db
    | alterTable table action =>
      cases action with
      | none => rfl
      | some action =>
        cases action with
        | addColumn text => exact onTables_addColumn table text db
        | dropColumn column => exact onTables_dropColumn table column db
        | allowCommitTimestamp column allowed =>
          exact onTables_allowCommitTimestamp table column allowed db
        | alterColumn text => exact onTables_alterColumn table text db
        | renameTo new => exact onTables_renameTable table new db

/-! ## Batches -/

theorem execute_of_run {statement : String} {db db' : Database} (h : db.run statement = .ok db') :
    execute statement db = .ok () { db' with appliedDdl := db'.appliedDdl ++ [statement] } := by
  have hperform : EStateM.adaptExcept (·.toError statement) (Edit.perform statement) db =
      .ok () db' := by
    rw [EStateM.adaptExcept, Edit.perform_of_run h]
  exact run_bind_of_ok hperform

theorem execute_of_run_error {statement : String} {db : Database} {e : Refusal}
    (h : db.run statement = .error e) :
    execute statement db = .error (e.toError statement) db := by
  have hperform : EStateM.adaptExcept (·.toError statement) (Edit.perform statement) db
      = .error (e.toError statement) db := by
    rw [EStateM.adaptExcept, Edit.perform_of_run_error h]
  exact run_bind_of_error hperform

theorem execute_cases (statement : String) (db : Database) :
    (∃ e, execute statement db = .error e db) ∨
      ∃ db', db.run statement = .ok db' ∧
        execute statement db = .ok () { db' with appliedDdl := db'.appliedDdl ++ [statement] } := by
  cases h : db.run statement with
  | error e => exact Or.inl ⟨_, execute_of_run_error h⟩
  | ok db' => exact Or.inr ⟨db', rfl, execute_of_run h⟩

/-- What is remembered of statements does not matter to a command. -/
theorem run_log (sql : List String) (db : Database) (statement : String) :
    (db.log sql).run statement = (db.run statement).map (log sql) := by
  have hrun (d : Database) := onTables_run statement d
  beta_reduce at hrun
  have htables : (db.log sql).tables = db.tables := rfl
  rw [hrun (db.log sql), hrun db, htables]
  cases run { tables := db.tables } statement <;> rfl

/-- Of a database that a command makes, only the tables are not those of the database before. -/
theorem eq_of_run {statement : String} {db db' : Database} (h : db.run statement = .ok db') :
    db' = { db with tables := db'.tables } := by
  have hrun := onTables_run statement db
  beta_reduce at hrun
  rw [h] at hrun
  obtain ⟨r, -, hr⟩ := map_eq_ok hrun.symm
  rw [← hr]

theorem eq_of_forM_perform {statements : List String} {db d : Database}
    (h : statements.forM Edit.perform db = .ok ⟨⟩ d) : d = { db with tables := d.tables } := by
  induction statements generalizing db with
  | nil => rw [← (EStateM.Result.ok.inj h).2]
  | cons x xs ih =>
    obtain ⟨_, m, hx, hxs⟩ := exists_of_run_bind_ok h
    have hm : m = { db with tables := m.tables } := by
      cases hrun : db.run x with
      | error e =>
        rw [Edit.perform_of_run_error hrun] at hx
        contradiction
      | ok m' =>
        rw [Edit.perform_of_run hrun] at hx
        obtain rfl := (EStateM.Result.ok.inj hx).2
        exact eq_of_run hrun
    rw [ih hxs, hm]

/-- Statements come to the same tables whatever has been remembered before. -/
theorem forM_perform_log {statements : List String} (sql : List String) {db d : Database}
    (h : statements.forM Edit.perform (db.log sql) = .ok ⟨⟩ d) :
    ∃ m, d = m.log sql ∧ statements.forM Edit.perform db = .ok ⟨⟩ m := by
  induction statements generalizing db with
  | nil => exact ⟨db, (EStateM.Result.ok.inj h).2.symm, rfl⟩
  | cons x xs ih =>
    cases hx : db.run x with
    | error e =>
      have hlog : (db.log sql).run x = .error e := by rw [run_log, hx]; rfl
      have hfails := (run_bind_of_error (f := fun _ ↦ xs.forM Edit.perform)
        (Edit.perform_of_run_error hlog)).symm.trans h
      contradiction
    | ok m =>
      have hlog : (db.log sql).run x = .ok (m.log sql) := by rw [run_log, hx]; rfl
      obtain ⟨d', hd, hxs⟩ := ih ((run_bind_of_ok (Edit.perform_of_run hlog)).symm.trans h)
      exact ⟨d', hd, (run_bind_of_ok (Edit.perform_of_run hx)).trans hxs⟩

/-- Statements are executed up to the first that is refused. That one changes nothing, and what is
there afterwards is what those before it come to one after another. They change the tables only, and
they are what is remembered. -/
theorem updateDdl_up_to_refusal (statements : List String) (db : Database) :
    ∃ accepted rest db', statements = accepted ++ rest ∧
      accepted.forM Edit.perform db = .ok ⟨⟩ db' ∧ db' = { db with tables := db'.tables } ∧
      updateDdl accepted db = .ok ⟨⟩ (db'.log accepted) ∧
      (rest = [] ∨ ∃ refused later e, rest = refused :: later ∧
        Edit.perform refused (db'.log accepted) = .error e (db'.log accepted) ∧
        updateDdl statements db = .error (e.toError refused) (db'.log accepted)) := by
  induction statements generalizing db with
  | nil => exact ⟨[], [], db, rfl, rfl, rfl, by rw [log_nil]; rfl, .inl rfl⟩
  | cons x xs ih =>
    cases hx : db.run x with
    | error e =>
      refine ⟨[], x :: xs, db, rfl, rfl, rfl, by rw [log_nil]; rfl, .inr ⟨x, xs, e, rfl, ?_⟩⟩
      rw [log_nil]
      exact ⟨Edit.perform_of_run_error hx, run_bind_of_error (execute_of_run_error hx)⟩
    | ok m =>
      obtain ⟨accepted, rest, d', rfl, hrun, -, haccepted, hrest⟩ := ih (m.log [x])
      obtain ⟨d, rfl, hd⟩ := forM_perform_log [x] hrun
      have hperform : (x :: accepted).forM Edit.perform db = .ok ⟨⟩ d :=
        (run_bind_of_ok (Edit.perform_of_run hx)).trans hd
      have hexecute (ys : List String) : updateDdl (x :: ys) db = updateDdl ys (m.log [x]) :=
        run_bind_of_ok (execute_of_run hx)
      have hlog : (d.log [x]).log accepted = d.log (x :: accepted) := log_log ..
      rw [hlog] at haccepted hrest
      refine ⟨x :: accepted, rest, d, rfl, hperform, eq_of_forM_perform hperform,
        (hexecute accepted).trans haccepted, ?_⟩
      rcases hrest with hrest | ⟨refused, later, e, hrest, hrefused, hstops⟩
      · exact .inl hrest
      · exact .inr ⟨refused, later, e, hrest, hrefused, (hexecute _).trans hstops⟩

end Database

end SchemaLedger
