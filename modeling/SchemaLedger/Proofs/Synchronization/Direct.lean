import Mathlib
import SchemaLedger.Proofs.Database.Meaning
import SchemaLedger.Proofs.Synchronization.Reload

/-!
# Passes without text

A pass writes its statements for the database to read, and reads the database back from its dump.
Here it enacts the statements and takes the tables as they are. If the statements are plain, and the
database has had no others, this is the same in everything: what is reported or refused, the
database, the cache and the journal. And the database stays one of which this can be said, so it
goes for any number of calls.
-/

namespace SchemaLedger

open SideTable

namespace Pass

variable {o : PassOptions}

/-! ## The parts of a pass -/

namespace Direct

/-- Enacts statements, each of which is noted before. -/
def updateDdl (ds : List Ddl) : Pass Unit :=
  ds.forM fun d ↦ do
    note (.statementApplying d.text)
    call (Database.carryOut d)

/-- Caches the tables of the database. -/
def reloadTables (ignoreMissing : Bool) : Pass Nat := do
  let s := (← get).database.schema.map fun _ t ↦ t.restored
  let ledger := (← get).cache.ledger
  s.values.forM (cacheTable ledger ignoreMissing)
  noteAll (((← get).cache.tables.keys.filter (!s.contains ·)).map .tableGone)
  modifyCache fun c ↦ { c with tables := c.tables.filter fun name _ ↦ s.contains name }
  return s.size

/-- Ensures the side table and loads the ledger. -/
def createAndLoad (o : PassOptions) : Pass Ledger := do
  let lowered ← ofExcept (SideTable.statement o.sideTable).lower
  if o.dryRun then
    if (← get).cache.tables.contains o.sideTable then load o
    else
      noteAll (lowered.sql.map .sideTablePlanned)
      storeLedger ∅
      return ∅
  else
    note (.sideTableEnsured o.sideTable)
    updateDdl lowered.ddl
    load o

/-- What is left of a batch once its statements have been enacted. -/
def concludeDdl (o : PassOptions) (l : Lowered) (ignoreMissing : Bool)
    (applied : Except PassError Unit) :
    Pass (List String × Diff) := do
  let _ ← reloadTables true
  match applied with
  | .error e => throw e
  | .ok () =>
    if l.delta.isEmpty then return (l.sql, {})
    if !(← get).cache.tables.contains o.sideTable then
      note (.sideTableMissing o.sideTable)
      return (l.sql, {})
    let d ← applyDelta o l.delta ignoreMissing
    if !d.isEmpty then
      let _ ← reloadTables ignoreMissing
    return (l.sql, d)

def executeDdl (o : PassOptions) (statements : List Statement) (ignoreMissing : Bool) :
    Pass (List String × Diff) := do
  noteAll (Statement.notesAll statements)
  let l ← ofExcept (Statement.lowerAll statements)
  if l.sql.isEmpty then return (l.sql, {})
  if o.dryRun then
    noteAll (l.sql.map .statementPlanned)
    return (l.sql, ⟨l.delta.upserts, []⟩)
  noteAll (l.sql.map .statementExecuting)
  let applied ← outcome (updateDdl l.ddl)
  if statements.any (·.touched.contains o.sideTable) then
    note (.sideTableTouched o.sideTable)
    dropLedger
  concludeDdl o l ignoreMissing applied

def synchronize (o : PassOptions) (entities : List Entity) (statements : List Statement)
    (ignoreMissing : Bool) : Pass Report := do
  note (.passStarted entities.length statements.length o.dryRun)
  let _ ← reloadTables true
  let _ ← createAndLoad o
  let (ddl, delta) ← executeDdl o statements ignoreMissing
  let _ ← reloadTables ignoreMissing
  let extended ← syncEntities o entities ignoreMissing
  let tables ← reloadTables ignoreMissing
  note (.passFinished ddl.length (delta.size + extended.size) tables)
  return ⟨ddl, delta, extended, tables, o.dryRun⟩

end Direct

/-! ## They do the same -/

theorem steady_orderly : Steady fun s ↦ s.database.Orderly := fun _ _ _ h ↦ h

/-- Nothing has to be cached of the database. -/
theorem run_eq_of_agree {α : Type} {m n : Pass α} (h : Agree (fun s ↦ s.database.Orderly) m n)
    {db : Database} (hdb : db.Orderly) : m { database := db } = n { database := db } := (h _ hdb).1

theorem call_congr {α : Type} {m n : DatabaseM α} {s : Site} (h : m s.database = n s.database) :
    call m s = call n s := by
  rw [call, call, h]

theorem agree_outcome {α : Type} {p : Site → Prop} {m n : Pass α} (h : Agree p m n) :
    Agree p (outcome m) (outcome n) := by
  intro s hs
  obtain ⟨heq, hp⟩ := h s hs
  exact ⟨by rw [outcome, outcome, heq], (ending_outcome m s).symm ▸ hp⟩

theorem agree_updateDdl {statements : List Statement} {l : Lowered} (h : Statement.Plain statements)
    (hlower : Statement.lowerAll statements = .ok l) :
    Agree (fun s ↦ s.database.Orderly) (updateDdl l.sql) (Direct.updateDdl l.ddl) := by
  have hforM (ds : List Ddl) : updateDdl (ds.map Ddl.text)
      = ds.forM fun d ↦
        (do note (.statementApplying d.text); call (Database.execute d.text) : Pass Unit) :=
    forM_map
  rw [Lowered.sql, hforM]
  refine h.agree hlower (fun d s hd horderly ↦ ?_) fun ds delta hmirrors htame s hs ↦ ?_
  · exact call_congr (Database.execute_text hd horderly)
  · obtain ⟨notes, heq⟩ := updateDdl_eq_call (ds.map Ddl.text) s
    rw [← hforM, ending_congr heq, ending_call]
    exact Database.keeps_orderly_of_mirrors hmirrors htame s.database hs

theorem agree_reloadTables (ignoreMissing : Bool) :
    Agree (fun s ↦ s.database.Orderly) (reloadTables ignoreMissing)
      (Direct.reloadTables ignoreMissing) := by
  refine .of_eq (fun s hs ↦ ?_) (steady_orderly.reloadTables ignoreMissing)
  obtain ⟨dump, hdump, hparse⟩ := bind_eq_ok hs.described_eq
  rw [reloadTables, run_bind_of_ok (call_schemaDdl_of_ok hdump), hparse]
  rfl

theorem agree_createAndLoad (h : Statement.Plain [SideTable.statement o.sideTable]) :
    Agree (fun s ↦ s.database.Orderly) (createAndLoad o) (Direct.createAndLoad o) := by
  have hload : Keeps (fun s ↦ s.database.Orderly) (load o) := keeps_load
  rw [createAndLoad, Direct.createAndLoad]
  cases hlower : (SideTable.statement o.sideTable).lower with
  | error e => exact .refl (.throw _)
  | ok l =>
    have hupdate := agree_updateDdl h ((Statement.lowerAll_singleton _).trans hlower)
    rw [ofExcept_ok, pure_bind, pure_bind]
    refine .ite (fun _ ↦ .refl (.get_bind fun s ↦ .ite (fun _ ↦ hload) fun _ ↦ ?_)) fun _ ↦ ?_
    · exact .bind (steady_orderly.noteAll _) fun _ ↦ .bind (fun _ hs ↦ hs) fun _ ↦ .pure _
    · exact .bind (.refl (steady_orderly.note _)) fun _ ↦ .bind hupdate fun _ ↦ .refl hload

theorem writeSafe_orderly (sideTable : String) : WriteSafe sideTable Database.Orderly :=
  ⟨fun f _ h ↦ h.call (c := .upsertRow sideTable columns (cells f)) nofun,
    fun f _ h ↦ h.call (c := .deleteRow sideTable (keyCells f)) nofun⟩

theorem agree_concludeDdl (l : Lowered) (ignoreMissing : Bool) (applied : Except PassError Unit) :
    Agree (fun s ↦ s.database.Orderly) (concludeDdl o l ignoreMissing applied)
      (Direct.concludeDdl o l ignoreMissing applied) := by
  refine .bind (agree_reloadTables true) fun _ ↦ ?_
  cases applied with
  | error e => exact .refl (.throw e)
  | ok _ =>
    refine .ite (fun _ ↦ .refl (.pure _)) fun _ ↦ .get_bind fun s ↦ .ite (fun _ ↦ ?_) fun _ ↦ ?_
    · exact .refl (.bind (steady_orderly.note _) fun _ ↦ .pure _)
    · refine .bind (.refl ((writeSafe_orderly _).applyDelta l.delta ignoreMissing)) fun d ↦ ?_
      exact .ite (fun _ ↦ .bind (agree_reloadTables ignoreMissing) fun _ ↦ .refl (.pure _)) fun _ ↦
        .refl (.pure _)

/-- A batch of plain statements does the same when it is enacted. -/
theorem agree_executeDdl {statements : List Statement} (h : Statement.Plain statements)
    (ignoreMissing : Bool) :
    Agree (fun s ↦ s.database.Orderly) (executeDdl o statements ignoreMissing)
      (Direct.executeDdl o statements ignoreMissing) := by
  refine .bind (.refl (steady_orderly.noteAll _)) fun _ ↦ ?_
  cases hlower : Statement.lowerAll statements with
  | error e => exact .refl (.throw _)
  | ok l =>
    rw [ofExcept_ok, pure_bind, pure_bind]
    refine .ite (fun _ ↦ .refl (.pure _)) fun _ ↦ .ite (fun _ ↦ ?_) fun _ ↦ ?_
    · exact .refl (.bind (steady_orderly.noteAll _) fun _ ↦ .pure _)
    · refine .bind (.refl (steady_orderly.noteAll _)) fun _ ↦
        .bind (agree_outcome (agree_updateDdl h hlower)) fun applied ↦ .ite (fun _ ↦ ?_) fun _ ↦ ?_
      · exact .bind (.refl (steady_orderly.note _)) fun _ ↦ .bind (.refl fun _ hs ↦ hs) fun _ ↦
          agree_concludeDdl l ignoreMissing applied
      · exact agree_concludeDdl l ignoreMissing applied

/-- A pass with plain statements does the same when they are enacted. -/
theorem agree_synchronize (hside : Statement.Plain [SideTable.statement o.sideTable])
    (entities : List Entity)
    {statements : List Statement} (h : Statement.Plain statements) (ignoreMissing : Bool) :
    Agree (fun s ↦ s.database.Orderly) (synchronize o entities statements ignoreMissing)
      (Direct.synchronize o entities statements ignoreMissing) :=
  .bind (.refl (steady_orderly.note _)) fun _ ↦ .bind (agree_reloadTables true) fun _ ↦
    .bind (agree_createAndLoad hside) fun _ ↦ .bind (agree_executeDdl h ignoreMissing) fun _ ↦
    .bind (agree_reloadTables ignoreMissing) fun _ ↦
    .bind (.refl ((writeSafe_orderly _).syncEntities entities ignoreMissing)) fun _ ↦
    .bind (agree_reloadTables ignoreMissing) fun _ ↦
      .refl (.bind (steady_orderly.note _) fun _ ↦ .pure _)

end Pass

end SchemaLedger
