import SchemaLedger.Fact.Notes
import SchemaLedger.Lowering.Notes
import SchemaLedger.Reconciliation

/-!
# Synchronization passes

A pass makes sure that the side table is there, executes statements, reads the tables back into the
cache and reconciles the stored facts with the entities. It stops at the first error; what has been
done by then stays done.

Statements are lowered before any is executed, so one that cannot be expressed leaves the database
alone. When the database refuses one, the tables are read back all the same before the error is
passed on.
-/

namespace SchemaLedger

/-- What a pass has done, or would do in a dry run. -/
structure Report where
  ddl : List String
  delta : Diff
  extended : Diff
  tables : Nat
  dryRun : Bool
  deriving DecidableEq, Repr

namespace Pass

/-- Caches a table with its facts. -/
def cacheTable (ledger : Option Ledger) (ignoreMissing : Bool) (t : Table) : Pass Unit := do
  let decorated ← match ledger with
    | some l => do
      noteAll (l.decorationNotes t ignoreMissing)
      ofExcept (l.decorate t ignoreMissing)
    | none => pure t
  modifyCache (·.insert decorated)

/-- Reads the tables of the database into the cache, one by one in the order of their names, and
then drops those that are gone. Returns the number of tables. -/
def reloadTables (ignoreMissing : Bool) : Pass Nat := do
  let dump ← call Database.schemaDdl
  let s ← ofExcept (Dump.parse dump)
  let ledger := (← get).cache.ledger
  s.values.forM (cacheTable ledger ignoreMissing)
  noteAll (((← get).cache.tables.keys.filter (!s.contains ·)).map .tableGone)
  modifyCache fun c ↦ { c with tables := c.tables.filter fun name _ ↦ s.contains name }
  return s.size

/-- Lowers and executes statements, and stores the facts that they leave unsaid. Without a side
table there is nowhere to store them, and they are lost. -/
def executeDdl (o : PassOptions) (statements : List Statement) (ignoreMissing : Bool) :
    Pass (List String × Diff) := do
  noteAll (Statement.notesAll statements)
  let lowered ← ofExcept (Statement.lowerAll statements)
  let sql := lowered.sql
  if sql.isEmpty then return (sql, {})
  if o.dryRun then
    noteAll (sql.map .statementPlanned)
    return (sql, ⟨lowered.delta.upserts, []⟩)
  noteAll (sql.map .statementExecuting)
  let applied ← outcome (updateDdl sql)
  if statements.any (·.touched.contains o.sideTable) then
    note (.sideTableTouched o.sideTable)
    dropLedger
  let _ ← reloadTables true
  match applied with
  | .error e => throw e
  | .ok () =>
    if lowered.delta.isEmpty then return (sql, {})
    if !(← get).cache.tables.contains o.sideTable then
      note (.sideTableMissing o.sideTable)
      return (sql, {})
    let d ← applyDelta o lowered.delta ignoreMissing
    if !d.isEmpty then
      let _ ← reloadTables ignoreMissing
    return (sql, d)

/-- A whole pass. -/
def synchronize (o : PassOptions) (entities : List Entity) (statements : List Statement)
    (ignoreMissing : Bool) : Pass Report := do
  note (.passStarted entities.length statements.length o.dryRun)
  let _ ← reloadTables true
  let _ ← createAndLoad o
  let (ddl, delta) ← executeDdl o statements ignoreMissing
  let _ ← reloadTables ignoreMissing
  let extended ← syncEntities o entities ignoreMissing
  let tables ← reloadTables ignoreMissing
  note (.passFinished ddl.length (delta.size + extended.size) tables)
  return ⟨ddl, delta, extended, tables, o.dryRun⟩

end Pass

end SchemaLedger
