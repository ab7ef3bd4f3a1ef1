import SchemaLedger.Database.Edit
import SchemaLedger.Entity
import SchemaLedger.Fact.Decoration
import SchemaLedger.Json.Debug
import SchemaLedger.Note

/-!
# Reconciling the side table

The facts are stored in a table of the database itself, the side table. Reconciling it means
finding out which facts to write and which to delete, and writing them one by one. Nothing is taken
back when a write fails: the facts that did arrive stay, the cached ledger is dropped, and the next
pass starts from what is stored.

The programs here run on a `Site`, a database together with what is cached of it and a journal of
notes, which no program reads. Where they fail, the site that they reached is part of the outcome.
-/

namespace SchemaLedger

/-- What is known of a database without asking it: its tables, with their facts, and the ledger
unless it has to be loaded. -/
structure Cache where
  tables : Schema := ∅
  ledger : Option Ledger := none

namespace Cache

/-- Replaces the table of a name, or adds one. -/
def insert (c : Cache) (t : Table) : Cache := { c with tables := c.tables.insert t.name t }

/-- Forgets the table of a name. -/
def erase (c : Cache) (name : String) : Cache := { c with tables := c.tables.erase name }

/-- Replaces all tables. -/
def withTables (c : Cache) (ts : List Table) : Cache := ts.foldl insert { c with tables := ∅ }

end Cache

/-- A database, its cache, and what has been noted of the work on them. -/
structure Site where
  database : Database := {}
  cache : Cache := {}
  journal : List Note := []

/-- A program over a site that may fail. -/
abbrev Pass := EStateM PassError Site

namespace Pass

variable {α : Type}

/-- Adds notes to the journal. -/
def noteAll (notes : List Note) : Pass Unit :=
  modify fun s ↦ { s with journal := s.journal ++ notes }

/-- Adds a note to the journal. -/
def note (n : Note) : Pass Unit := noteAll [n]

/-- A call to the database. -/
def call (m : DatabaseM α) : Pass α := fun s ↦
  match m s.database with
  | .ok a db => .ok a { s with database := db }
  | .error e db => .error e { s with database := db }

/-- Fails where a computation on schemas fails. -/
def ofExcept : Except SchemaError α → Pass α
  | .ok a => pure a
  | .error e => throw (.schema e)

/-- The outcome of a program, which itself does not fail. -/
def outcome (m : Pass α) : Pass (Except PassError α) := fun s ↦
  match m s with
  | .ok a s => .ok (.ok a) s
  | .error e s => .ok (.error e) s

/-- Changes the cache. -/
def modifyCache (f : Cache → Cache) : Pass Unit := modify fun s ↦ { s with cache := f s.cache }

/-- Caches a ledger. -/
def storeLedger (l : Ledger) : Pass Unit := modifyCache ({ · with ledger := some l })

/-- Drops the cached ledger. -/
def dropLedger : Pass Unit := modifyCache ({ · with ledger := none })

end Pass

/-- The choices of a pass: where the facts are stored, and whether anything is written. -/
structure PassOptions where
  sideTable : String := "oxide_extended_schema"
  dryRun : Bool := false
  deriving DecidableEq, Repr

/-! ## The difference -/

/-- Facts to write and facts to delete. -/
structure Diff where
  additions : List Fact := []
  removals : List Fact := []
  deriving DecidableEq, Repr

namespace Diff

/-- There is nothing to do. -/
def isEmpty (d : Diff) : Bool := d.additions.isEmpty && d.removals.isEmpty

/-- The number of writes. -/
def size (d : Diff) : Nat := d.additions.length + d.removals.length

end Diff

/-- The column of a fact is there. -/
def Fact.existsIn (f : Fact) (s : Schema) : Bool := s[f.table]?.any (·.hasColumn f.column)

/-- The facts whose columns are there; the first that is left out is an error, unless the caller
asks to pass over it. -/
def keepExisting (s : Schema) (context : String) (ignoreMissing : Bool) (facts : List Fact) :
    Except SchemaError (List Fact) :=
  match if ignoreMissing then none else facts.find? (!·.existsIn s) with
  | some f => .error (.dangling f.table (some f.column) context)
  | none => .ok (facts.filter (·.existsIn s))

/-- What a stored fact about a missing column is called in an error. -/
def storedContext : String := "extended schema entry"

/-- Facts whose columns are missing, where they are passed over; `f` makes a note of each. -/
def missingNotes (s : Schema) (ignoreMissing : Bool) (f : Fact → Note) (facts : List Fact) :
    List Note :=
  if ignoreMissing then (facts.filter (!·.existsIn s)).map f else []

/-- Compares what entities want with what is stored. Stored facts about tables without an entity
stay, unless their columns are gone. -/
def Diff.ofEntities (entities : List Entity) (stored : Ledger) (s : Schema)
    (ignoreMissing : Bool) : Except SchemaError Diff := do
  let desired ← Ledger.ofList <$>
    keepExisting s "entity column" ignoreMissing (entities.flatMap Entity.desiredFacts)
  let _ ← keepExisting s storedContext ignoreMissing stored.entries
  let unwanted (f : Fact) : Bool :=
    !f.existsIn s || (entities.any (·.table == f.table) && (desired.get? f.key).isNone)
  return ⟨stored.additions desired, stored.entries.filter unwanted⟩

/-- Compares what a delta makes of the stored facts with what is stored. -/
def Diff.ofDelta (delta : Delta) (stored : Ledger) (s : Schema) (ignoreMissing : Bool) :
    Except SchemaError Diff := do
  let target ← Ledger.ofList <$>
    keepExisting s storedContext ignoreMissing (stored.applyAll delta).entries
  return ⟨stored.additions target, stored.removals target⟩

/-! ## The side table -/

namespace SideTable

/-- The columns in the order in which they are stored. -/
def columns : List String := ["table", "column", "type", "value"]

/-- The statement that creates the side table where it is missing. -/
def statement (name : String) : Statement :=
  let short : DataType := ⟨"varchar", some (.size 255), false⟩
  .createTable
    { table := name
      ifNotExists := true
      definitions :=
        [.column { name := "table", dataType := short, notNull := true },
          .column { name := "column", dataType := short, notNull := true },
          .column { name := "type", dataType := short, notNull := true },
          .column { name := "value", dataType := ⟨"text", none, false⟩ },
          .primaryKey [⟨"table", .asc⟩, ⟨"column", .asc⟩, ⟨"type", .asc⟩]] }

/-- The text of a cell. -/
def textCell (sideTable column : String) : Json → Except PassError String
  | .string s => .ok s
  | j => .error (.invalidRow sideTable (column ++ " is not a string: Some(" ++ j.debugText ++ ")"))

/-- The fact of a row; a row without a value holds none. -/
def readRow (sideTable : String) : List Json → Except PassError (Option Fact)
  | [table, column, type, value] => do
    let name ← textCell sideTable "type" type
    let property ← (Property.ofText? name).mapError fun e ↦ .invalidRow sideTable e.message
    match value with
    | .null => return none
    | value => do
      let value ← textCell sideTable "value" value
      let table ← textCell sideTable "table" table
      let column ← textCell sideTable "column" column
      return some ⟨table, column, property, value⟩
  | _ => .ok none

/-- The ledger of rows; a later row replaces an earlier one with its key. -/
def readRows (sideTable : String) (rows : List (List Json)) : Except PassError Ledger :=
  (fun facts ↦ Ledger.ofList (facts.filterMap id)) <$> rows.mapM (readRow sideTable)

/-- The cells of a fact. -/
def cells (f : Fact) : List Json :=
  [.string f.table, .string f.column, .string f.property.text, .string f.value]

/-- The key of a fact. -/
def keyCells (f : Fact) : List Json :=
  [.string f.table, .string f.column, .string f.property.text]

end SideTable

/-! ## Programs -/

namespace Pass

/-- Executes statements, each of which is noted before. -/
def updateDdl (statements : List String) : Pass Unit :=
  statements.forM fun sql ↦ do
    note (.statementApplying sql)
    call (Database.execute sql)

/-- Reads the side table and caches its ledger. -/
def load (o : PassOptions) : Pass Ledger := do
  let rows ← call (Database.readRows o.sideTable SideTable.columns)
  match SideTable.readRows o.sideTable rows with
  | .error e => throw e
  | .ok l =>
    note (.ledgerLoaded o.sideTable l.size)
    storeLedger l
    return l

/-- The cached ledger, loaded if there is none. -/
def loaded (o : PassOptions) : Pass Ledger := do
  match (← get).cache.ledger with
  | some l => return l
  | none => load o

/-- Creates the side table where it is missing, and loads it. A dry run creates nothing, and takes
a side table that is not cached for an empty one. -/
def createAndLoad (o : PassOptions) : Pass Ledger := do
  let lowered ← ofExcept (SideTable.statement o.sideTable).lower
  if o.dryRun then
    if (← get).cache.tables.contains o.sideTable then load o
    else
      noteAll (lowered.sql.map .sideTablePlanned)
      storeLedger ∅
      return ∅
  else
    note (.sideTableEnsured o.sideTable)
    updateDdl lowered.sql
    load o

/-- Writes the facts of a difference, the additions first. -/
def writeFacts (o : PassOptions) (d : Diff) : Pass Unit := do
  d.additions.forM fun f ↦
    call (Database.upsertRow o.sideTable SideTable.columns (SideTable.cells f))
  d.removals.forM fun f ↦ call (Database.deleteRow o.sideTable (SideTable.keyCells f))

/-- Brings the side table in line with a difference and loads it again. A failed write drops the
cached ledger. A dry run writes nothing. -/
def write (o : PassOptions) (d : Diff) : Pass Unit := do
  if d.isEmpty then return
  note (.reconciling o.sideTable d.additions.length d.removals.length o.dryRun)
  if o.dryRun then
    noteAll (d.additions.map .storePlanned ++ d.removals.map .deletePlanned)
    return
  match ← outcome (writeFacts o d) with
  | .error e =>
    dropLedger
    throw e
  | .ok () =>
    let _ ← load o

/-- Brings the side table in line with entities. -/
def syncEntities (o : PassOptions) (entities : List Entity) (ignoreMissing : Bool) : Pass Diff := do
  let stored ← loaded o
  let tables := (← get).cache.tables
  noteAll (missingNotes tables ignoreMissing (fun f ↦ .entityColumnMissing f.table f.column)
    (entities.flatMap Entity.desiredFacts))
  let d ← ofExcept (Diff.ofEntities entities stored tables ignoreMissing)
  write o d
  return d

/-- Stores what a delta makes of the facts. -/
def applyDelta (o : PassOptions) (delta : Delta) (ignoreMissing : Bool) : Pass Diff := do
  if delta.isEmpty then return {}
  let stored ← loaded o
  let tables := (← get).cache.tables
  noteAll (missingNotes tables ignoreMissing (fun f ↦ .factDropped f.table f.column)
    (stored.applyAll delta).entries)
  let d ← ofExcept (Diff.ofDelta delta stored tables ignoreMissing)
  write o d
  return d

end Pass

end SchemaLedger
