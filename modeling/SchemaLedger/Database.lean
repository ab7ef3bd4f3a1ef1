import SchemaLedger.Dump
import SchemaLedger.Json

/-!
# Databases

A database holds tables and their rows. Rows are kept under the text of their key values, so two
keys address the same row exactly when they are written alike. It also counts its row writes,
remembers which statements it has accepted, and can be told to refuse writes after a number of
them.

A call that fails leaves the database as it was. Calls are programs in `DatabaseM`, whose outcome
holds the database reached either way.

A table is stored here together with its rows. `Storage` keeps the two in maps of their own and
changes them one after the other, and every operation on it does what the operation here does.
-/

namespace SchemaLedger

/-- The values of a row by column. -/
abbrev Row := Std.ExtTreeMap String Json

/-- A table and its rows by key. -/
structure StoredTable where
  schema : Table
  rows : Std.ExtTreeMap String Row := ∅

/-- A database; the tables are kept by name. -/
structure Database where
  tables : Std.ExtTreeMap String StoredTable := ∅
  appliedDdl : List String := []
  writes : Nat := 0
  writeLimit : Option Nat := none

/-- A program over a database that may fail. -/
abbrev DatabaseM := EStateM PassError Database

namespace Database

/-- The database with the tables of a schema and no rows. -/
def ofSchema (s : Schema) : Database := { tables := s.map fun _ t ↦ { schema := t } }

/-- The database with the tables of a dump and no rows. -/
def ofDump (dump : String) : Except SchemaError Database := ofSchema <$> Dump.parseText dump

/-- The tables without their rows. -/
def schema (db : Database) : Schema := db.tables.map fun _ t ↦ t.schema

/-- A table without its rows. -/
def table? (db : Database) (name : String) : Option Table := db.tables[name]?.map (·.schema)

/-- The rows of a table in the order of their keys; a table that is not there has none. -/
def rowsOf (db : Database) (name : String) : List Row :=
  (db.tables[name]?.map (·.rows.values)).getD []

/-- Refuses writes after `n` more. The limit is a natural number without bound: the sum never wraps
around, as that of machine words would for an `n` near their end. -/
def refuseAfter (db : Database) (n : Nat) : Database :=
  { db with writeLimit := some (db.writes + n) }

/-- Refuses no writes. -/
def refuseNone (db : Database) : Database := { db with writeLimit := none }

/-! ## Rows -/

/-- The text under which a row is kept. -/
def keyText (values : List Json) : String := (Json.array values).canonical.toText

/-- The table of a call. -/
def tableFor (operation name : String) : DatabaseM StoredTable := do
  match (← get).tables[name]? with
  | some t => return t
  | none => throw (.client operation ("table '" ++ name ++ "' not found"))

/-- Counts a write, or refuses it. -/
def recordWrite (operation : String) : DatabaseM Unit := do
  let db ← get
  if db.writeLimit.any (· ≤ db.writes) then
    throw (.client operation "injected write failure")
  else set { db with writes := db.writes + 1 }

/-- Changes the rows of a table. -/
def modifyRows (name : String) (f : Std.ExtTreeMap String Row → Std.ExtTreeMap String Row)
    (db : Database) : Database :=
  { db with tables := db.tables.modify name fun t ↦ { t with rows := f t.rows } }

/-- The values of columns for all rows of a table; a column that a row lacks is `null`. -/
def readRows (table : String) (columns : List String) : DatabaseM (List (List Json)) := do
  let t ← tableFor "read_rows" table
  match columns.find? (!t.schema.hasColumn ·) with
  | some missing =>
    throw (.client "read_rows" ("column '" ++ table ++ "." ++ missing ++ "' not found"))
  | none => return t.rows.values.map fun row ↦ columns.map fun c ↦ (row[c]?).getD .null

/-- Puts the fields of a row over those that are there. -/
def mergeRow (old : Option Row) (new : List (String × Json)) : Row :=
  new.foldl (fun row field ↦ row.insert field.1 field.2) (old.getD ∅)

/-- The values of key columns, or the first column without one. -/
def keyValues (key : List String) (row : Row) : Except String (List Json) :=
  key.mapM fun c ↦
    match row[c]? with
    | some v => .ok v
    | none => .error c

/-- Inserts a row, or changes the named columns of the row with its key. -/
def upsertRow (table : String) (columns : List String) (values : List Json) : DatabaseM Unit := do
  if columns.length ≠ values.length then
    throw (.invalidRow table
      (toString columns.length ++ " columns but " ++ toString values.length ++ " values"))
  let t ← tableFor "upsert_row" table
  if let some missing := columns.find? (!t.schema.hasColumn ·) then
    throw (.invalidRow table ("unknown column '" ++ missing ++ "'"))
  let fields := columns.zip values
  match keyValues t.schema.primaryKey (mergeRow none fields) with
  | .error missing => throw (.invalidRow table ("missing key column '" ++ missing ++ "'"))
  | .ok key =>
    recordWrite "upsert_row"
    modify (modifyRows table (·.alter (keyText key) fun old ↦ some (mergeRow old fields)))

/-- Deletes the row of a key, if there is one. -/
def deleteRow (table : String) (key : List Json) : DatabaseM Unit := do
  let t ← tableFor "delete_row" table
  let expected := t.schema.primaryKey.length
  if key.length ≠ expected then
    throw (.invalidRow table
      ("key has " ++ toString key.length ++ " parts, expected " ++ toString expected))
  recordWrite "delete_row"
  modify (modifyRows table (·.erase (keyText key)))

end Database

end SchemaLedger
