import SchemaLedger.Database.Edit

/-!
# How a database is kept

The tables of a database are kept in one map and their rows in another, each under the names of the
tables. Nothing in the maps themselves says that they are about the same tables: a table that comes,
goes or is given another name does so in both, one after the other, and all other changes are
changes of one of them. What the rows of a table are, where there is no entry for them, is for each
operation to say.

The operations are those on a `Database`, where a table holds its rows, step by step.
-/

namespace SchemaLedger

/-- A database as it is kept. -/
structure Storage where
  tables : Schema := ∅
  rows : Std.ExtTreeMap String (Std.ExtTreeMap String Row) := ∅
  appliedDdl : List String := []
  writes : Nat := 0
  writeLimit : Option Nat := none

/-- A program over a storage that may fail. What it has done by then stays done. -/
abbrev StorageM (ε : Type) := EStateM ε Storage

namespace Storage

variable {ε α : Type}

/-- The storage with the tables of a dump and no rows. -/
def ofDump (dump : String) : Except SchemaError Storage := do
  let tables ← Dump.parseText dump
  return { tables, rows := tables.map fun _ _ ↦ ∅ }

/-- The rows that are kept under a name, in the order of their keys. -/
def rowsOf (s : Storage) (name : String) : List Row := (s.rows[name]?.map (·.values)).getD []

/-- Refuses writes after `n` more. The sum is a natural number, so there is always a limit to
reach. -/
def refuseAfter (s : Storage) (n : Nat) : Storage := { s with writeLimit := some (s.writes + n) }

/-- Refuses no writes. -/
def refuseNone (s : Storage) : Storage := { s with writeLimit := none }

/-! ## Steps -/

/-- Refuses to go on. -/
def refuse (why : Rejection) : StorageM Refusal α := throw (.rejected why)

/-- What was to be read from texts. -/
def reading (read : Except SchemaError α) : StorageM Refusal α :=
  MonadExcept.ofExcept (read.mapError .schema)

/-- A table that has to be there. -/
def demand (name : String) : StorageM Refusal Table := do
  match (← get).tables[name]? with
  | some t => return t
  | none => refuse (.tableMissing name)

/-- Puts a table under a name. -/
def putTable (name : String) (t : Table) : StorageM ε Unit :=
  modify fun s ↦ { s with tables := s.tables.insert name t }

/-- Puts rows under a name. -/
def putRows (name : String) (rows : Std.ExtTreeMap String Row) : StorageM ε Unit :=
  modify fun s ↦ { s with rows := s.rows.insert name rows }

/-- Takes out the table under a name, if there is one. -/
def takeTable (name : String) : StorageM ε (Option Table) :=
  modifyGet fun s ↦ (s.tables[name]?, { s with tables := s.tables.erase name })

/-- Takes out the rows under a name, if there are any. -/
def takeRows (name : String) : StorageM ε (Option (Std.ExtTreeMap String Row)) :=
  modifyGet fun s ↦ (s.rows[name]?, { s with rows := s.rows.erase name })

/-- Changes the table under a name, if there is one. -/
def changeTable (name : String) (f : Table → Table) : StorageM ε Unit :=
  modify fun s ↦ { s with tables := s.tables.modify name f }

/-- Changes the rows under a name, if there are any. -/
def changeRows (name : String) (f : Std.ExtTreeMap String Row → Std.ExtTreeMap String Row) :
    StorageM ε Unit :=
  modify fun s ↦ { s with rows := s.rows.modify name f }

/-- The first table that has an index of a name. -/
def indexOwner? (s : Storage) (index : String) : Option Table :=
  s.tables.values.find? fun t ↦ (t.index? index).isSome

/-! ## Statements -/

/-- Creates the table of a statement, and a place for its rows. -/
def createTable (statement name : String) (ifNotExists : Bool) : StorageM Refusal Unit := do
  if (← get).tables.contains name then
    if ifNotExists then pure () else refuse (.tableExists name)
  else
    let parsed ← reading (Dump.parse [statement])
    match parsed[name]? with
    | none => refuse .noTable
    | some table =>
      match table.interleave with
      | none => pure ()
      | some i =>
        if (← get).tables.contains i.parent then pure () else refuse (.parentMissing i.parent)
      putTable name table
      putRows name ∅

/-- Drops a table and then its rows; no table may be interleaved in it. -/
def dropTable (name : String) (ifExists : Bool) : StorageM Refusal Unit := do
  let s ← get
  if s.tables.contains name then
    match s.tables.values.find? fun t ↦ t.interleave.any (·.parent == name) with
    | some child => refuse (.hasChild child.name name)
    | none =>
      discard (takeTable name)
      discard (takeRows name)
  else if ifExists then pure ()
  else refuse (.tableMissing name)

/-- Gives a table another name. Tables interleaved in it follow while it is out, and its rows are
moved when it is back. -/
def renameTable (old new : String) : StorageM Refusal Unit := do
  if (← get).tables.contains new then refuse (.tableExists new)
  else
    match ← takeTable old with
    | none => refuse (.tableMissing old)
    | some t =>
      modify fun s ↦ { s with
        tables := s.tables.map fun _ u ↦ { u with
          interleave := u.interleave.map fun i ↦
            if i.parent = old then { i with parent := new } else i } }
      putTable new { t with name := new, indices := t.indices.map ({ · with table := new }) }
      let rows ← takeRows old
      putRows new (rows.getD ∅)

/-- Creates the index of a statement: the table is read back with it and put in its own place. -/
def createIndex (statement index table : String) : StorageM Refusal Unit := do
  if ((← get).indexOwner? index).isSome then refuse (.indexExists index)
  else
    let t ← demand table
    let own ← reading t.sql
    let parsed ← reading (Dump.parse (own ++ [statement]))
    match parsed[table]? with
    | none => refuse .lostTable
    | some updated => putTable table updated

/-- Drops an index, then the constraint that it was, and then settles which columns are unique
without it. -/
def dropIndex (index : String) : StorageM Refusal Unit := do
  match (← get).indexOwner? index with
  | none => refuse (.indexMissing index)
  | some owner =>
    let _ ← demand owner.name
    changeTable owner.name fun t ↦ { t with indices := t.indices.filter (·.name != index) }
    changeTable owner.name fun t ↦ { t with uniques := t.uniques.filter (·.name != index) }
    changeTable owner.name fun t ↦
      { t with columns := t.columns.map fun c ↦
          { c with isUnique := (t.uniques.flatMap (·.columns)).contains c.name } }

/-- Appends the column of a text. -/
def addColumn (table : String) (text : List Char) : StorageM Refusal Unit := do
  let column ← reading (Dump.columnOfText text)
  let t ← demand table
  if t.hasColumn column.name then refuse (.columnExists column.name)
  else changeTable table fun t ↦ { t with columns := t.columns ++ [column] }

/-- Drops a column, unless the key or an index needs it, and then its values, where rows are
kept. -/
def dropColumn (table column : String) : StorageM Refusal Unit := do
  let t ← demand table
  if !t.hasColumn column then refuse (.columnMissing column)
  else if t.isKeyColumn column then refuse .keyColumn
  else if t.isIndexed column then refuse (.indexedColumn column)
  else
    changeTable table fun t ↦ { t with columns := t.columns.filter (·.name != column) }
    changeRows table fun rows ↦ rows.map fun _ row ↦ row.erase column

/-- Permits a column to hold the commit timestamp, or takes the permission away. -/
def allowCommitTimestamp (table column : String) (allowed : Bool) : StorageM Refusal Unit := do
  let t ← demand table
  if !t.hasColumn column then refuse (.columnMissing column)
  else
    changeTable table (·.modifyColumn column fun c ↦
      if allowed then { c with defaultValue := some .commitTimestamp }
      else if c.defaultValue = some .commitTimestamp then { c with defaultValue := none }
      else c)

/-- Gives a column the type, the nullability and the default of a text. -/
def alterColumn (table : String) (text : List Char) : StorageM Refusal Unit := do
  let altered ← reading (Dump.columnOfText text)
  let t ← demand table
  if !t.hasColumn altered.name then refuse (.columnMissing altered.name)
  else
    changeTable table (·.modifyColumn altered.name fun c ↦
      { c with
        type := altered.type
        nullable := altered.nullable
        length := altered.length
        isArray := altered.isArray
        defaultValue := altered.defaultValue })

/-- Changes a table. -/
def alterTable (table : String) : TableAction → StorageM Refusal Unit
  | .addColumn text => addColumn table text
  | .dropColumn column => dropColumn table column
  | .allowCommitTimestamp column allowed => allowCommitTimestamp table column allowed
  | .alterColumn text => alterColumn table text
  | .renameTo new => renameTable table new

/-- Performs the command of a statement. -/
def perform (statement : String) : StorageM Refusal Unit :=
  match Command.ofText? statement with
  | some (.createTable name ifNotExists) => createTable statement name ifNotExists
  | some (.createIndex name table) => createIndex statement name table
  | some (.dropTable name ifExists) => dropTable name ifExists
  | some (.dropIndex name) => dropIndex name
  | some (.alterTable table (some action)) => alterTable table action
  | some (.alterTable _ none) => refuse .unknownAction
  | none => refuse .unknownStatement

/-! ## Calls -/

/-- Executes a statement and remembers it. -/
def execute (statement : String) : StorageM PassError Unit := do
  EStateM.adaptExcept (·.toError statement) (perform statement)
  modify fun s ↦ { s with appliedDdl := s.appliedDdl ++ [statement] }

/-- Executes statements up to the first that is refused. -/
def updateDdl (statements : List String) : StorageM PassError Unit := statements.forM execute

/-- The statements that describe the tables. -/
def schemaDdl : StorageM PassError (List String) := do
  match Database.dumpStatements (← get).tables with
  | .ok statements => return statements
  | .error e => throw (.schema e)

/-- The table of a call. -/
def tableFor (operation name : String) : StorageM PassError Table := do
  match (← get).tables[name]? with
  | some t => return t
  | none => throw (.client operation ("table '" ++ name ++ "' not found"))

/-- Counts a write, or refuses it. -/
def recordWrite (operation : String) : StorageM PassError Unit := do
  let s ← get
  if s.writeLimit.any (· ≤ s.writes) then throw (.client operation "injected write failure")
  else set { s with writes := s.writes + 1 }

/-- The values of columns for all rows that are kept for a table. -/
def readRows (table : String) (columns : List String) : StorageM PassError (List (List Json)) := do
  let t ← tableFor "read_rows" table
  match columns.find? (!t.hasColumn ·) with
  | some missing =>
    throw (.client "read_rows" ("column '" ++ table ++ "." ++ missing ++ "' not found"))
  | none =>
    let rows := (← get).rows[table]?
    return (rows.map fun rows ↦ rows.values.map fun row ↦
      columns.map fun c ↦ (row[c]?).getD .null).getD []

/-- Inserts a row, or puts its fields over those of the row with its key. Where nothing is kept yet
under the name of the table, or under the key, it starts with nothing. -/
def upsertRow (table : String) (columns : List String) (values : List Json) :
    StorageM PassError Unit := do
  if columns.length ≠ values.length then
    throw (.invalidRow table
      (toString columns.length ++ " columns but " ++ toString values.length ++ " values"))
  let t ← tableFor "upsert_row" table
  if let some missing := columns.find? (!t.hasColumn ·) then
    throw (.invalidRow table ("unknown column '" ++ missing ++ "'"))
  let incoming := Database.mergeRow none (columns.zip values)
  match Database.keyValues t.primaryKey incoming with
  | .error missing => throw (.invalidRow table ("missing key column '" ++ missing ++ "'"))
  | .ok key =>
    recordWrite "upsert_row"
    modify fun s ↦ { s with
      rows := s.rows.alter table fun rows ↦
        some ((rows.getD ∅).alter (Database.keyText key) fun old ↦
          some (old.getD ∅ ∪ incoming)) }

/-- Deletes the row of a key, if there is one. -/
def deleteRow (table : String) (key : List Json) : StorageM PassError Unit := do
  let t ← tableFor "delete_row" table
  let expected := t.primaryKey.length
  if key.length ≠ expected then
    throw (.invalidRow table
      ("key has " ++ toString key.length ++ " parts, expected " ++ toString expected))
  recordWrite "delete_row"
  changeRows table (·.erase (Database.keyText key))

end Storage

end SchemaLedger
