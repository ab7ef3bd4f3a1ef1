import SchemaLedger.Database.Update

/-!
# Statements executed where the tables are

A statement is executed on the tables themselves: its command looks up what it needs and makes its
changes one after another, and it may be refused at any step. A table that is to have another name
is even taken out first, to see whether it is there, and put back when the tables interleaved in it
have followed. That a refused command leaves nothing half done is a matter of the order of its
steps.

A batch executes its statements one by one and stops at the first that is refused, so those before
it stay applied.
-/

namespace SchemaLedger

/-- A change of a database where it is. It may be refused at any of its steps. -/
abbrev Edit := EStateM Refusal Database

namespace Edit

variable {α : Type}

/-- Refuses to go on. -/
def refuse (why : Rejection) : Edit α := throw (.rejected why)

/-- What was to be read from texts. -/
def reading (read : Except SchemaError α) : Edit α :=
  match read with
  | .ok a => pure a
  | .error e => throw (.schema e)

/-- A table that has to be there. -/
def demand (name : String) : Edit StoredTable := do
  match (← get).tables[name]? with
  | some t => return t
  | none => refuse (.tableMissing name)

/-- Puts a table under a name. -/
def put (name : String) (t : StoredTable) : Edit Unit :=
  modify fun db ↦ { db with tables := db.tables.insert name t }

/-- Takes the table of a name out, if there is one. -/
def takeOut (name : String) : Edit (Option StoredTable) :=
  modifyGet fun db ↦ (db.tables[name]?, { db with tables := db.tables.erase name })

/-- Changes the table of a name, if there is one. -/
def change (name : String) (f : StoredTable → StoredTable) : Edit Unit :=
  modify fun db ↦ { db with tables := db.tables.modify name f }

/-- Changes what is said of the table of a name, if there is one. -/
def changeSchema (name : String) (f : Table → Table) : Edit Unit :=
  change name fun t ↦ { t with schema := f t.schema }

/-- Changes all tables. -/
def changeAll (f : StoredTable → StoredTable) : Edit Unit :=
  modify fun db ↦ { db with tables := db.tables.map fun _ t ↦ f t }

/-! ## Tables -/

/-- Creates the table of a statement. -/
def createTable (statement name : String) (ifNotExists : Bool) : Edit Unit := do
  if (← get).tables.contains name then
    if ifNotExists then pure () else refuse (.tableExists name)
  else
    let parsed ← reading (Dump.parse [statement])
    match parsed[name]? with
    | none => refuse .noTable
    | some table =>
      match table.interleave with
      | none => put name { schema := table }
      | some i =>
        if (← get).tables.contains i.parent then put name { schema := table }
        else refuse (.parentMissing i.parent)

/-- Drops a table with its rows; no table may be interleaved in it. -/
def dropTable (name : String) (ifExists : Bool) : Edit Unit := do
  let db ← get
  if db.tables.contains name then
    match db.child? name with
    | some child => refuse (.hasChild child.name name)
    | none => discard (takeOut name)
  else if ifExists then pure ()
  else refuse (.tableMissing name)

/-- Gives a table another name. Tables interleaved in it follow while it is out. -/
def renameTable (old new : String) : Edit Unit := do
  if (← get).tables.contains new then refuse (.tableExists new)
  else
    match ← takeOut old with
    | none => refuse (.tableMissing old)
    | some t =>
      changeAll (StoredTable.renameParent old new)
      put new (t.rename new)

/-! ## Indices -/

/-- Creates the index of a statement. -/
def createIndex (statement index table : String) : Edit Unit := do
  if ((← get).indexOwner? index).isSome then refuse (.indexExists index)
  else
    let t ← demand table
    let own ← reading t.schema.sql
    let parsed ← reading (Dump.parse (own ++ [statement]))
    match parsed[table]? with
    | none => refuse .lostTable
    | some schema => changeSchema table fun _ ↦ schema

/-- Drops an index, then the constraint that it was, and then settles which columns are unique
without it. -/
def dropIndex (index : String) : Edit Unit := do
  match (← get).indexOwner? index with
  | none => refuse (.indexMissing index)
  | some owner =>
    let _ ← demand owner.name
    changeSchema owner.name fun t ↦ { t with indices := t.indices.filter (·.name != index) }
    changeSchema owner.name fun t ↦ { t with uniques := t.uniques.filter (·.name != index) }
    changeSchema owner.name fun t ↦
      { t with columns := t.columns.map fun c ↦
          { c with isUnique := t.uniques.any (·.columns.contains c.name) } }

/-! ## Columns -/

/-- Appends the column of a text. -/
def addColumn (table : String) (text : List Char) : Edit Unit := do
  let column ← reading (Dump.columnOfText text)
  let t ← demand table
  if t.schema.hasColumn column.name then refuse (.columnExists column.name)
  else changeSchema table fun t ↦ { t with columns := t.columns ++ [column] }

/-- Drops a column and then its values, unless the key or an index needs it. -/
def dropColumn (table column : String) : Edit Unit := do
  let t ← demand table
  if !t.schema.hasColumn column then refuse (.columnMissing column)
  else if t.schema.isKeyColumn column then refuse .keyColumn
  else if t.schema.isIndexed column then refuse (.indexedColumn column)
  else
    changeSchema table fun t ↦ { t with columns := t.columns.filter (·.name != column) }
    change table fun t ↦ { t with rows := t.rows.map fun _ row ↦ row.erase column }

/-- Permits a column to hold the commit timestamp, or takes the permission away. -/
def allowCommitTimestamp (table column : String) (allowed : Bool) : Edit Unit := do
  let t ← demand table
  if !t.schema.hasColumn column then refuse (.columnMissing column)
  else
    changeSchema table (·.modifyColumn column fun c ↦
      if allowed then { c with defaultValue := some .commitTimestamp }
      else if c.defaultValue = some .commitTimestamp then { c with defaultValue := none }
      else c)

/-- Gives a column the type, the nullability and the default of a text. -/
def alterColumn (table : String) (text : List Char) : Edit Unit := do
  let altered ← reading (Dump.columnOfText text)
  let t ← demand table
  if !t.schema.hasColumn altered.name then refuse (.columnMissing altered.name)
  else
    changeSchema table (·.modifyColumn altered.name fun c ↦
      { c with
        type := altered.type
        nullable := altered.nullable
        length := altered.length
        isArray := altered.isArray
        defaultValue := altered.defaultValue })

/-! ## Statements -/

/-- Changes a table. -/
def alterTable (table : String) : TableAction → Edit Unit
  | .addColumn text => addColumn table text
  | .dropColumn column => dropColumn table column
  | .allowCommitTimestamp column allowed => allowCommitTimestamp table column allowed
  | .alterColumn text => alterColumn table text
  | .renameTo new => renameTable table new

/-- Performs the command of a statement. -/
def perform (statement : String) : Edit Unit :=
  match Command.ofText? statement with
  | some (.createTable name ifNotExists) => createTable statement name ifNotExists
  | some (.createIndex name table) => createIndex statement name table
  | some (.dropTable name ifExists) => dropTable name ifExists
  | some (.dropIndex name) => dropIndex name
  | some (.alterTable table (some action)) => alterTable table action
  | some (.alterTable _ none) => refuse .unknownAction
  | none => refuse .unknownStatement

end Edit

namespace Database

/-- Executes a statement and remembers it. -/
def execute (statement : String) : DatabaseM Unit := do
  EStateM.adaptExcept (·.toError statement) (Edit.perform statement)
  modify fun db ↦ { db with appliedDdl := db.appliedDdl ++ [statement] }

/-- Executes statements up to the first that is refused. -/
def updateDdl (statements : List String) : DatabaseM Unit := statements.forM execute

end Database

end SchemaLedger
