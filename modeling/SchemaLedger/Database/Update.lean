import SchemaLedger.Database
import SchemaLedger.Database.Command
import SchemaLedger.Lowering

/-!
# Data definition on a database

What each command makes of a database: a function from databases to databases that may refuse.

A new index is added by reading the table back from its own statements with the new one behind
them. What statements do not say about a table, its default expressions above all, is gone
afterwards.
-/

namespace SchemaLedger

/-- Why a command is refused. -/
inductive Rejection where
  | unknownStatement
  | unknownAction
  | tableExists (name : String)
  | tableMissing (name : String)
  | noTable
  | parentMissing (name : String)
  | hasChild (child name : String)
  | indexExists (name : String)
  | indexMissing (name : String)
  | lostTable
  | columnExists (name : String)
  | columnMissing (name : String)
  | keyColumn
  | indexedColumn (name : String)
  deriving DecidableEq, Repr

/-- The sentence for a rejection. -/
def Rejection.message : Rejection → String
  | unknownStatement => "unsupported statement"
  | unknownAction => "unsupported ALTER TABLE action"
  | tableExists name => "table '" ++ name ++ "' already exists"
  | tableMissing name => "table '" ++ name ++ "' not found"
  | noTable => "no table in statement"
  | parentMissing name => "parent table '" ++ name ++ "' not found"
  | hasChild child name => "table '" ++ child ++ "' is interleaved in '" ++ name ++ "'"
  | indexExists name => "index '" ++ name ++ "' already exists"
  | indexMissing name => "index '" ++ name ++ "' not found"
  | lostTable => "table vanished while indexing"
  | columnExists name => "column '" ++ name ++ "' already exists"
  | columnMissing name => "column '" ++ name ++ "' not found"
  | keyColumn => "cannot drop a primary key column"
  | indexedColumn name => "column '" ++ name ++ "' is indexed"

/-- A command is rejected, or its text describes no schema. -/
inductive Refusal where
  | rejected (why : Rejection)
  | schema (error : SchemaError)
  deriving DecidableEq, Repr

/-- The error of a call whose statement is refused. -/
def Refusal.toError (statement : String) : Refusal → PassError
  | rejected why => .client "update_ddl" (why.message ++ ": " ++ Text.trim statement)
  | schema e => .schema e

namespace StoredTable

/-- The table under its new name; its indices name it. -/
def rename (t : StoredTable) (new : String) : StoredTable :=
  { t with schema :=
      { t.schema with name := new, indices := t.schema.indices.map ({ · with table := new }) } }

/-- The table with a new name of its parent. -/
def renameParent (old new : String) (t : StoredTable) : StoredTable :=
  { t with schema :=
      { t.schema with interleave := t.schema.interleave.map fun i ↦
          if i.parent = old then { i with parent := new } else i } }

end StoredTable

namespace Database

/-- Rejects a command. -/
def reject {α : Type} (why : Rejection) : Except Refusal α := .error (.rejected why)

/-- A table that has to be there. -/
def demand (db : Database) (name : String) : Except Refusal StoredTable :=
  match db.tables[name]? with
  | some t => .ok t
  | none => reject (.tableMissing name)

/-- Stores a table under a name. -/
def store (db : Database) (name : String) (t : StoredTable) : Database :=
  { db with tables := db.tables.insert name t }

/-! ## Tables -/

/-- Creates the table of a statement. -/
def createTable (db : Database) (statement name : String) (ifNotExists : Bool) :
    Except Refusal Database :=
  if db.tables.contains name then
    if ifNotExists then .ok db else reject (.tableExists name)
  else do
    let parsed ← (Dump.parse [statement]).mapError .schema
    match parsed[name]? with
    | none => reject .noTable
    | some table =>
      match table.interleave with
      | none => return db.store name { schema := table }
      | some i =>
        if db.tables.contains i.parent then return db.store name { schema := table }
        else reject (.parentMissing i.parent)

/-- The first table that is interleaved in a table. -/
def child? (db : Database) (name : String) : Option Table :=
  db.schema.values.find? fun t ↦ t.interleave.any (·.parent == name)

/-- Drops a table with its rows; no table may be interleaved in it. -/
def dropTable (db : Database) (name : String) (ifExists : Bool) : Except Refusal Database :=
  if db.tables.contains name then
    match db.child? name with
    | some child => reject (.hasChild child.name name)
    | none => .ok { db with tables := db.tables.erase name }
  else if ifExists then .ok db
  else reject (.tableMissing name)

/-- Gives a table another name. Tables interleaved in it follow. -/
def renameTable (db : Database) (old new : String) : Except Refusal Database :=
  if db.tables.contains new then reject (.tableExists new)
  else do
    let t ← db.demand old
    let others := (db.tables.erase old).map fun _ ↦ StoredTable.renameParent old new
    return { db with tables := others.insert new (t.rename new) }

/-! ## Indices -/

/-- The first table that has an index of a name. -/
def indexOwner? (db : Database) (index : String) : Option Table :=
  db.schema.values.find? fun t ↦ (t.index? index).isSome

/-- Creates the index of a statement. -/
def createIndex (db : Database) (statement index table : String) : Except Refusal Database :=
  if (db.indexOwner? index).isSome then reject (.indexExists index)
  else do
    let t ← db.demand table
    let own ← t.schema.sql.mapError .schema
    let parsed ← (Dump.parse (own ++ [statement])).mapError .schema
    match parsed[table]? with
    | none => reject .lostTable
    | some schema => return db.store table { t with schema }

/-- Drops an index. -/
def dropIndex (db : Database) (index : String) : Except Refusal Database :=
  match db.indexOwner? index with
  | none => reject (.indexMissing index)
  | some owner => do
    let t ← db.demand owner.name
    return db.store owner.name { t with schema := t.schema.dropIndex index }

/-! ## Columns -/

/-- Appends the column of a text. -/
def addColumn (db : Database) (table : String) (text : List Char) : Except Refusal Database := do
  let column ← (Dump.columnOfText text).mapError .schema
  let t ← db.demand table
  if t.schema.hasColumn column.name then reject (.columnExists column.name)
  else
    return db.store table
      { t with schema := { t.schema with columns := t.schema.columns ++ [column] } }

/-- Drops a column with its values, unless the key or an index needs it. -/
def dropColumn (db : Database) (table column : String) : Except Refusal Database := do
  let t ← db.demand table
  if !t.schema.hasColumn column then reject (.columnMissing column)
  else if t.schema.isKeyColumn column then reject .keyColumn
  else if t.schema.isIndexed column then reject (.indexedColumn column)
  else
    return db.store table
      { schema := { t.schema with columns := t.schema.columns.filter (·.name != column) }
        rows := t.rows.map fun _ row ↦ row.erase column }

/-- Permits a column to hold the commit timestamp, or takes the permission away. -/
def allowCommitTimestamp (db : Database) (table column : String) (allowed : Bool) :
    Except Refusal Database := do
  let t ← db.demand table
  if !t.schema.hasColumn column then reject (.columnMissing column)
  else
    let change (c : Column) : Column :=
      if allowed then { c with defaultValue := some .commitTimestamp }
      else if c.defaultValue = some .commitTimestamp then { c with defaultValue := none }
      else c
    return db.store table { t with schema := t.schema.modifyColumn column change }

/-- Gives a column the type, the nullability and the default of a text. -/
def alterColumn (db : Database) (table : String) (text : List Char) : Except Refusal Database := do
  let altered ← (Dump.columnOfText text).mapError .schema
  let t ← db.demand table
  if !t.schema.hasColumn altered.name then reject (.columnMissing altered.name)
  else
    let change (c : Column) : Column :=
      { c with
        type := altered.type
        nullable := altered.nullable
        length := altered.length
        isArray := altered.isArray
        defaultValue := altered.defaultValue }
    return db.store table { t with schema := t.schema.modifyColumn altered.name change }

/-! ## Commands -/

/-- Changes a table. -/
def alterTable (db : Database) (table : String) : TableAction → Except Refusal Database
  | .addColumn text => db.addColumn table text
  | .dropColumn column => db.dropColumn table column
  | .allowCommitTimestamp column allowed => db.allowCommitTimestamp table column allowed
  | .alterColumn text => db.alterColumn table text
  | .renameTo new => db.renameTable table new

/-- What the command of a statement makes of the database. -/
def run (db : Database) (statement : String) : Except Refusal Database :=
  match Command.ofText? statement with
  | some (.createTable name ifNotExists) => db.createTable statement name ifNotExists
  | some (.createIndex name table) => db.createIndex statement name table
  | some (.dropTable name ifExists) => db.dropTable name ifExists
  | some (.dropIndex name) => db.dropIndex name
  | some (.alterTable table (some action)) => db.alterTable table action
  | some (.alterTable _ none) => reject .unknownAction
  | none => reject .unknownStatement

/-! ## The dump -/

/-- The number of steps up a chain of parents, at most `limit`. -/
def depthFrom (s : Schema) : Nat → Option String → Nat
  | 0, _ => 0
  | _ + 1, none => 0
  | limit + 1, some parent =>
    1 + depthFrom s limit ((s[parent]?).bind fun t ↦ t.interleave.map (·.parent))

/-- How deep a table is interleaved; a chain of parents longer than there are tables is cut one
step later. -/
def depth (s : Schema) (t : Table) : Nat := depthFrom s (s.size + 1) (t.interleave.map (·.parent))

/-- The tables, parents before children, and by name where that leaves them free. -/
def dumpOrder (s : Schema) : List Table :=
  (List.range (s.size + 2)).flatMap fun d ↦ s.values.filter fun t ↦ depth s t == d

/-- The statements that describe the schema. -/
def dumpStatements (s : Schema) : Except SchemaError (List String) :=
  List.flatten <$> (dumpOrder s).mapM Table.sql

/-- The statements that describe the database. -/
def schemaDdl : DatabaseM (List String) := do
  match dumpStatements (← get).schema with
  | .ok statements => return statements
  | .error e => throw (.schema e)

end Database

end SchemaLedger
