import SchemaLedger.Table

/-!
# Statements

Data definition in the general form in which it comes in: columns with the type names, inline keys
and automatic values of other databases. What the database cannot express can still be written
down here, so that it is refused for what it is.
-/

namespace SchemaLedger

/-- A default as a statement spells it. -/
inductive DefaultExpr where
  | null
  | literal (text : String)
  | number (text : String)
  | bool (value : Bool)
  | currentTimestamp
  | expression (text : String)
  deriving DecidableEq, Repr

/-- The declaration of a column. -/
structure ColumnDef where
  name : String
  dataType : DataType
  notNull : Bool := false
  defaultExpr : Option DefaultExpr := none
  onUpdate : Option DefaultExpr := none
  autoIncrement : Bool := false
  generation : Option Generation := none
  primaryKey : Bool := false
  unique : Bool := false
  deriving DecidableEq, Repr

/-- The declaration of an index inside another statement. -/
structure IndexDef where
  name : Option String := none
  columns : List KeyPart
  nullFiltered : Bool := false
  storing : List String := []
  deriving DecidableEq, Repr

/-- The declaration of a foreign key. -/
structure ForeignKeyDef where
  name : Option String
  columns : List String
  referencesTable : String
  referencesColumns : List String
  deriving DecidableEq, Repr

/-- The declaration of a check. -/
structure CheckDef where
  name : Option String
  expression : String
  deriving DecidableEq, Repr

/-- The kinds of index that can be declared. -/
inductive IndexKind where
  | plain
  | unique
  | fulltext
  | spatial
  deriving DecidableEq, Repr

/-- A member of the body of a table declaration. -/
inductive Definition where
  | column (column : ColumnDef)
  | primaryKey (columns : List KeyPart)
  | index (kind : IndexKind) (index : IndexDef)
  | foreignKey (key : ForeignKeyDef)
  | check (check : CheckDef)
  deriving DecidableEq, Repr

/-- What may follow the body of a table declaration; only the first means something to the
database. -/
inductive TableOption where
  | interleave (interleave : Interleave)
  | engine (text : String)
  | charset (text : String)
  | collate (text : String)
  | comment (text : String)
  deriving DecidableEq, Repr

/-- The declaration of a table. -/
structure CreateTable where
  table : String
  ifNotExists : Bool := false
  definitions : List Definition
  options : List TableOption := []
  deriving DecidableEq, Repr

/-- A change to a table. -/
inductive AlterAction where
  | addColumn (column : ColumnDef)
  | dropColumn (column : String)
  | changeColumn (old : String) (column : ColumnDef)
  | addIndex (index : IndexDef)
  | addSpatialIndex (index : IndexDef)
  | addUniqueKey (index : IndexDef)
  | dropIndex (name : String)
  | addForeignKey (key : ForeignKeyDef)
  | addPrimaryKey (columns : List KeyPart)
  deriving DecidableEq, Repr

/-- Changes to a table in order. -/
structure AlterTable where
  table : String
  actions : List AlterAction
  deriving DecidableEq, Repr

/-- The declaration of an index by itself. -/
structure CreateIndex where
  table : String
  kind : IndexKind := .plain
  index : IndexDef
  interleaveIn : Option String := none
  deriving DecidableEq, Repr

/-- An old and a new name of a table. -/
structure TableRename where
  old : String
  new : String
  deriving DecidableEq, Repr

/-- A statement of data definition. -/
inductive Statement where
  | createTable (create : CreateTable)
  | alterTable (alter : AlterTable)
  | createIndex (create : CreateIndex)
  | dropIndex (name : String) (table : Option String)
  | renameTable (renames : List TableRename)
  | dropTable (tables : List String) (ifExists : Bool)
  deriving DecidableEq, Repr

/-! ## The statements of a table -/

/-- The default that a stored one is declared with. -/
def ColumnDefault.toExpr : ColumnDefault → DefaultExpr
  | .commitTimestamp => .currentTimestamp
  | .expression text => .expression text

/-- The declaration that creates a column again. -/
def Column.toDef (c : Column) : ColumnDef where
  name := c.name
  dataType := ⟨c.type.text, c.length, c.isArray⟩
  notNull := !c.nullable
  defaultExpr := c.defaultValue.map ColumnDefault.toExpr
  generation := c.generation

/-- An index over columns in ascending order. -/
def IndexDef.on (columns : List String) : IndexDef := { columns := columns.map fun c ↦ ⟨c, .asc⟩ }

/-- The statement that creates an index again. -/
def Index.toCreate (i : Index) : CreateIndex where
  table := i.table
  kind := if i.unique then .unique else .plain
  index := ⟨some i.name, i.columns, i.nullFiltered, i.storing⟩
  interleaveIn := i.interleaveIn

/-- The statement that creates a table again, without its indices. -/
def Table.toCreate (t : Table) : CreateTable where
  table := t.name
  definitions := t.columns.map (fun c ↦ .column c.toDef) ++
    [.primaryKey (t.primaryKey.map fun c ↦ ⟨c, .asc⟩)]
  options := (t.interleave.map TableOption.interleave).toList

/-- The statements that create a table again, its indices last. -/
def Table.statements (t : Table) : List Statement :=
  .createTable t.toCreate :: t.indices.map fun i ↦ .createIndex i.toCreate

namespace Statement

/-- The tables that a statement creates, changes, renames or drops. -/
def touched : Statement → List String
  | createTable create => [create.table]
  | alterTable alter => [alter.table]
  | createIndex create => [create.table]
  | dropIndex _ table => table.toList
  | renameTable renames => renames.flatMap fun r ↦ [r.old, r.new]
  | dropTable tables _ => tables

end Statement

end SchemaLedger
