import SchemaLedger.Statement
import SchemaLedger.Table.Json

/-!
# Statements as JSON

This is the form in which statements come in. The kind of a statement, a definition and a change
stands in a field beside its own fields; options and defaults keep their kind and their value in
two fields. Flags that are off, lists that are empty and values that are missing may be left out;
written back, every field is there.
-/

namespace SchemaLedger

open Json Json.RecordReader

namespace DataType

/-- A declared type with all its fields. -/
def toJson (d : DataType) : Json :=
  .object [("name", .string d.name), ("length", ofOption ColumnLength.toJson d.length),
    ("array", .bool d.array)]

/-- Reads a declared type. -/
def decoder : Decoder DataType := record do
  return ⟨← field "name" .string, ← optionalD "length" ColumnLength.decoder,
    ← fieldD "array" false .bool⟩

end DataType

namespace DefaultExpr

/-- A default by its kind and value; two kinds have no value. -/
def toJson : DefaultExpr → Json
  | null => .object [("type", .string "null")]
  | literal text => .object [("type", .string "literal"), ("value", .string text)]
  | number text => .object [("type", .string "number"), ("value", .string text)]
  | bool value => .object [("type", .string "bool"), ("value", .bool value)]
  | currentTimestamp => .object [("type", .string "current_timestamp")]
  | expression text => .object [("type", .string "expression"), ("value", .string text)]

/-- Reads a default. -/
def decoder : Decoder DefaultExpr := withContent "type" "value"
  [("null", .constant null), ("literal", .content (.map literal .string)),
    ("number", .content (.map number .string)), ("bool", .content (.map bool .bool)),
    ("current_timestamp", .constant currentTimestamp),
    ("expression", .content (.map expression .string))]

end DefaultExpr

namespace ColumnDef

/-- The fields of a column. -/
def jsonFields (c : ColumnDef) : List (String × Json) :=
  [("name", .string c.name), ("data_type", c.dataType.toJson), ("not_null", .bool c.notNull),
    ("default", ofOption DefaultExpr.toJson c.defaultExpr),
    ("on_update", ofOption DefaultExpr.toJson c.onUpdate),
    ("auto_increment", .bool c.autoIncrement),
    ("generation", ofOption Generation.toJson c.generation),
    ("primary_key", .bool c.primaryKey), ("unique", .bool c.unique)]

/-- Reads the fields of a column. -/
def reader : RecordReader ColumnDef := do
  return {
    name := ← field "name" .string
    dataType := ← field "data_type" DataType.decoder
    notNull := ← fieldD "not_null" false .bool
    defaultExpr := ← optionalD "default" DefaultExpr.decoder
    onUpdate := ← optionalD "on_update" DefaultExpr.decoder
    autoIncrement := ← fieldD "auto_increment" false .bool
    generation := ← optionalD "generation" Generation.decoder
    primaryKey := ← fieldD "primary_key" false .bool
    unique := ← fieldD "unique" false .bool }

/-- Reads a column. -/
def decoder : Decoder ColumnDef := record reader

end ColumnDef

namespace KeyPart

/-- The field of a list of key parts. -/
def jsonField (parts : List KeyPart) : String × Json := ("columns", .array (parts.map toJson))

/-- Reads the field of a list of key parts. -/
def listReader : RecordReader (List KeyPart) := field "columns" (.list decoder)

end KeyPart

namespace IndexDef

/-- The fields of an index. -/
def jsonFields (i : IndexDef) : List (String × Json) :=
  [("name", ofOption .string i.name), KeyPart.jsonField i.columns,
    ("null_filtered", .bool i.nullFiltered), ("storing", ofStrings i.storing)]

/-- Reads the fields of an index. -/
def reader : RecordReader IndexDef := do
  return ⟨← optionalD "name" .string, ← KeyPart.listReader, ← fieldD "null_filtered" false .bool,
    ← fieldD "storing" [] (.list .string)⟩

end IndexDef

namespace ForeignKeyDef

/-- The fields of a foreign key. -/
def jsonFields (k : ForeignKeyDef) : List (String × Json) :=
  [("name", ofOption .string k.name), ("columns", ofStrings k.columns),
    ("references_table", .string k.referencesTable),
    ("references_columns", ofStrings k.referencesColumns)]

/-- Reads the fields of a foreign key. -/
def reader : RecordReader ForeignKeyDef := do
  return ⟨← optionalD "name" .string, ← field "columns" (.list .string),
    ← field "references_table" .string, ← field "references_columns" (.list .string)⟩

end ForeignKeyDef

namespace CheckDef

/-- The fields of a check. -/
def jsonFields (c : CheckDef) : List (String × Json) :=
  [("name", ofOption .string c.name), ("expression", .string c.expression)]

/-- Reads the fields of a check. -/
def reader : RecordReader CheckDef := do
  return ⟨← optionalD "name" .string, ← field "expression" .string⟩

end CheckDef

namespace IndexKind

/-- The kind in the definition of a table. -/
def definitionName : IndexKind → String
  | plain => "index"
  | unique => "unique_key"
  | fulltext => "fulltext_index"
  | spatial => "spatial_index"

/-- The kind in a statement of its own. -/
def text : IndexKind → String
  | plain => "plain"
  | unique => "unique"
  | fulltext => "fulltext"
  | spatial => "spatial"

/-- All kinds. -/
def all : List IndexKind := [plain, unique, fulltext, spatial]

/-- Reads a kind. -/
def decoder : Decoder IndexKind := constants text all

end IndexKind

namespace Definition

/-- A definition with its kind. -/
def toJson : Definition → Json
  | column c => .object (("definition", .string "column") :: c.jsonFields)
  | primaryKey parts =>
    .object [("definition", .string "primary_key"), KeyPart.jsonField parts]
  | index kind i => .object (("definition", .string kind.definitionName) :: i.jsonFields)
  | foreignKey k => .object (("definition", .string "foreign_key") :: k.jsonFields)
  | check c => .object (("definition", .string "check") :: c.jsonFields)

/-- The kinds of definitions with their fields. -/
def cases : List (String × RecordReader Definition) :=
  [("column", column <$> ColumnDef.reader), ("primary_key", primaryKey <$> KeyPart.listReader)] ++
    IndexKind.all.map (fun k ↦ (k.definitionName, index k <$> IndexDef.reader)) ++
    [("foreign_key", foreignKey <$> ForeignKeyDef.reader), ("check", check <$> CheckDef.reader)]

/-- Reads a definition. -/
def decoder : Decoder Definition := tagged "definition" cases

end Definition

namespace TableOption

/-- An option by its name and value. -/
def toJson : TableOption → Json
  | interleave i => .object [("option", .string "interleave_in_parent"), ("value", i.toJson)]
  | engine text => .object [("option", .string "engine"), ("value", .string text)]
  | charset text => .object [("option", .string "charset"), ("value", .string text)]
  | collate text => .object [("option", .string "collate"), ("value", .string text)]
  | comment text => .object [("option", .string "comment"), ("value", .string text)]

/-- Reads a parent, whose deletion does nothing if it does not say otherwise; its fields have to be
named. -/
def parent : Decoder Interleave
  | p, .object fields => record (do
      return ⟨← field "parent" .string,
        ← fieldD "on_delete_cascade" false .bool⟩) p (.object fields)
  | _, _ => none

/-- Reads an option. -/
def decoder : Decoder TableOption := withContent "option" "value"
  [("interleave_in_parent", .content (.map interleave parent)),
    ("engine", .content (.map engine .string)), ("charset", .content (.map charset .string)),
    ("collate", .content (.map collate .string)), ("comment", .content (.map comment .string))]

end TableOption

namespace CreateTable

/-- The fields of a table. -/
def jsonFields (c : CreateTable) : List (String × Json) :=
  [("table", .string c.table), ("if_not_exists", .bool c.ifNotExists),
    ("definitions", .array (c.definitions.map Definition.toJson)),
    ("options", .array (c.options.map TableOption.toJson))]

/-- Reads the fields of a table. -/
def reader : RecordReader CreateTable := do
  return ⟨← field "table" .string, ← fieldD "if_not_exists" false .bool,
    ← field "definitions" (.list Definition.decoder),
    ← fieldD "options" [] (.list TableOption.decoder)⟩

end CreateTable

namespace AlterAction

/-- A change with its kind. -/
def toJson : AlterAction → Json
  | addColumn c => .object (("action", .string "add_column") :: c.jsonFields)
  | dropColumn column => .object [("action", .string "drop_column"), ("column", .string column)]
  | changeColumn old c =>
    .object [("action", .string "change_column"), ("old_name", .string old),
      ("column", .object c.jsonFields)]
  | addIndex i => .object (("action", .string "add_index") :: i.jsonFields)
  | addSpatialIndex i => .object (("action", .string "add_spatial_index") :: i.jsonFields)
  | addUniqueKey i => .object (("action", .string "add_unique_key") :: i.jsonFields)
  | dropIndex name => .object [("action", .string "drop_index"), ("name", .string name)]
  | addForeignKey k => .object (("action", .string "add_foreign_key") :: k.jsonFields)
  | addPrimaryKey parts =>
    .object [("action", .string "add_primary_key"), KeyPart.jsonField parts]

/-- The kinds of changes with their fields. -/
def cases : List (String × RecordReader AlterAction) :=
  [("add_column", addColumn <$> ColumnDef.reader),
    ("drop_column", dropColumn <$> field "column" .string),
    ("change_column",
      changeColumn <$> field "old_name" .string <*> field "column" ColumnDef.decoder),
    ("add_index", addIndex <$> IndexDef.reader),
    ("add_spatial_index", addSpatialIndex <$> IndexDef.reader),
    ("add_unique_key", addUniqueKey <$> IndexDef.reader),
    ("drop_index", dropIndex <$> field "name" .string),
    ("add_foreign_key", addForeignKey <$> ForeignKeyDef.reader),
    ("add_primary_key", addPrimaryKey <$> KeyPart.listReader)]

/-- Reads a change. -/
def decoder : Decoder AlterAction := tagged "action" cases

end AlterAction

namespace CreateIndex

/-- The fields of an index statement. -/
def jsonFields (c : CreateIndex) : List (String × Json) :=
  [("name", ofOption .string c.index.name), ("table", .string c.table),
    ("kind", .string c.kind.text), KeyPart.jsonField c.index.columns,
    ("null_filtered", .bool c.index.nullFiltered), ("storing", ofStrings c.index.storing),
    ("interleave_in", ofOption .string c.interleaveIn)]

/-- An index statement without its kind of statement. -/
def toJson (c : CreateIndex) : Json := .object c.jsonFields

/-- Reads the fields of an index statement. -/
def reader : RecordReader CreateIndex := do
  let name ← optionalD "name" .string
  let table ← field "table" .string
  let kind ← fieldD "kind" .plain IndexKind.decoder
  let columns ← KeyPart.listReader
  let nullFiltered ← fieldD "null_filtered" false .bool
  let storing ← fieldD "storing" [] (.list .string)
  let interleaveIn ← optionalD "interleave_in" .string
  return ⟨table, kind, ⟨name, columns, nullFiltered, storing⟩, interleaveIn⟩

end CreateIndex

namespace TableRename

/-- The two names of a table. -/
def toJson (r : TableRename) : Json := .object [("from", .string r.old), ("to", .string r.new)]

/-- Reads the two names of a table. -/
def decoder : Decoder TableRename := record do
  return ⟨← field "from" .string, ← field "to" .string⟩

end TableRename

namespace Statement

/-- A statement with its kind. -/
def toJson : Statement → Json
  | createTable c => .object (("statement", .string "create_table") :: c.jsonFields)
  | alterTable a =>
    .object [("statement", .string "alter_table"), ("table", .string a.table),
      ("actions", .array (a.actions.map AlterAction.toJson))]
  | createIndex c => .object (("statement", .string "create_index") :: c.jsonFields)
  | dropIndex name table =>
    .object [("statement", .string "drop_index"), ("name", .string name),
      ("table", ofOption .string table)]
  | renameTable renames =>
    .object [("statement", .string "rename_table"),
      ("renames", .array (renames.map TableRename.toJson))]
  | dropTable tables ifExists =>
    .object [("statement", .string "drop_table"), ("tables", ofStrings tables),
      ("if_exists", .bool ifExists)]

/-- The kinds of statements with their fields. -/
def cases : List (String × RecordReader Statement) :=
  [("create_table", createTable <$> CreateTable.reader),
    ("alter_table", do
      return alterTable ⟨← field "table" .string, ← field "actions" (.list AlterAction.decoder)⟩),
    ("create_index", createIndex <$> CreateIndex.reader),
    ("drop_index", dropIndex <$> field "name" .string <*> optionalD "table" .string),
    ("rename_table", renameTable <$> field "renames" (.list TableRename.decoder)),
    ("drop_table",
      dropTable <$> field "tables" (.list .string) <*> fieldD "if_exists" false .bool)]

/-- Reads a statement. -/
def decoder : Decoder Statement := tagged "statement" cases

end Statement

end SchemaLedger
