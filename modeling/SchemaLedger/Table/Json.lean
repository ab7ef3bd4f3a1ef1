import SchemaLedger.Json.Decode
import SchemaLedger.Table

/-!
# Tables as JSON

Fields are written in the order of their declaration, missing values as `null`. When a table is
read, only what may be missing may be left out.
-/

namespace SchemaLedger

open Json Json.RecordReader

namespace ColumnType

/-- A type is written as its name. -/
def toJson (t : ColumnType) : Json := .string t.text

/-- Reads a type by its exact name. -/
def decoder : Decoder ColumnType := constants text all

end ColumnType

namespace ColumnLength

/-- A size is written with its number. -/
def toJson : ColumnLength → Json
  | max => .string "max"
  | size n => .object [("size", .ofNat n.toNat)]

/-- Reads a length. -/
def decoder : Decoder ColumnLength :=
  untagged [("max", .constant max), ("size", .content (.map size .uint32))]

end ColumnLength

namespace Generation

/-- A custom generation is written with the name of its generator. -/
def toJson : Generation → Json
  | increment => .string "increment"
  | uuid => .string "uuid"
  | custom g => .object [("custom", .string g)]

/-- Reads a generation. -/
def decoder : Decoder Generation :=
  untagged [("increment", .constant increment), ("uuid", .constant uuid),
    ("custom", .content (.map custom .string))]

end Generation

namespace ColumnDefault

/-- An expression is written with its text. -/
def toJson : ColumnDefault → Json
  | expression text => .object [("expression", .string text)]
  | commitTimestamp => .string "commit_timestamp"

/-- Reads a default. -/
def decoder : Decoder ColumnDefault :=
  untagged [("expression", .content (.map expression .string)),
    ("commit_timestamp", .constant commitTimestamp)]

end ColumnDefault

namespace Column

/-- A column with all its fields. -/
def toJson (c : Column) : Json :=
  .object [("name", .string c.name), ("column_type", c.type.toJson), ("nullable", .bool c.nullable),
    ("length", ofOption ColumnLength.toJson c.length), ("is_array", .bool c.isArray),
    ("is_primary", .bool c.isPrimary), ("is_unique", .bool c.isUnique),
    ("default", ofOption ColumnDefault.toJson c.defaultValue),
    ("generation", ofOption Generation.toJson c.generation)]

/-- Reads a column. -/
def decoder : Decoder Column := record do
  return {
    name := ← field "name" .string
    type := ← field "column_type" ColumnType.decoder
    nullable := ← field "nullable" .bool
    length := ← optional "length" ColumnLength.decoder
    isArray := ← field "is_array" .bool
    isPrimary := ← field "is_primary" .bool
    isUnique := ← field "is_unique" .bool
    defaultValue := ← optional "default" ColumnDefault.decoder
    generation := ← optional "generation" Generation.decoder }

end Column

namespace SortOrder

/-- A direction is written in lower case. -/
def toJson : SortOrder → Json
  | asc => .string "asc"
  | desc => .string "desc"

/-- Reads a direction. -/
def decoder : Decoder SortOrder := untagged [("asc", .constant asc), ("desc", .constant desc)]

end SortOrder

namespace KeyPart

/-- A key part with its direction. -/
def toJson (p : KeyPart) : Json := .object [("name", .string p.name), ("order", p.order.toJson)]

/-- Reads a key part, which ascends if it does not say otherwise. -/
def decoder : Decoder KeyPart := record do
  return ⟨← field "name" .string, ← fieldD "order" .asc SortOrder.decoder⟩

end KeyPart

namespace Index

/-- An index with all its fields. -/
def toJson (i : Index) : Json :=
  .object [("name", .string i.name), ("table", .string i.table),
    ("columns", .array (i.columns.map KeyPart.toJson)), ("unique", .bool i.unique),
    ("null_filtered", .bool i.nullFiltered), ("storing", ofStrings i.storing),
    ("interleave_in", ofOption .string i.interleaveIn)]

/-- Reads an index. -/
def decoder : Decoder Index := record do
  return {
    name := ← field "name" .string
    table := ← field "table" .string
    columns := ← field "columns" (.list KeyPart.decoder)
    unique := ← field "unique" .bool
    nullFiltered := ← field "null_filtered" .bool
    storing := ← field "storing" (.list .string)
    interleaveIn := ← optional "interleave_in" .string }

end Index

namespace ForeignKey

/-- A foreign key with all its fields. -/
def toJson (k : ForeignKey) : Json :=
  .object [("name", .string k.name), ("columns", ofStrings k.columns),
    ("referenced_table", .string k.referencedTable),
    ("referenced_columns", ofStrings k.referencedColumns),
    ("on_delete_cascade", .bool k.onDeleteCascade)]

/-- Reads a foreign key. -/
def decoder : Decoder ForeignKey := record do
  return {
    name := ← field "name" .string
    columns := ← field "columns" (.list .string)
    referencedTable := ← field "referenced_table" .string
    referencedColumns := ← field "referenced_columns" (.list .string)
    onDeleteCascade := ← field "on_delete_cascade" .bool }

end ForeignKey

namespace UniqueConstraint

/-- A unique constraint with its columns. -/
def toJson (u : UniqueConstraint) : Json :=
  .object [("name", .string u.name), ("columns", ofStrings u.columns)]

/-- Reads a unique constraint. -/
def decoder : Decoder UniqueConstraint := record do
  return ⟨← field "name" .string, ← field "columns" (.list .string)⟩

end UniqueConstraint

namespace Interleave

/-- A parent and what its deletion does. -/
def toJson (i : Interleave) : Json :=
  .object [("parent", .string i.parent), ("on_delete_cascade", .bool i.onDeleteCascade)]

/-- Reads a parent. -/
def decoder : Decoder Interleave := record do
  return ⟨← field "parent" .string, ← field "on_delete_cascade" .bool⟩

end Interleave

namespace Table

/-- A table with all its fields. -/
def toJson (t : Table) : Json :=
  .object [("name", .string t.name), ("columns", .array (t.columns.map Column.toJson)),
    ("primary_key", ofStrings t.primaryKey), ("indices", .array (t.indices.map Index.toJson)),
    ("foreign_keys", .array (t.foreignKeys.map ForeignKey.toJson)),
    ("uniques", .array (t.uniques.map UniqueConstraint.toJson)),
    ("interleave", ofOption Interleave.toJson t.interleave)]

/-- Reads a table. -/
def decoder : Decoder Table := record do
  return {
    name := ← field "name" .string
    columns := ← field "columns" (.list Column.decoder)
    primaryKey := ← field "primary_key" (.list .string)
    indices := ← field "indices" (.list Index.decoder)
    foreignKeys := ← field "foreign_keys" (.list ForeignKey.decoder)
    uniques := ← field "uniques" (.list UniqueConstraint.decoder)
    interleave := ← optional "interleave" Interleave.decoder }

end Table

end SchemaLedger
