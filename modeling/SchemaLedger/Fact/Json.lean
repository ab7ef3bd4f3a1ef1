import SchemaLedger.Fact.Delta
import SchemaLedger.Json.Decode

/-!
# Facts as JSON

A fact is an object of its four fields. A step of a delta names its kind in the field `op`.
-/

namespace SchemaLedger

open Json Json.RecordReader

namespace Property

/-- A property is written as its name. -/
def toJson (p : Property) : Json := .string p.text

/-- Reads a property by its exact name. -/
def decoder : Decoder Property := constants text all

end Property

namespace Fact

/-- The fields of a fact. -/
def jsonFields (f : Fact) : List (String × Json) :=
  [("table", .string f.table), ("column", .string f.column), ("property", f.property.toJson),
    ("value", .string f.value)]

/-- A fact with its fields. -/
def toJson (f : Fact) : Json := .object f.jsonFields

/-- Reads the fields of a fact. -/
def reader : RecordReader Fact := do
  return ⟨← field "table" .string, ← field "column" .string,
    ← field "property" Property.decoder, ← field "value" .string⟩

/-- Reads a fact. -/
def decoder : Decoder Fact := record reader

end Fact

namespace Change

/-- A step with its kind. -/
def toJson : Change → Json
  | upsert f => .object (("op", .string "upsert") :: f.jsonFields)
  | removeColumn table column =>
    .object [("op", .string "remove_column"), ("table", .string table), ("column", .string column)]
  | removeTable table => .object [("op", .string "remove_table"), ("table", .string table)]
  | renameTable old new =>
    .object [("op", .string "rename_table"), ("from", .string old), ("to", .string new)]

/-- The kinds of steps with their fields. -/
def cases : List (String × RecordReader Change) :=
  [("upsert", upsert <$> Fact.reader),
    ("remove_column", removeColumn <$> field "table" .string <*> field "column" .string),
    ("remove_table", removeTable <$> field "table" .string),
    ("rename_table", renameTable <$> field "from" .string <*> field "to" .string)]

/-- Reads a step. -/
def decoder : Decoder Change := tagged "op" cases

end Change

end SchemaLedger
