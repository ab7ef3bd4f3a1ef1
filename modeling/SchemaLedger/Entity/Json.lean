import SchemaLedger.Entity
import SchemaLedger.Json.Reader
import SchemaLedger.Table.Json

/-!
# Entities as JSON

What is not wanted of a column, and the columns of an entity without any, may be left out. An
application may keep fields of its own beside the known ones; a text is read without a look at
them.
-/

namespace SchemaLedger

open Json Json.RecordReader

namespace EntityColumn

/-- A column with all its fields. -/
def toJson (c : EntityColumn) : Json :=
  .object [("name", .string c.name), ("generation", ofOption Generation.toJson c.generation),
    ("default", ofOption .string c.defaultText), ("create_date", .bool c.createDate),
    ("update_date", .bool c.updateDate)]

/-- Reads a column. -/
def decoder : Decoder EntityColumn := record do
  return ⟨← field "name" .string, ← optionalD "generation" Generation.decoder,
    ← optionalD "default" .string, ← fieldD "create_date" false .bool,
    ← fieldD "update_date" false .bool⟩

/-- The known fields of a column. -/
def shape : Shape := .record
  [("name", .whole), ("generation", .whole), ("default", .whole), ("create_date", .whole),
    ("update_date", .whole)]

end EntityColumn

namespace Entity

/-- Reads an entity. -/
def decoder : Decoder Entity := record do
  return ⟨← field "table_name" .string, ← fieldD "columns" [] (.list EntityColumn.decoder)⟩

/-- The known fields of an entity. -/
def shape : Shape := .record [("table_name", .whole), ("columns", .list EntityColumn.shape)]

/-- The entities of a text. A known field that is repeated is an error. -/
def listOfText? (text : String) : Option (List Entity) := do
  Decoder.read (.list decoder) (← ofTextWithin? (.list shape) text)

end Entity

end SchemaLedger
