import SchemaLedger.Fact

/-!
# Entities

An application describes each table that it maps by what it wants of the columns: where their
values come from, what stands in for missing ones, and which hold the time at which a row is
created or changed. The latter want the commit timestamp, whatever default they name.
-/

namespace SchemaLedger

/-- What an application wants of a column. -/
structure EntityColumn where
  name : String
  generation : Option Generation := none
  defaultText : Option String := none
  createDate : Bool := false
  updateDate : Bool := false
  deriving DecidableEq, Repr

/-- The default that the column is to have. -/
def EntityColumn.desiredDefault (c : EntityColumn) : Option ColumnDefault :=
  if c.createDate || c.updateDate then some .commitTimestamp
  else c.defaultText.map ColumnDefault.ofExpression

/-- What an application wants of a table. -/
structure Entity where
  table : String
  columns : List EntityColumn := []
  deriving DecidableEq, Repr

/-- The facts that are to be stored, column by column. -/
def Entity.desiredFacts (e : Entity) : List Fact :=
  e.columns.flatMap fun c ↦ Fact.ofColumn e.table c.name c.generation c.desiredDefault

end SchemaLedger
