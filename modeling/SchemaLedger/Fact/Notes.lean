import SchemaLedger.Fact.Decoration
import SchemaLedger.Note

/-!
# Notes on decoration

When a table is decorated, facts of columns that it lacks and strategies without their generator
have no effect. Both are noted, column by column.
-/

namespace SchemaLedger.Ledger

/-- The note on a column that a table has. -/
def columnNotes (l : Ledger) (table column : String) : List Note :=
  let fact (p : Property) := l.get? ⟨table, column, p⟩
  match fact .strategy with
  | some s =>
    if (Generation.ofFacts? s (fact .generator)).isNone then
      [.generatorIncomplete table column s]
    else []
  | none => []

/-- The notes on a table. Without `ignoreMissing` they end at the first missing column. -/
def decorationNotes (l : Ledger) (t : Table) (ignoreMissing : Bool) : List Note :=
  let columns := l.columns t.name
  let reached := if ignoreMissing then columns else columns.takeWhile t.hasColumn
  reached.flatMap fun column ↦
    if t.hasColumn column then l.columnNotes t.name column else [.columnMissing t.name column]

end SchemaLedger.Ledger
