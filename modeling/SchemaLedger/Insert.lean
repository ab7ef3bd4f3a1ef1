import SchemaLedger.Database
import SchemaLedger.Surrogate

/-!
# Completing rows

Before a row is inserted it gets the values that the database cannot make: surrogate values for
generated columns, and the mark for the commit timestamp. Only columns that the row does not name
are filled, so an explicit `null` stays. A column with both a generation and a commit timestamp is
filled by its generation, unless that is a custom one.
-/

namespace SchemaLedger

/-- The value that fills a column which a row does not name. -/
def Column.fill (c : Column) : Random (Option String) :=
  match c.generation, c.defaultValue with
  | some .increment, _ => Random.generate .increment
  | some .uuid, _ => Random.generate .uuid
  | _, some .commitTimestamp => pure (some ColumnDefault.sentinel)
  | _, _ => pure none

/-- Takes the errors of generators for errors of a pass. -/
def ofRandom {α : Type} (r : Random α) (supply : List UInt8) :
    Except PassError (α × List UInt8) := (r.run supply).mapError .schema

/-- A row that is being completed, and the bytes that are left for it. -/
structure OpenRow where
  row : Row
  supply : List UInt8

/-- A program that completes a row where it is. What it has filled stays when it fails. -/
abbrev Completion := EStateM PassError OpenRow

/-- Takes a value from a generator. -/
def Completion.draw {α : Type} (r : Random α) : Completion α := fun o ↦
  match ofRandom r o.supply with
  | .ok (a, supply) => .ok a { o with supply }
  | .error e => .error e o

/-- Fills a column if the row does not name it; gives the names of what it fills. -/
def Column.complete (c : Column) : Completion (List String) := do
  if (← get).row.contains c.name then return []
  else
    match ← Completion.draw c.fill with
    | some v =>
      modify fun o ↦ { o with row := o.row.insert c.name (.string v) }
      return [c.name]
    | none => return []

/-- Completes a row for a table, which has to have all columns that the row names; gives the names
of the columns that have been filled, in order. -/
def Table.completeRow (t : Table) : Completion (List String) := do
  match (← get).row.keys.find? (!t.hasColumn ·) with
  | some unknown => throw (.invalidRow t.name ("unknown column '" ++ unknown ++ "'"))
  | none => List.flatten <$> t.columns.mapM Column.complete

/-- A row with the names of the columns that have been filled, in order. -/
structure PreparedRow where
  row : Row
  filled : List String := []

/-- A completed row; also the bytes that are left. -/
def Table.prepareInsert (t : Table) (row : Row) (supply : List UInt8) :
    Except PassError (PreparedRow × List UInt8) :=
  match t.completeRow { row, supply } with
  | .ok filled o => .ok (⟨o.row, filled⟩, o.supply)
  | .error e _ => .error e

end SchemaLedger
