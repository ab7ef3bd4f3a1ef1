import SchemaLedger.Fact.Ledger

/-!
# Decorated tables

A table read from the database is decorated with the facts of its columns. A strategy without the
generator that it needs, or with a name that means nothing, leaves the column as it is. Facts of a
column that the table lacks are an error, unless the caller asks to pass over them.
-/

namespace SchemaLedger

namespace Ledger

/-- The column with its facts in place of what it had. -/
def decorateColumn (l : Ledger) (table : String) (c : Column) : Column :=
  let fact (p : Property) := l.get? ⟨table, c.name, p⟩
  { c with
    generation := ((fact .strategy).bind fun s ↦ Generation.ofFacts? s (fact .generator)).or
      c.generation
    defaultValue := ((fact .default).map ColumnDefault.ofExpression).or c.defaultValue }

/-- A column with facts that the table lacks. -/
def missingColumn? (l : Ledger) (t : Table) : Option String :=
  (l.columns t.name).find? (!t.hasColumn ·)

/-- The table with the facts of its columns; `ignoreMissing` passes over facts of columns that it
lacks. -/
def decorate (l : Ledger) (t : Table) (ignoreMissing : Bool) : Except SchemaError Table :=
  match if ignoreMissing then none else l.missingColumn? t with
  | some column => .error (.dangling t.name (some column) "extended schema entry")
  | none =>
    .ok ((l.columns t.name).foldl (fun u name ↦ u.modifyColumn name (l.decorateColumn t.name)) t)

end Ledger

end SchemaLedger
