import SchemaLedger.Dump
import SchemaLedger.Note

/-!
# Notes on dumps

A dump may hold foreign keys, which are passed over. Each is noted when its table is built, so
there are no notes on a dump with a statement that cannot be cut into its parts.
-/

namespace SchemaLedger.Dump

/-- The note on a member of the body of a table. -/
def elementNotes (table : String) (element : List Char) : List Note :=
  if !isKeyClause element && isForeignKey element then [.foreignKeySkipped table] else []

/-- The notes on a table. -/
def TableText.notes (t : TableText) : List Note :=
  Note.along (fun _ ↦ elementNotes t.name) TableBody.add {} t.elements

/-- The notes on statements. -/
def notes (statements : List String) : List Note :=
  match readItems statements with
  | .error _ => []
  | .ok items => Note.along (fun _ ↦ TableText.notes) addTable ∅ (tables items)

/-- The notes on a dump. -/
def textNotes (dump : String) : List Note := notes (split dump)

end SchemaLedger.Dump
