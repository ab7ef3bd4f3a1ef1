import SchemaLedger.Lowering
import SchemaLedger.Note

/-!
# Notes on lowering

Lowering passes over the options of a table that mean nothing to the database, and makes a plain
index of one of a special kind. Both are noted, in the order in which they happen: options once the
columns and the key have turned out well, indices one by one.
-/

namespace SchemaLedger

/-- An index of the kind has no counterpart in the database. -/
def IndexKind.isSpecial (k : IndexKind) : Bool := k == .fulltext || k == .spatial

/-- The note on an index. -/
def IndexDef.notes (table : String) (kind : IndexKind) (declared : Option (List String))
    (i : IndexDef) : List Note :=
  if kind.isSpecial && (i.lower table kind none declared).isOk then
    [.plainIndexForSpecial (i.nameIn table false) kind]
  else []

namespace CreateTable

/-- The notes on the options of a table. -/
def optionNotes (c : CreateTable) : List Note :=
  c.options.filterMap fun
    | .interleave _ => none
    | option => some (.optionDropped c.table option)

/-- The notes on the declaration of a table. -/
def notes (c : CreateTable) : List Note :=
  match (do let d ← c.draft; let _ ← d.key c.table; return d : Except SchemaError TableDraft) with
  | .error _ => []
  | .ok d =>
    c.optionNotes ++
      Note.through (fun i ↦ IndexDef.notes c.table i.1 d.declared i.2)
        (fun i ↦ i.2.lower c.table i.1 none d.declared) d.indices

end CreateTable

/-- The note on a change to a table. -/
def AlterAction.notes (table : String) : AlterAction → List Note
  | .addSpatialIndex i => i.notes table .spatial none
  | _ => []

namespace Statement

/-- The notes on a statement. -/
def notes : Statement → List Note
  | createTable c => c.notes
  | alterTable a => Note.through (AlterAction.notes a.table) (AlterAction.lower a.table) a.actions
  | createIndex c => c.index.notes c.table c.kind none
  | _ => []

/-- The notes on a batch. -/
def notesAll (statements : List Statement) : List Note := Note.through notes lower statements

end Statement

end SchemaLedger
