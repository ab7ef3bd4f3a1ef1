import SchemaLedger.Fact.Json
import SchemaLedger.Statement
import SchemaLedger.Text.Spelled

/-!
# Notes

While it works, the program keeps a journal of notes: what it does, what it would do, and what it
passes over. A note has a level, a message, and the names and values of what the message is about.

Notes that belong to a computation which may fail are kept up to the failure: `Note.along` walks
through the steps of the computation beside it.
-/

namespace SchemaLedger

/-- How much a note matters. -/
inductive Level where
  | debug
  | info
  | warn
  deriving DecidableEq, Repr

/-- The mark in front of a note. -/
def Level.mark : Level → String
  | debug => "DEBUG "
  | info => " INFO "
  | warn => " WARN "

/-- Something worth a line in the journal. -/
inductive Note where
  | dryRun
  | passStarted (entities statements : Nat) (dryRun : Bool)
  | passFinished (ddl facts tables : Nat)
  | passComplete (tables ddl : Nat)
  | schemaParsed (tables : Nat)
  | foreignKeySkipped (table : String)
  | optionDropped (table : String) (option : TableOption)
  | plainIndexForSpecial (index : String) (kind : IndexKind)
  | change (change : Change)
  | sideTablePlanned (sql : String)
  | sideTableEnsured (sideTable : String)
  | sideTableTouched (sideTable : String)
  | sideTableMissing (sideTable : String)
  | ledgerLoaded (sideTable : String) (facts : Nat)
  | statementPlanned (sql : String)
  | statementExecuting (sql : String)
  | statementApplying (sql : String)
  | tableGone (table : String)
  | columnMissing (table column : String)
  | generatorIncomplete (table column strategy : String)
  | entityColumnMissing (table column : String)
  | factDropped (table column : String)
  | reconciling (sideTable : String) (additions removals : Nat) (dryRun : Bool)
  | storePlanned (fact : Fact)
  | deletePlanned (fact : Fact)
  deriving DecidableEq, Repr

/-- The name of a kind of index as a note gives it. -/
def IndexKind.label : IndexKind → String
  | plain => "Plain"
  | unique => "Unique"
  | fulltext => "Fulltext"
  | spatial => "Spatial"

/-- An option as a note gives it. -/
def TableOption.label : TableOption → String
  | interleave i =>
    "InterleaveInParent \x7b parent: " ++ String.ofList (Text.spell i.parent) ++
      ", on_delete_cascade: " ++ toString i.onDeleteCascade ++ " \x7d"
  | engine text => "Engine(" ++ String.ofList (Text.spell text) ++ ")"
  | charset text => "Charset(" ++ String.ofList (Text.spell text) ++ ")"
  | collate text => "Collate(" ++ String.ofList (Text.spell text) ++ ")"
  | comment text => "Comment(" ++ String.ofList (Text.spell text) ++ ")"

namespace Note

/-- How much the note matters: what is done step by step is a detail. -/
def level : Note → Level
  | dryRun => .info
  | passStarted _ _ _ => .info
  | passFinished _ _ _ => .info
  | passComplete _ _ => .info
  | schemaParsed _ => .info
  | change _ => .info
  | sideTablePlanned _ => .info
  | statementPlanned _ => .info
  | reconciling _ _ _ _ => .info
  | storePlanned _ => .info
  | deletePlanned _ => .info
  | sideTableMissing _ => .warn
  | columnMissing _ _ => .warn
  | generatorIncomplete _ _ _ => .warn
  | entityColumnMissing _ _ => .warn
  | factDropped _ _ => .warn
  | _ => .debug

/-- What has happened. -/
def message : Note → String
  | dryRun => "Dry run mode - changes will be printed but not applied."
  | passStarted _ _ _ => "Starting schema synchronization"
  | passFinished _ _ _ => "Schema synchronization finished"
  | passComplete _ _ => "Synchronization complete"
  | schemaParsed _ => "Parsed schema"
  | foreignKeySkipped _ => "Skipping foreign key constraint"
  | optionDropped _ _ => "Dropping table option"
  | plainIndexForSpecial _ _ => "Creating plain index for special index"
  | change _ => "Extended schema change"
  | sideTablePlanned _ => "Would create extended schema table"
  | sideTableEnsured _ => "Ensuring extended schema table"
  | sideTableTouched _ => "Extended schema table touched, invalidating"
  | sideTableMissing _ => "Extended schema table missing, facts not persisted"
  | ledgerLoaded _ _ => "Loaded extended schema"
  | statementPlanned _ => "Would execute DDL"
  | statementExecuting _ => "Executing DDL"
  | statementApplying _ => "Applying DDL"
  | tableGone _ => "Table gone, dropping from cache"
  | columnMissing _ _ => "Ignoring extended schema facts for missing column"
  | generatorIncomplete _ _ _ => "Incomplete generator facts, skipping"
  | entityColumnMissing _ _ => "Entity column not in database, skipping its facts"
  | factDropped _ _ => "Dropping extended schema fact for missing column"
  | reconciling _ _ _ _ => "Reconciling extended schema"
  | storePlanned _ => "Would store fact"
  | deletePlanned _ => "Would delete fact"

/-- The fields that name a column. -/
def columnFields (table column : String) : List (String × String) :=
  [("table", table), ("column", column)]

/-- What the message is about, by name. -/
def fields : Note → List (String × String)
  | dryRun => []
  | passStarted entities statements dry =>
    [("entities", toString entities), ("statements", toString statements),
      ("dry_run", toString dry)]
  | passFinished ddl facts tables =>
    [("ddl", toString ddl), ("facts", toString facts), ("tables", toString tables)]
  | passComplete tables ddl => [("tables", toString tables), ("ddl", toString ddl)]
  | schemaParsed tables => [("tables", toString tables)]
  | foreignKeySkipped table => [("table", table)]
  | optionDropped table option => [("table", table), ("option", option.label)]
  | plainIndexForSpecial index kind => [("index", index), ("kind", kind.label)]
  | change c => [("op", c.toJson.toText)]
  | sideTablePlanned sql => [("sql", sql)]
  | sideTableEnsured sideTable => [("table", sideTable)]
  | sideTableTouched sideTable => [("table", sideTable)]
  | sideTableMissing sideTable => [("table", sideTable)]
  | ledgerLoaded sideTable facts => [("table", sideTable), ("facts", toString facts)]
  | statementPlanned sql => [("sql", sql)]
  | statementExecuting sql => [("sql", sql)]
  | statementApplying sql => [("sql", sql)]
  | tableGone table => [("table", table)]
  | columnMissing table column => columnFields table column
  | generatorIncomplete table column strategy =>
    columnFields table column ++ [("strategy", strategy)]
  | entityColumnMissing table column => columnFields table column
  | factDropped table column => columnFields table column
  | reconciling sideTable additions removals dry =>
    [("table", sideTable), ("additions", toString additions), ("removals", toString removals),
      ("dry_run", toString dry)]
  | storePlanned f =>
    columnFields f.table f.column ++ [("property", f.property.text), ("value", f.value)]
  | deletePlanned f => columnFields f.table f.column ++ [("property", f.property.text)]

/-- The line of the note; a value may bring lines of its own. -/
def text (n : Note) : String :=
  n.level.mark ++ n.message ++ "".intercalate (n.fields.map fun f ↦ " " ++ f.1 ++ "=" ++ f.2)

/-- The note is shown: details are for a verbose run. -/
def isShown (verbose : Bool) (n : Note) : Bool := verbose || n.level != .debug

/-- The notes of the steps of a computation over a list, those of the step that fails included. -/
def along {ε σ α : Type} (notes : σ → α → List Note) (step : σ → α → Except ε σ) (s : σ) :
    List α → List Note
  | [] => []
  | a :: as =>
    notes s a ++
      match step s a with
      | .ok s => along notes step s as
      | .error _ => []

/-- `along` for steps that have nothing to do with each other. -/
def through {ε α β : Type} (notes : α → List Note) (f : α → Except ε β) : List α → List Note :=
  along (fun () a ↦ notes a) (fun () a ↦ (f a).map fun _ ↦ ()) ()

end Note

end SchemaLedger
