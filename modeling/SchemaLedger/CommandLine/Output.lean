import SchemaLedger.CommandLine.Help
import SchemaLedger.Dump.Notes
import SchemaLedger.Entity.Json
import SchemaLedger.Json.Reader
import SchemaLedger.Statement.Json
import SchemaLedger.Synchronization

/-!
# What the program prints

A command computes its output from the texts of its files. What it has printed before it fails
stays printed, and the exit code tells whether it failed: 1 for a failure, 2 for arguments that do
not fit. The notes of a command stand between its results; details among them are printed in a
verbose run only.
-/

namespace SchemaLedger.CommandLine

/-- Printed lines and the exit code. -/
structure Output where
  lines : List String := []
  exitCode : UInt32 := 0
  deriving DecidableEq, Repr

namespace Output

/-- Failed after having printed lines. -/
def failed (lines : List String) : Output := ⟨lines, 1⟩

/-- The output of a reading of arguments that has ended early. -/
def ofStop (setting : Option String) : Stop → Output
  | .help page => { lines := page.lines setting }
  | .version => { lines := [versionLine] }
  | .usage => { exitCode := 2 }

end Output

/-- A statement with its semicolon. -/
def terminated (sql : String) : String := sql ++ ";"

/-! ## Reading files -/

/-- The statements of a text, which holds one statement or an array of them. -/
def statements? (text : String) : Option (List Statement) := do
  match (← Json.ofText? text).canonical with
  | .array items => items.mapM Statement.decoder.read
  | j => List.singleton <$> Statement.decoder.read j

/-! ## Notes -/

/-- The notes that are printed. -/
def noteLines (verbose : Bool) (notes : List Note) : List String :=
  (notes.filter (Note.isShown verbose)).map Note.text

/-! ## Commands -/

/-- The lines that tell what a pass has done. -/
def Report.lines (r : Report) : List String :=
  r.ddl.map terminated ++
    (r.delta.additions ++ r.extended.additions).map (fun f ↦
      "+ " ++ f.table ++ "." ++ f.column ++ " " ++ f.property.text ++ " = " ++ f.value) ++
    (r.delta.removals ++ r.extended.removals).map fun f ↦
      "- " ++ f.table ++ "." ++ f.column ++ " " ++ f.property.text

/-- Lowers the statements of a text and prints what they become, and in notes what they ask to
change in the ledger. -/
def transform (verbose : Bool) (text : String) : Output :=
  match statements? text with
  | none => .failed []
  | some statements =>
    let notes := noteLines verbose (Statement.notesAll statements)
    match Statement.lowerAll statements with
    | .error _ => .failed notes
    | .ok l =>
      { lines := notes ++ l.sql.map terminated ++ noteLines verbose (l.delta.map .change) }

/-- Prints the tables of a dump by name. -/
def parseSchema (verbose : Bool) (dump : String) : Output :=
  let notes := Dump.textNotes dump
  match Dump.parseText dump with
  | .error _ => .failed (noteLines verbose notes)
  | .ok s =>
    { lines := noteLines verbose (notes ++ [.schemaParsed s.size]) ++
        [(Json.object (s.toList.map fun p ↦ (p.1, p.2.toJson))).pretty] }

/-- Runs a pass over the database of a dump and prints what the pass did and, unless it was a dry
run, the database that it reached. -/
def synchronize (o : PassOptions) (verbose bootstrap : Bool) (dump : String)
    (entities : List Entity) (statements : List Statement) : Output :=
  let journal := (if o.dryRun then [.dryRun] else []) ++ Dump.textNotes dump
  match Database.ofDump dump with
  | .error _ => .failed (noteLines verbose journal)
  | .ok database =>
    match Pass.synchronize o entities statements bootstrap { database, journal } with
    | .error _ site => .failed (noteLines verbose site.journal)
    | .ok report site =>
      let told := noteLines verbose site.journal ++ Report.lines report ++
        noteLines verbose [.passComplete report.tables report.ddl.length]
      if o.dryRun then { lines := told }
      else
        match Database.dumpStatements site.database.schema with
        | .ok dump => { lines := told ++ "" :: dump.map terminated }
        | .error _ => .failed (told ++ [""])

/-- The output of an invocation over the files that `file?` reads. -/
def Invocation.output (i : Invocation) (file? : String → Option String) : Output :=
  let result : Option Output := match i.job with
    | .transform input => transform i.verbose <$> file? input
    | .parseSchema input => parseSchema i.verbose <$> file? input
    | .sync job => do
      let dump ← file? job.schema
      let entities ← Entity.listOfText? (← file? job.entities)
      let statements ← match job.ddl with
        | some path => statements? (← file? path)
        | none => some []
      return synchronize ⟨i.sideTable, job.dryRun⟩ i.verbose job.bootstrap dump entities statements
  result.getD (.failed [])

end SchemaLedger.CommandLine
