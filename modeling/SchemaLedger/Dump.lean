import SchemaLedger.Dump.Table
import Std.Data.ExtTreeMap

/-!
# Dumps

A dump is the text in which a database describes its schema: statements that create tables and
indices, in any order. It is read in three steps. Every statement is cut into its parts, so one
that is no such statement is found first; then all tables are built; then the indices are added to
their tables in the order in which they stand.

As one text, a dump separates its statements by semicolons, and lines that start with two dashes
are comments.
-/

namespace SchemaLedger

open Text

/-- The tables of a database by name. -/
abbrev Schema := Std.ExtTreeMap String Table

namespace Dump

/-- A statement in its parts. -/
inductive Item where
  | table (text : TableText)
  | index (index : Index)
  deriving DecidableEq, Repr

/-- Reads a statement. -/
def readItem (cs : List Char) : Except Malformation Item :=
  match tableHead.run cs with
  | some (name, rest) => .table <$> readTableText name rest
  | none => if isIndex cs then .index <$> readIndex cs else .error .unknownStatement

/-- Reads statements, passing over blank ones. -/
def readItems (statements : List String) : Except SchemaError (List Item) :=
  ((statements.map String.toList).filter fun cs ↦ !(strip cs).isEmpty).mapM (reading readItem)

/-- Adds a table. -/
def addTable (s : Schema) (t : TableText) : Except SchemaError Schema := do
  let table ← t.build
  if s.contains table.name then .error (.malformed .duplicateTable table.name)
  else return s.insert table.name table

/-- Adds an index to its table. -/
def addIndex (s : Schema) (i : Index) : Except SchemaError Schema :=
  match s[i.table]? with
  | none => .error (.dangling i.table none ("index " ++ i.name))
  | some table => do
    let table ← table.addIndex i
    return s.insert i.table table

/-- The tables among the items. -/
def tables (items : List Item) : List TableText :=
  items.filterMap fun
    | .table t => some t
    | .index _ => none

/-- The indices among the items. -/
def indices (items : List Item) : List Index :=
  items.filterMap fun
    | .table _ => none
    | .index i => some i

/-- The schema that statements describe. -/
def parse (statements : List String) : Except SchemaError Schema := do
  let items ← readItems statements
  let s ← (tables items).foldlM addTable ∅
  (indices items).foldlM addIndex s

/-- The text without its comment lines. -/
def withoutComments (cs : List Char) : List Char :=
  ['\n'].intercalate ((lines cs).filter fun l ↦ !"--".toList.isPrefixOf (stripLeft l))

/-- The statements of a dump. -/
def split (dump : String) : List String :=
  (((splitSemicolons (withoutComments dump.toList)).map strip).filter (!·.isEmpty)).map
    String.ofList

/-- The schema that a dump describes. -/
def parseText (dump : String) : Except SchemaError Schema := parse (split dump)

end Dump

end SchemaLedger
