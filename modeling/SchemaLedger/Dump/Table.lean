import SchemaLedger.Dump.Column
import SchemaLedger.Dump.Key
import SchemaLedger.Identifier.Derived

/-!
# Tables in a dump

The body of a table is a list of columns, at most one key clause and foreign keys, which are
passed over; the key clause may also follow the body. Columns that the key names must be there. A
table that is interleaved in a parent is shown with a foreign key to it, whose column is named
after the parent.
-/

namespace SchemaLedger.Dump

open Text Text.Scanner

/-- A table in its parts: its name, the members of its body and what follows the body. -/
structure TableText where
  name : String
  elements : List (List Char)
  trailer : List Char
  deriving DecidableEq, Repr

/-- `IF NOT EXISTS` and the blanks after it. -/
def ifNotExists : Scanner Unit := do
  phrase ["if", "not", "exists"]
  gap

/-- A table up to the parenthesis that opens its body. -/
def tableHead : Scanner String := do
  blanks
  phrase ["create", "table"]
  gap
  let _ ← attempt ifNotExists
  let n ← name
  blanks
  symbol '('
  return n

/-- Cuts the text after the head of a table into its parts. -/
def readTableText (name : String) (cs : List Char) : Except Malformation TableText :=
  match enclosed cs with
  | none => .error .unbalancedBody
  | some (body, trailer) =>
    .ok ⟨name, ((splitCommas body).map strip).filter (!·.isEmpty), strip trailer⟩

/-- A text begins like a foreign key. -/
def isForeignKey (cs : List Char) : Bool :=
  let head : Scanner Unit := do
    blanks
    let _ ← attempt do
      keyword "constraint"
      gap
      let _ ← chars (!isBlank ·)
      gap
    phrase ["foreign", "key"]
    wordEnd
  (head.value? cs).isSome

/-- What has been read of the body of a table. -/
structure TableBody where
  columns : List Column := []
  key : Option KeyClause := none
  deriving DecidableEq, Repr

/-- Reads a text, and repeats it in an error. -/
def reading {α : Type} (read : List Char → Except Malformation α) (cs : List Char) :
    Except SchemaError α :=
  (read cs).mapError (.malformed · (String.ofList cs))

/-- Takes in one more member of the body. -/
def TableBody.add (b : TableBody) (element : List Char) : Except SchemaError TableBody :=
  if isKeyClause element then
    if b.key.isSome then .error (.malformed .secondKeyClause (String.ofList element))
    else do
      let key ← reading readKeyClause element
      return { b with key := some key }
  else if isForeignKey element then .ok b
  else do
    let column ← columnOfText element
    if b.columns.any (·.name == column.name) then
      .error (.malformed .duplicateColumn (String.ofList element))
    else return { b with columns := b.columns ++ [column] }

/-- The key clause of a table, inside its body or after it. -/
def TableText.key (t : TableText) (b : TableBody) : Except SchemaError KeyClause :=
  if t.trailer.isEmpty then .ok (b.key.getD {})
  else do
    let key ← reading readKeyClause t.trailer
    if b.key.isSome then .error (.malformed .secondKeyClause (String.ofList t.trailer))
    else return key

/-- The foreign key that a table is shown with for its parent. -/
def parentKey (table : String) (i : Interleave) : ForeignKey where
  name := "fk_" ++ table ++ "_" ++ i.parent
  columns := [Identifier.singular i.parent ++ "_id"]
  referencedTable := i.parent
  referencedColumns := []
  onDeleteCascade := i.onDeleteCascade

/-- The table that a text describes, without its indices. -/
def TableText.build (t : TableText) : Except SchemaError Table := do
  let body ← t.elements.foldlM TableBody.add {}
  let key ← t.key body
  let table : Table :=
    { name := t.name
      columns := body.columns
      primaryKey := key.columns
      foreignKeys := (key.interleave.map (parentKey t.name)).toList
      interleave := key.interleave }
  match key.columns.find? (!table.hasColumn ·) with
  | some missing => .error (.dangling t.name (some missing) "primary key")
  | none => return table.syncPrimary

end SchemaLedger.Dump
