import SchemaLedger.Identifier
import SchemaLedger.Table
import SchemaLedger.Text.Quotation
import SchemaLedger.Text.Scanner

/-!
# Keys in a dump

Key parts, the key clause of a table with its optional parent, and index statements. Parenthesised
lists here end at the first closing parenthesis, even inside backticks.
-/

namespace SchemaLedger.Dump

open Text Text.Scanner

/-! ## Key parts -/

/-- A direction. Spelled with a letter that only folds to ASCII it counts as ascending. -/
def direction : Scanner SortOrder := do
  let word ← chars isNameChar
  if foldsTo word "asc".toList then return .asc
  else if foldsTo word "desc".toList then
    return if word.map Char.toLower = "desc".toList then .desc else .asc
  else failure

/-- A name and perhaps a direction, with nothing after them. -/
def keyPart : Scanner KeyPart := do
  blanks
  let n ← name
  let order ← attempt do
    gap
    direction
  blanks
  finished
  return ⟨n, order.getD .asc⟩

/-- Reads the members of a list as key parts. -/
def readKeyParts (cs : List Char) : Except Malformation (List KeyPart) :=
  (splitCommas cs).mapM fun part ↦
    match keyPart.value? part with
    | some p => .ok p
    | none => .error .invalidKeyColumn

/-- A list between parentheses. -/
def parenthesised : Scanner (List Char) := do
  blanks
  symbol '('
  upTo ')'

/-! ## The key clause of a table -/

/-- The key of a table, and the parent that it is interleaved in. -/
structure KeyClause where
  columns : List String := []
  interleave : Option Interleave := none
  deriving DecidableEq, Repr

/-- Whether a parent takes its rows with it; a spelling of `CASCADE` with a letter that only folds
to ASCII does not. -/
def deleteAction : Scanner Bool :=
  (do
    let word ← chars isNameChar
    if foldsTo word "cascade".toList then
      return decide (word.map Char.toLower = "cascade".toList)
    else failure) <|>
  (do phrase ["no", "action"]; return false)

/-- `, INTERLEAVE IN PARENT …`. -/
def parentClause : Scanner Interleave := do
  blanks
  symbol ','
  blanks
  phrase ["interleave", "in", "parent"]
  gap
  let parent ← name
  let cascade ← attempt do
    gap
    phrase ["on", "delete"]
    gap
    deleteAction
  return ⟨parent, cascade.getD false⟩

/-- A text begins like a key clause. -/
def isKeyClause (cs : List Char) : Bool :=
  let head : Scanner Unit := do
    blanks
    phrase ["primary", "key"]
    wordEnd
  (head.value? cs).isSome

/-- A key clause, its columns not yet read. -/
def keyClauseText : Scanner (List Char × Option Interleave) := do
  blanks
  phrase ["primary", "key"]
  let columns ← parenthesised
  let parent ← attempt parentClause
  blanks
  finished
  return (columns, parent)

/-- Reads a key clause, or tells what keeps the text from being one. The key may be empty, and
directions are not kept. -/
def readKeyClause (cs : List Char) : Except Malformation KeyClause :=
  match keyClauseText.value? cs with
  | none => .error .expectedKeyClause
  | some (columns, interleave) =>
    let columns := strip columns
    if columns.isEmpty then .ok ⟨[], interleave⟩
    else do
      let parts ← readKeyParts columns
      return ⟨parts.map (·.name), interleave⟩

/-! ## Index statements -/

/-- An index statement up to the keyword `INDEX`: whether it says `UNIQUE` and `NULL_FILTERED`.
The statement may leave out `CREATE`. -/
def indexHead : Scanner (Bool × Bool) := do
  blanks
  let _ ← attempt do
    keyword "create"
    gap
  let unique ← attempt do
    keyword "unique"
    gap
  let nullFiltered ← attempt do
    keyword "null_filtered"
    gap
  keyword "index"
  return (unique.isSome, nullFiltered.isSome)

/-- A text begins like an index statement. -/
def isIndex (cs : List Char) : Bool :=
  let head : Scanner Unit := do
    let _ ← indexHead
    wordEnd
  (head.value? cs).isSome

/-- An index statement in its parts, the lists not yet read. -/
structure IndexText where
  name : String
  table : String
  unique : Bool
  nullFiltered : Bool
  columns : List Char
  storing : Option (List Char)
  interleaveIn : Option String
  deriving DecidableEq, Repr

/-- An index statement. -/
def indexText : Scanner IndexText := do
  let (unique, nullFiltered) ← indexHead
  gap
  let n ← name
  gap
  keyword "on"
  gap
  let table ← name
  let columns ← parenthesised
  let storing ← attempt do
    blanks
    keyword "storing"
    parenthesised
  let parent ← attempt do
    blanks
    symbol ','
    blanks
    phrase ["interleave", "in"]
    gap
    name
  blanks
  finished
  return ⟨n, table, unique, nullFiltered, columns, storing, parent⟩

/-- The members of a list of stored columns, blank ones left out. -/
def storedColumns (cs : List Char) : List String :=
  ((splitCommas cs).map fun part ↦ Identifier.unquote (String.ofList part)).filter (· != "")

/-- Reads an index statement, or tells what keeps the text from being one. -/
def readIndex (cs : List Char) : Except Malformation Index :=
  match indexText.value? cs with
  | none => .error .incompleteIndex
  | some t => do
    let columns ← readKeyParts t.columns
    return {
      name := t.name
      table := t.table
      columns
      unique := t.unique
      nullFiltered := t.nullFiltered
      storing := (t.storing.map storedColumns).getD []
      interleaveIn := t.interleaveIn }

end SchemaLedger.Dump
