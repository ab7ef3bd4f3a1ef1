import SchemaLedger.Dump.Table

/-!
# Commands

What the text of a statement tells the database to do. Only as much of the text is looked at as
that takes: the body of a table, a column and the lists of an index are left for later.
-/

namespace SchemaLedger

open Text Text.Scanner

/-- A change to a table. Columns are still text. -/
inductive TableAction where
  | addColumn (text : List Char)
  | dropColumn (name : String)
  | allowCommitTimestamp (column : String) (allowed : Bool)
  | alterColumn (text : List Char)
  | renameTo (name : String)
  deriving DecidableEq, Repr

/-- A command; a change to a table that is not known is none. -/
inductive Command where
  | createTable (name : String) (ifNotExists : Bool)
  | createIndex (name table : String)
  | dropTable (name : String) (ifExists : Bool)
  | dropIndex (name : String)
  | alterTable (table : String) (action : Option TableAction)
  deriving DecidableEq, Repr

namespace TableAction

/-- `ADD COLUMN …`. -/
def addColumnText : Scanner TableAction := do
  phrase ["add", "column"]
  gap
  return .addColumn (← remainder)

/-- `DROP COLUMN …`. -/
def dropColumnText : Scanner TableAction := do
  phrase ["drop", "column"]
  gap
  let n ← name
  blanks
  finished
  return .dropColumn n

/-- `ALTER COLUMN … SET OPTIONS …`. -/
def allowText : Scanner TableAction := do
  phrase ["alter", "column"]
  gap
  let n ← name
  gap
  keyword "set"
  gap
  let allowed ← Dump.options
  blanks
  finished
  return .allowCommitTimestamp n allowed

/-- `ALTER COLUMN …`. -/
def alterColumnText : Scanner TableAction := do
  phrase ["alter", "column"]
  gap
  return .alterColumn (← remainder)

/-- `RENAME TO …`. -/
def renameText : Scanner TableAction := do
  phrase ["rename", "to"]
  gap
  let n ← name
  blanks
  finished
  return .renameTo n

/-- The change that a text without blanks around it describes. -/
def ofText? (cs : List Char) : Option TableAction :=
  (addColumnText <|> dropColumnText <|> allowText <|> alterColumnText <|> renameText).value? cs

end TableAction

namespace Command

/-- `CREATE TABLE …`, where `IF` may also be the name. -/
def createTableText : Scanner Command := do
  blanks
  phrase ["create", "table"]
  gap
  (do Dump.ifNotExists; return .createTable (← name) true) <|>
    (do return .createTable (← name) false)

/-- `CREATE INDEX …`. -/
def createIndexText : Scanner Command := do
  blanks
  keyword "create"
  gap
  let _ ← attempt do
    keyword "unique"
    gap
  let _ ← attempt do
    keyword "null_filtered"
    gap
  keyword "index"
  gap
  let n ← name
  gap
  keyword "on"
  gap
  return .createIndex n (← name)

/-- A name with nothing after it. -/
def lastName : Scanner String := do
  let n ← name
  blanks
  finished
  return n

/-- `DROP TABLE …`, where `IF` may also be the name. -/
def dropTableText : Scanner Command := do
  blanks
  phrase ["drop", "table"]
  gap
  (do phrase ["if", "exists"]; gap; return .dropTable (← lastName) true) <|>
    (do return .dropTable (← lastName) false)

/-- `DROP INDEX …`. -/
def dropIndexText : Scanner Command := do
  blanks
  phrase ["drop", "index"]
  gap
  return .dropIndex (← lastName)

/-- A blank and at least one more character; what is left without blanks around it. -/
def actionText : Scanner (List Char)
  | b :: c :: cs => if isBlank b then some (strip (c :: cs), []) else none
  | _ => none

/-- `ALTER TABLE …`. -/
def alterTableText : Scanner Command := do
  blanks
  phrase ["alter", "table"]
  gap
  let n ← name
  return .alterTable n (TableAction.ofText? (← actionText))

/-- The command of a statement. -/
def ofText? (statement : String) : Option Command :=
  (createTableText <|> createIndexText <|> dropTableText <|> dropIndexText <|>
    alterTableText).value? statement.toList

end Command

end SchemaLedger
