import SchemaLedger.Text.Blank

/-!
# Errors

An error says what is wrong; the sentence for it is made in one place. `SchemaError` is what
lowering statements and reading dumps can run into, `PassError` adds what a database can answer to
a call.
-/

namespace SchemaLedger

/-- The part of a statement in which a construct was found. -/
structure Place where
  table : String
  column : Option String := none
  index : Option String := none
  deriving DecidableEq, Repr

/-- Names the objects around the construct, outermost first. -/
def Place.describe (p : Place) : String :=
  ", ".intercalate <| ("table " ++ p.table) ::
    ((p.column.map ("column " ++ ·)).toList ++ (p.index.map ("index " ++ ·)).toList)

/-- A construct that the database cannot express. -/
inductive Unsupported where
  | columnType (name : String)
  | secondAutoIncrement (first second : String)
  | secondKeyClause
  | inlineKeys (columns : List String)
  | keyConflict (column : String)
  | foreignKey (table : String)
  | addedForeignKey (table : String)
  | check (expression : String)
  | onUpdate
  | commitTimestamp
  | addedKeyColumn (column : String)
  | changedKeyColumn (column : String)
  | addedKey
  | renamedColumn (old new : String)
  | emptyIndex
  deriving DecidableEq, Repr

namespace Unsupported

/-- The name of the construct. -/
def construct : Unsupported → String
  | columnType _ => "column type"
  | secondAutoIncrement _ _ => "auto increment"
  | secondKeyClause => "primary key"
  | inlineKeys _ => "primary key"
  | keyConflict _ => "primary key"
  | foreignKey _ => "foreign key"
  | addedForeignKey _ => "foreign key"
  | check _ => "check constraint"
  | onUpdate => "on update"
  | commitTimestamp => "commit timestamp"
  | addedKeyColumn _ => "primary key"
  | changedKeyColumn _ => "primary key"
  | addedKey => "primary key"
  | renamedColumn _ _ => "column rename"
  | emptyIndex => "index"

/-- Why the construct cannot be expressed. -/
def detail : Unsupported → String
  | columnType name => "'" ++ name ++ "' has no Spanner equivalent"
  | secondAutoIncrement first second =>
    "only one auto-increment column is allowed, found '" ++ first ++ "' and '" ++ second ++ "'"
  | secondKeyClause => "more than one PRIMARY KEY clause"
  | inlineKeys columns => "columns " ++ ", ".intercalate columns ++ " are each declared PRIMARY KEY"
  | keyConflict column =>
    "inline PRIMARY KEY on '" ++ column ++ "' conflicts with the PRIMARY KEY clause"
  | foreignKey table =>
    "foreign key to '" ++ table ++ "' cannot be expressed; use an interleaved table"
  | addedForeignKey table => "foreign key to '" ++ table ++ "' cannot be added"
  | check expression => "CHECK (" ++ expression ++ ") is not supported"
  | onUpdate => "only ON UPDATE CURRENT_TIMESTAMP is supported"
  | commitTimestamp => "commit timestamp defaults require a timestamp column"
  | addedKeyColumn column =>
    "cannot add primary key column '" ++ column ++ "' to an existing table"
  | changedKeyColumn column => "cannot make '" ++ column ++ "' part of the primary key"
  | addedKey => "the primary key of an existing table cannot change"
  | renamedColumn old new => "cannot rename column '" ++ old ++ "' to '" ++ new ++ "'"
  | emptyIndex => "an index needs at least one column"

end Unsupported

/-- What keeps a text from being the schema of a database. -/
inductive Malformation where
  | unknownStatement
  | unbalancedBody
  | incompleteIndex
  | invalidKeyColumn
  | expectedKeyClause
  | secondKeyClause
  | expectedType
  | unknownType
  | invalidLength
  | expectedColumn
  | unbalancedDefault
  | unexpectedAttribute
  | duplicateColumn
  | duplicateTable
  | unknownProperty
  deriving DecidableEq, Repr

namespace Malformation

/-- What was expected or found. -/
def reason : Malformation → String
  | unknownStatement => "no known statement shape"
  | unbalancedBody => "unbalanced table body"
  | incompleteIndex => "incomplete INDEX statement"
  | invalidKeyColumn => "invalid key column"
  | expectedKeyClause => "expected PRIMARY KEY clause"
  | secondKeyClause => "second PRIMARY KEY clause"
  | expectedType => "expected a column type"
  | unknownType => "unknown column type"
  | invalidLength => "invalid length"
  | expectedColumn => "expected a column definition"
  | unbalancedDefault => "unbalanced DEFAULT expression"
  | unexpectedAttribute => "unexpected column attribute"
  | duplicateColumn => "duplicate column"
  | duplicateTable => "table defined twice"
  | unknownProperty => "unknown extended schema property"

end Malformation

/-- What can go wrong with a schema. -/
inductive SchemaError where
  | unsupported (what : Unsupported) (place : Option Place)
  | malformed (what : Malformation) (fragment : String)
  | dangling (table : String) (column : Option String) (context : String)
  | generation (cause : String)
  deriving DecidableEq, Repr

namespace SchemaError

/-- The most characters of a statement that a message repeats. -/
def excerptLength : Nat := 160

/-- A statement, or the beginning of a long one, without blanks around it. -/
def excerpt (text : String) : String :=
  let cs := Text.strip text.toList
  if cs.length ≤ excerptLength then String.ofList cs
  else String.ofList (cs.take excerptLength) ++ "..."

/-- The sentence for an error. -/
def message : SchemaError → String
  | unsupported what none =>
    "Unsupported construct '" ++ what.construct ++ "': " ++ what.detail
  | unsupported what (some place) =>
    "Unsupported construct '" ++ what.construct ++ "': " ++ what.detail ++
      " (" ++ place.describe ++ ")"
  | malformed what fragment =>
    "Malformed schema text (" ++ what.reason ++ "): " ++ excerpt fragment
  | dangling table (some column) context =>
    "Dangling reference to column '" ++ table ++ "." ++ column ++ "': " ++ context
  | dangling table none context => "Dangling reference to table '" ++ table ++ "': " ++ context
  | generation cause => "Surrogate value generation failed: " ++ cause

/-- Something refers to a table or column that is not there. -/
def isDangling : SchemaError → Bool
  | dangling _ _ _ => true
  | _ => false

end SchemaError

/-- What can go wrong in a pass over a database. -/
inductive PassError where
  | schema (error : SchemaError)
  | client (operation message : String)
  | invalidRow (table message : String)
  deriving DecidableEq, Repr

namespace PassError

/-- The sentence for an error. -/
def message : PassError → String
  | schema e => e.message
  | client operation message => "Client error during " ++ operation ++ ": " ++ message
  | invalidRow table message => "Invalid row for table '" ++ table ++ "': " ++ message

/-- Something refers to a table or column that is not there. -/
def isDangling : PassError → Bool
  | schema e => e.isDangling
  | _ => false

end PassError

end SchemaLedger
