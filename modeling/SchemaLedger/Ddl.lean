import SchemaLedger.Identifier
import SchemaLedger.Table

/-!
# Data definition of the database

The statements that the database understands, and their text. A key is a clause of its own after
the body of a table, an index always a statement of its own, and of a default only the permission
to hold the commit timestamp is written.
-/

namespace SchemaLedger

open Identifier

/-- A column in a statement. -/
structure ColumnClause where
  name : String
  type : ColumnType
  length : Option ColumnLength
  array : Bool
  notNull : Bool
  commitTimestamp : Bool
  deriving DecidableEq, Repr

namespace ColumnClause

/-- Permits a column to hold the commit timestamp. -/
def commitTimestampOption : String := "OPTIONS (allow_commit_timestamp=true)"

/-- Name, type and nullability. -/
def definition (c : ColumnClause) : String :=
  quote c.name ++ " " ++ c.type.sql c.length c.array ++ if c.notNull then " NOT NULL" else ""

/-- The whole clause. -/
def text (c : ColumnClause) : String :=
  if c.commitTimestamp then c.definition ++ " " ++ commitTimestampOption else c.definition

end ColumnClause

/-- A key part; only a descending one names its direction. -/
def KeyPart.sql (p : KeyPart) : String :=
  match p.order with
  | .asc => quote p.name
  | .desc => quote p.name ++ " DESC"

/-- Key parts and the commas between them. -/
def keySql (parts : List KeyPart) : String := ", ".intercalate (parts.map KeyPart.sql)

/-- The clause that interleaves a table in a parent. -/
def Interleave.sql (i : Interleave) : String :=
  ",\n  INTERLEAVE IN PARENT " ++ quote i.parent ++
    if i.onDeleteCascade then " ON DELETE CASCADE" else ""

/-- The statement that creates an index. -/
def Index.sql (i : Index) : String :=
  "CREATE " ++ (if i.unique then "UNIQUE " else "") ++
    (if i.nullFiltered then "NULL_FILTERED " else "") ++
    "INDEX " ++ quote i.name ++ " ON " ++ quote i.table ++ " (" ++ keySql i.columns ++ ")" ++
    (if i.storing.isEmpty then "" else
      " STORING (" ++ ", ".intercalate (i.storing.map quote) ++ ")") ++
    (match i.interleaveIn with
      | some parent => ", INTERLEAVE IN " ++ quote parent
      | none => "")

/-- A statement of the database. -/
inductive Ddl where
  | createTable (table : String) (ifNotExists : Bool) (columns : List ColumnClause)
      (key : List KeyPart) (interleaves : List Interleave)
  | createIndex (index : Index)
  | dropIndex (name : String)
  | addColumn (table : String) (column : ColumnClause)
  | dropColumn (table column : String)
  | alterColumn (table : String) (column : ColumnClause)
  | allowCommitTimestamp (table column : String)
  | renameTable (old new : String)
  | dropTable (table : String) (ifExists : Bool)
  deriving DecidableEq, Repr

namespace Ddl

/-- The text of a statement. -/
def text : Ddl → String
  | createTable table ifNotExists columns key interleaves =>
    "CREATE TABLE " ++ (if ifNotExists then "IF NOT EXISTS " else "") ++ quote table ++
      " (\n  " ++ ",\n  ".intercalate (columns.map ColumnClause.text) ++
      "\n) PRIMARY KEY (" ++ keySql key ++ ")" ++ String.join (interleaves.map Interleave.sql)
  | createIndex index => index.sql
  | dropIndex name => "DROP INDEX " ++ quote name
  | addColumn table column => "ALTER TABLE " ++ quote table ++ " ADD COLUMN " ++ column.text
  | dropColumn table column => "ALTER TABLE " ++ quote table ++ " DROP COLUMN " ++ quote column
  | alterColumn table column =>
    "ALTER TABLE " ++ quote table ++ " ALTER COLUMN " ++ column.definition
  | allowCommitTimestamp table column =>
    "ALTER TABLE " ++ quote table ++ " ALTER COLUMN " ++ quote column ++ " SET " ++
      ColumnClause.commitTimestampOption
  | renameTable old new => "ALTER TABLE " ++ quote old ++ " RENAME TO " ++ quote new
  | dropTable table ifExists =>
    "DROP TABLE " ++ (if ifExists then "IF EXISTS " else "") ++ quote table

end Ddl

end SchemaLedger
