import SchemaLedger.Column.Type
import SchemaLedger.Column.Value
import SchemaLedger.Error

/-!
# Tables

A table as the database stores it, with what its columns get from elsewhere: where their values
come from and what their defaults are.

Two flags of a column repeat what other parts of the table say: `isPrimary` that the key names it,
`isUnique` that a unique index covers it; and `uniques` lists the unique indices once more, by name
and key columns. They are stored data, not computed, because a table is also read from outside and
compared field by field; the operations below keep them in step.
-/

namespace SchemaLedger

/-- A column of a table; for an array, `type` is the type of the elements. -/
structure Column where
  name : String
  type : ColumnType
  nullable : Bool := true
  length : Option ColumnLength := none
  isArray : Bool := false
  isPrimary : Bool := false
  isUnique : Bool := false
  defaultValue : Option ColumnDefault := none
  generation : Option Generation := none
  deriving DecidableEq, Repr

/-- The direction of a key part. -/
inductive SortOrder where
  | asc
  | desc
  deriving DecidableEq, Repr

/-- The written form. -/
def SortOrder.text : SortOrder → String
  | asc => "ASC"
  | desc => "DESC"

/-- A column of a key and its direction. -/
structure KeyPart where
  name : String
  order : SortOrder := .asc
  deriving DecidableEq, Repr

/-- An index of a table. -/
structure Index where
  name : String
  table : String
  columns : List KeyPart
  unique : Bool := false
  nullFiltered : Bool := false
  storing : List String := []
  interleaveIn : Option String := none
  deriving DecidableEq, Repr

namespace Index

/-- The names of the key columns. -/
def columnNames (i : Index) : List String := i.columns.map (·.name)

/-- The names of all columns that the index refers to, key columns first. -/
def referenced (i : Index) : List String := i.columnNames ++ i.storing

end Index

/-- The rows of a table are stored with those of its parent. -/
structure Interleave where
  parent : String
  onDeleteCascade : Bool
  deriving DecidableEq, Repr

/-- A foreign key, as a table that is interleaved in a parent is shown with one. -/
structure ForeignKey where
  name : String
  columns : List String
  referencedTable : String
  referencedColumns : List String
  onDeleteCascade : Bool
  deriving DecidableEq, Repr

/-- A unique index by its name and key columns. -/
structure UniqueConstraint where
  name : String
  columns : List String
  deriving DecidableEq, Repr

/-- A table; `primaryKey` is in key order, the other lists in order of declaration. -/
structure Table where
  name : String
  columns : List Column := []
  primaryKey : List String := []
  indices : List Index := []
  foreignKeys : List ForeignKey := []
  uniques : List UniqueConstraint := []
  interleave : Option Interleave := none
  deriving DecidableEq, Repr

namespace Table

/-! ## Looking things up -/

/-- The column of a name. -/
def column? (t : Table) (name : String) : Option Column := t.columns.find? (·.name == name)

/-- There is a column of that name. -/
def hasColumn (t : Table) (name : String) : Bool := t.columns.any (·.name == name)

/-- The key names the column. -/
def isKeyColumn (t : Table) (name : String) : Bool := t.primaryKey.contains name

/-- The index of a name. -/
def index? (t : Table) (name : String) : Option Index := t.indices.find? (·.name == name)

/-- The names of the columns. -/
def columnNames (t : Table) : List String := t.columns.map (·.name)

theorem isSome_column? (t : Table) (name : String) :
    (t.column? name).isSome = t.hasColumn name := by
  rw [column?, hasColumn, List.isSome_find?]

theorem hasColumn_iff {t : Table} {name : String} :
    t.hasColumn name = true ↔ name ∈ t.columnNames := by
  simp [hasColumn, columnNames]

/-! ## Changing a table -/

/-- Changes the first column of a name. -/
def modifyFirst (name : String) (f : Column → Column) : List Column → List Column
  | [] => []
  | c :: cs => if c.name == name then f c :: cs else c :: modifyFirst name f cs

/-- Changes the column of a name. -/
def modifyColumn (t : Table) (name : String) (f : Column → Column) : Table :=
  { t with columns := modifyFirst name f t.columns }

/-- Sets the flag of every column that tells whether the key names it. -/
def syncPrimary (t : Table) : Table :=
  { t with columns := t.columns.map fun c ↦ { c with isPrimary := t.isKeyColumn c.name } }

/-- Appends a column. -/
def addColumn (t : Table) (c : Column) : Table :=
  syncPrimary { t with columns := t.columns ++ [c] }

/-- Sets the key. -/
def withKey (t : Table) (columns : List String) : Table :=
  syncPrimary { t with primaryKey := columns }

/-- Interleaves the table in a parent. -/
def interleaveIn (t : Table) (parent : String) (onDeleteCascade : Bool) : Table :=
  { t with interleave := some ⟨parent, onDeleteCascade⟩ }

/-- Marks the columns that a unique index covers. -/
def markUnique (columns : List Column) (names : List String) : List Column :=
  columns.map fun c ↦ { c with isUnique := c.isUnique || names.contains c.name }

/-- Appends an index, without looking at the columns that it names. -/
def registerIndex (t : Table) (i : Index) : Table :=
  if i.unique then
    { t with
      columns := markUnique t.columns i.columnNames
      uniques := t.uniques ++ [⟨i.name, i.columnNames⟩]
      indices := t.indices ++ [i] }
  else { t with indices := t.indices ++ [i] }

/-- Appends an index if the table has all the columns that it names. -/
def addIndex (t : Table) (i : Index) : Except SchemaError Table :=
  match i.referenced.find? (!t.hasColumn ·) with
  | some missing =>
    let kind := if i.unique then "unique index " else "index "
    .error (.dangling t.name (some missing) (kind ++ i.name))
  | none => .ok (t.registerIndex i)

/-- Removes the indices of a name; a column stays marked unique if another unique index covers
it. -/
def dropIndex (t : Table) (name : String) : Table :=
  let uniques := t.uniques.filter (·.name != name)
  { t with
    indices := t.indices.filter (·.name != name)
    uniques
    columns := t.columns.map fun c ↦
      { c with isUnique := uniques.any (·.columns.contains c.name) } }

/-- An index names the column, as a key column or as a stored one. -/
def isIndexed (t : Table) (column : String) : Bool :=
  t.indices.any fun i ↦ i.referenced.contains column

end Table

end SchemaLedger
