import SchemaLedger.Text.Blank

/-!
# Column types and lengths

The database knows seven column types, of which strings and byte strings have a length. A length
is a number of at most 32 bits or `MAX`. Each sized type has a length that is meant when none is
given; a stored column leaves that one out, so a column declared with it and a column declared
without any length are the same column.

Declarations come with the type names of other databases. `DataType.resolve?` maps those onto the
seven types; a few of the names imply a length.
-/

namespace SchemaLedger

open Text

/-- A type of the database. -/
inductive ColumnType where
  | int64
  | bytes
  | bool
  | date
  | float64
  | string
  | timestamp
  deriving DecidableEq, Repr

namespace ColumnType

/-- All types. -/
def all : List ColumnType := [int64, bytes, bool, date, float64, string, timestamp]

/-- The written form. -/
def text : ColumnType → String
  | int64 => "int64"
  | bytes => "bytes"
  | bool => "bool"
  | date => "date"
  | float64 => "float64"
  | string => "string"
  | timestamp => "timestamp"

/-- The type with a written form, in any case of its ASCII letters. -/
def ofText? (name : String) : Option ColumnType := all.find? fun t ↦ t.text == name.toLower

/-- Takes a length. -/
def isSized : ColumnType → Bool
  | string => true
  | bytes => true
  | _ => false

end ColumnType

/-- The length of a sized type. -/
inductive ColumnLength where
  | max
  | size (value : UInt32)
  deriving DecidableEq, Repr

namespace ColumnLength

/-- The written form. -/
def text : ColumnLength → String
  | max => "MAX"
  | size n => toString n.toNat

/-- Reads decimal digits as a positive number of at most 32 bits. -/
def ofDigits? (ds : List Char) : Option ColumnLength :=
  if ds ≠ [] ∧ ds.all Char.isDigit then
    let n := ds.foldl (fun n d ↦ 10 * n + (d.toNat - 48)) 0
    if 0 < n ∧ n < UInt32.size then some (size (UInt32.ofNat n)) else none
  else none

/-- Reads `MAX` in any case, or a positive number with or without a plus sign. -/
def ofText? (text : String) : Option ColumnLength :=
  match strip text.toList with
  | '+' :: ds => ofDigits? ds
  | cs => if cs.map Char.toLower = "max".toList then some max else ofDigits? cs

end ColumnLength

namespace ColumnType

/-- The length that is meant when none is given. -/
def defaultLength : ColumnType → Option ColumnLength
  | string => some (.size 255)
  | bytes => some .max
  | _ => none

/-- The length to write: the given one, else the one that is meant. -/
def effectiveLength (t : ColumnType) (length : Option ColumnLength) : Option ColumnLength :=
  if t.isSized then length.or t.defaultLength else none

/-- The length to store: none where the given one is meant anyway. -/
def normalLength (t : ColumnType) (length : Option ColumnLength) : Option ColumnLength :=
  if !t.isSized || length == t.defaultLength then none else length

/-- The written form of a type with its length, or of an array of it. -/
def sql (t : ColumnType) (length : Option ColumnLength) (array : Bool) : String :=
  let base := match t.effectiveLength length with
    | some l => t.text ++ "(" ++ l.text ++ ")"
    | none => t.text
  if array then "array<" ++ base ++ ">" else base

theorem effectiveLength_normalLength (t : ColumnType) (length : Option ColumnLength) :
    t.effectiveLength (t.normalLength length) = t.effectiveLength length := by
  by_cases h : t.isSized <;> by_cases e : length = t.defaultLength <;>
    cases length <;> simp_all [effectiveLength, normalLength]

theorem normalLength_effectiveLength (t : ColumnType) (length : Option ColumnLength) :
    t.normalLength (t.effectiveLength length) = t.normalLength length := by
  cases t <;> cases length <;> simp [effectiveLength, normalLength, isSized, defaultLength]

end ColumnType

/-- A type as it is declared, by the name that some database has for it. -/
structure DataType where
  name : String
  length : Option ColumnLength := none
  array : Bool := false
  deriving DecidableEq, Repr

namespace DataType

/-- The names that declare each type, in lower case, and the length that they imply. -/
def families : List (List String × ColumnType × Option ColumnLength) :=
  [(["int", "integer", "tinyint", "smallint", "mediumint", "bigint", "int64"], .int64, none),
    (["float", "double", "double precision", "real", "decimal", "numeric", "float64"],
      .float64, none),
    (["char", "varchar", "nvarchar", "character varying", "string", "enum"], .string, none),
    (["uuid"], .string, some (.size 36)),
    (["text", "tinytext", "mediumtext", "longtext", "json", "simple-json"], .string, some .max),
    (["binary", "varbinary", "bytes"], .bytes, none),
    (["blob", "tinyblob", "mediumblob", "longblob"], .bytes, some .max),
    (["bool", "boolean"], .bool, none),
    (["date"], .date, none),
    (["datetime", "timestamp"], .timestamp, none)]

/-- The column type and the length to write; a given length wins over an implied one, and counts
for sized types only. -/
def resolve? (d : DataType) : Option (ColumnType × Option ColumnLength) :=
  let name := (trim d.name).toLower
  (families.find? fun f ↦ f.1.contains name).map fun (_, t, implied) ↦
    (t, t.effectiveLength (d.length.or implied))

end DataType

end SchemaLedger
