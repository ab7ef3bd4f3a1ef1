import SchemaLedger.Digest.Hex
import SchemaLedger.Digest.Sha256

/-!
# Derived names

An index without a name is called after its kind, its table and its columns. A database takes no
name of more than 128 bytes, so a longer one keeps as much of its head as leaves room for sixteen
hexadecimal digits of the hash of the whole. The foreign key that an interleaved table is shown
with names its column after the singular of the parent.
-/

namespace SchemaLedger.Identifier

/-- The most bytes that a name may have. -/
def maxLength : Nat := 128

/-- The longest run of whole characters in front that fits in a number of bytes. -/
def takeBytes : Nat → List Char → List Char
  | _, [] => []
  | room, c :: cs => if c.utf8Size ≤ room then c :: takeBytes (room - c.utf8Size) cs else []

/-- The first eight bytes of the hash of a text, in hexadecimal. -/
def shortHash (text : String) : String :=
  String.ofList (Digest.hex ((Digest.Sha256.digest text.toUTF8.toList).take 8))

/-- What the name of an index begins with. -/
def indexPrefix (unique : Bool) : String := if unique then "uq" else "idx"

/-- Kind, table and columns, joined by underscores. -/
def fullIndexName (table : String) (columns : List String) (unique : Bool) : String :=
  indexPrefix unique ++ "_" ++ table ++ "_" ++ "_".intercalate columns

/-- The name of an index that was declared without one. -/
def indexName (table : String) (columns : List String) (unique : Bool) : String :=
  let full := fullIndexName table columns unique
  if full.utf8ByteSize ≤ maxLength then full
  else
    let hash := shortHash full
    let room := maxLength - hash.utf8ByteSize - 1
    String.ofList (takeBytes room (indexPrefix unique ++ "_" ++ table).toList) ++ "_" ++ hash

/-- Endings that form their plural with `es`. -/
def sibilantEndings : List String := ["sses", "shes", "ches", "xes", "zes"]

/-- The English singular of a name; case is kept, and does not matter for the endings. -/
def singular (name : String) : String :=
  let cs := name.toList
  let ends (suffix : String) : Bool := suffix.toList.isSuffixOf (cs.map Char.toLower)
  if ends "ies" && 3 < cs.length then String.ofList (cs.take (cs.length - 3) ++ ['y'])
  else if sibilantEndings.any ends then String.ofList (cs.take (cs.length - 2))
  else if ["ss", "us", "is"].any ends then name
  else if ends "s" && 1 < cs.length then String.ofList cs.dropLast
  else name

end SchemaLedger.Identifier
