import SchemaLedger.Column.Value
import SchemaLedger.Digest.Hex
import SchemaLedger.Error

/-!
# Surrogate values

The database has no sequences, so a generated key is random. A generator takes its bytes off the
front of a supply; when there are too few, it fails and the supply stays as it is. Integers take
eight bytes, highest first, and are written in decimal; UUIDs take sixteen, six bits of which give
way to the version and variant marks of a random UUID.
-/

namespace SchemaLedger

/-- A program that draws on a supply of random bytes. -/
abbrev Random := StateT (List UInt8) (Except SchemaError)

namespace Random

/-- What a supply reports when it has run dry. -/
def exhausted : String := "Unknown Error: 3221225472"

/-- The next `n` bytes. -/
def bytes (n : Nat) : Random (List UInt8) := fun supply ↦
  if n ≤ supply.length then .ok (supply.take n, supply.drop n)
  else .error (.generation exhausted)

/-- The number that bytes spell, the highest first. -/
def bigEndian (bs : List UInt8) : Nat := bs.foldl (fun n b ↦ 256 * n + b.toNat) 0

/-- A number of 64 bits. -/
def word : Random Nat := bigEndian <$> bytes 8

/-- A number of 64 bits in decimal. -/
def int64 : Random String := toString <$> word

/-- Marks sixteen bytes as a random UUID. -/
def stamp (bs : List UInt8) : List UInt8 :=
  bs.mapIdx fun i b ↦
    if i = 6 then (b &&& 0x0f) ||| 0x40 else if i = 8 then (b &&& 0x3f) ||| 0x80 else b

/-- Writes sixteen bytes in groups of 4, 2, 2, 2 and 6. -/
def uuidText (bs : List UInt8) : String :=
  let group (start size : Nat) := String.ofList (Digest.hex ((bs.drop start).take size))
  "-".intercalate [group 0 4, group 4 2, group 6 2, group 8 2, group 10 6]

/-- A random UUID. -/
def uuid : Random String := (uuidText ∘ stamp) <$> bytes 16

/-- A value of a generation; those of a custom one are made by the application. -/
def generate : Generation → Random (Option String)
  | .increment => some <$> int64
  | .uuid => some <$> uuid
  | .custom _ => pure none

end Random

end SchemaLedger
