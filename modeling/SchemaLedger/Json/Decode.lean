import SchemaLedger.Json

/-!
# Reading values of a type out of JSON

A record is read field by field in the order of its declaration. It may be written as an object,
where unknown fields are passed over and a field may not be repeated, or as the array of its
fields; `Fields` is what is left of either, and a record reader is a state monad over it. An
optional field may be left out of an object but not of an array, a field with a default of both.

A choice between cases is given by the list of their names and is written in one of three ways.
Untagged: the name of the case alone, or an object whose only field is named for it. Tagged: the
name stands in a field of its own beside the fields of the case. With content: the name in one
field, the value in another.

What stands inside of a tagged record is read more generously: a constant may be an object without
fields, and the case of a tagged record may be given by its place in the list.
-/

namespace SchemaLedger.Json

/-- The value of a string. -/
def string? : Json → Option String
  | .string s => some s
  | _ => none

/-- The value of a truth value. -/
def bool? : Json → Option Bool
  | .bool b => some b
  | _ => none

/-- The value of a whole number; decimals are none, also whole ones. -/
def nat? : Json → Option Nat
  | .number (.int i) => if 0 ≤ i then some i.toNat else none
  | _ => none

/-- The value of a whole number of at most 32 bits. -/
def uint32? (j : Json) : Option UInt32 := do
  let n ← j.nat?
  if n < UInt32.size then some (UInt32.ofNat n) else none

/-- The items of an array, each read as `f` says. -/
def list? {α : Type} (f : Json → Option α) : Json → Option (List α)
  | .array items => items.mapM f
  | _ => none

/-- Nothing for `null`, and otherwise what `f` reads. -/
def nullable? {α : Type} (f : Json → Option α) : Json → Option (Option α)
  | .null => some none
  | j => some <$> f j

/-! ## Decoders -/

/-- Where a value stands: inside of a tagged record or not. -/
inductive Position where
  | outer
  | inner
  deriving DecidableEq, Repr

/-- Reads a value of a type in a position. -/
abbrev Decoder (α : Type) := Position → Json → Option α

namespace Decoder

variable {α : Type}

/-- Reads a value that is not part of another. -/
def read (d : Decoder α) : Json → Option α := d .outer

/-- Strings. -/
def string : Decoder String := fun _ ↦ string?

/-- Truth values. -/
def bool : Decoder Bool := fun _ ↦ bool?

/-- Whole numbers of at most 32 bits. -/
def uint32 : Decoder UInt32 := fun _ ↦ uint32?

/-- What a function makes of values. -/
def map {β : Type} (f : α → β) (d : Decoder α) : Decoder β := fun p j ↦ f <$> d p j

/-- Arrays of values. -/
def list (d : Decoder α) : Decoder (List α) := fun p ↦ list? (d p)

/-- Values that may be `null`. -/
def nullable (d : Decoder α) : Decoder (Option α) := fun p ↦ nullable? (d p)

end Decoder

/-! ## Records -/

/-- Fields of a record that have not been read. -/
inductive Fields where
  | named (fields : List (String × Json))
  | positional (items : List Json)

/-- The fields of an object or an array. -/
def fields? : Json → Option Fields
  | .object fields => some (.named fields)
  | .array items => some (.positional items)
  | _ => none

/-- Reads fields of a record in a position. -/
abbrev RecordReader := ReaderT Position (StateT Fields Option)

namespace RecordReader

variable {α : Type}

/-- The value of the next field, `name`, if it is there; a repeated one cannot be read. -/
def take (name : String) : RecordReader (Option Json) := fun _ fields ↦
  match fields with
  | .named fs =>
    match fs.filter fun f ↦ f.1 == name with
    | [] => some (none, fields)
    | [(_, j)] => some (some j, fields)
    | _ => none
  | .positional [] => some (none, .positional [])
  | .positional (j :: rest) => some (some j, .positional rest)

/-- Reads a value in the position of the record. -/
def decode (d : Decoder α) (j : Json) : RecordReader α := fun p fields ↦ (·, fields) <$> d p j

/-- A field that has to be there. -/
def field (name : String) (d : Decoder α) : RecordReader α := do
  match ← take name with
  | some j => decode d j
  | none => failure

/-- A field that stands for `default` when it is left out. -/
def fieldD (name : String) (default : α) (d : Decoder α) : RecordReader α := do
  match ← take name with
  | some j => decode d j
  | none => return default

/-- A field that may be `null`, or left out, even of an array. -/
def optionalD (name : String) (d : Decoder α) : RecordReader (Option α) :=
  fieldD name none d.nullable

/-- A field that may be `null`, or left out of an object. -/
def optional (name : String) (d : Decoder α) : RecordReader (Option α) := do
  match ← get with
  | .named _ => optionalD name d
  | .positional _ => field name d.nullable

/-- Runs a reader on the fields of a record; an array must not be left with items. -/
def runOn (r : RecordReader α) (p : Position) (fields : Fields) : Option α := do
  match ← r p fields with
  | (_, .positional (_ :: _)) => none
  | (a, _) => some a

end RecordReader

/-- Records. -/
def record {α : Type} (r : RecordReader α) : Decoder α := fun p j ↦ do r.runOn p (← j.fields?)

/-! ## Choices -/

/-- A case of a choice that has no fields: a constant, or a value made of a content. -/
inductive Case (α : Type) where
  | constant (a : α)
  | content (d : Decoder α)

/-- The content of a constant whose name is the name of a field. -/
def isUnit : Position → Json → Bool
  | _, .null => true
  | .inner, .object [] => true
  | _, _ => false

/-- Untagged choices. -/
def untagged {α : Type} (cases : List (String × Case α)) : Decoder α := fun p j ↦
  match j with
  | .string name =>
    match cases.lookup name with
    | some (.constant a) => some a
    | _ => none
  | .object [(name, content)] =>
    match cases.lookup name with
    | some (.constant a) => if isUnit p content then some a else none
    | some (.content d) => d p content
    | none => none
  | _ => none

/-- Choices between constants, each with its name. -/
def constants {α : Type} (name : α → String) (all : List α) : Decoder α :=
  untagged (all.map fun a ↦ (name a, .constant a))

/-- The case that is named, or inside of a tagged record numbered from zero. -/
def tag {α : Type} (cases : List (String × α)) : Decoder α
  | _, .string name => cases.lookup name
  | .inner, .number (.int i) => if 0 ≤ i then cases[i.toNat]?.map (·.2) else none
  | _, _ => none

/-- Tagged choices, whose case is named in the field `name`. -/
def tagged {α : Type} (name : String) (cases : List (String × RecordReader α)) : Decoder α :=
  record do
    let case ← RecordReader.field name (tag cases)
    fun _ ↦ case .inner

/-- Choices whose case is named in the field `name`, with a content in the field `content`. The
content of a constant is missing or `null`; an array has both fields in any case. -/
def withContent {α : Type} (name content : String) (cases : List (String × Case α)) : Decoder α :=
  record do
    let case ← RecordReader.field name (untagged (cases.map fun c ↦ (c.1, .constant c.2)))
    let value ← match ← get with
      | .named _ => RecordReader.take content
      | .positional _ => RecordReader.field content fun _ j ↦ some (some j)
    match case, value with
    | .constant a, none => return a
    | .constant a, some .null => return a
    | .content d, some j => RecordReader.decode d j
    | _, _ => failure

end SchemaLedger.Json
