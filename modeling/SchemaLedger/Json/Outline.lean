import SchemaLedger.Json.Number
import SchemaLedger.Json.Token

/-!
# Outlines of JSON

The outline of a text is its nesting, with numbers and strings as they are written. Whether a text
is JSON is decided here, and without regard to what its numbers and strings stand for: the outline
of a number that no double can hold is as good as any.

The nesting is followed token by token, with a stack of the arrays and objects that are open, so
reading is one fold over the tokens.
-/

namespace SchemaLedger.Json

/-- A JSON text by its nesting; strings, the names of fields among them, are still escaped. -/
inductive Outline where
  | null
  | bool (value : Bool)
  | number (value : Numeral)
  | string (body : List Char)
  | array (items : List Outline)
  | object (fields : List (List Char × Outline))
  deriving Repr, Inhabited

namespace Outline

/-- The outline of a word. -/
def ofWord? (cs : List Char) : Option Outline :=
  if cs = "null".toList then some null
  else if cs = "true".toList then some (bool true)
  else if cs = "false".toList then some (bool false)
  else number <$> Numeral.ofText? cs

/-! ## Following the nesting -/

/-- An open array or object with what has been read of it, the latest first. -/
inductive Frame where
  | array (done : List Outline)
  | object (done : List (List Char × Outline)) (name : List Char)

/-- What may come next. -/
inductive Expecting where
  | value
  | firstItem
  | firstName
  | name
  | colon
  | separator
  deriving DecidableEq, Repr

/-- The state of a reading: the open frames, innermost first, what may come next, and what has been
read when nothing is open any more. -/
structure Reading where
  stack : List Frame
  expecting : Expecting
  root : Option Outline

namespace Reading

/-- Nothing has been read. -/
def start : Reading := ⟨[], .value, none⟩

/-- A value may come next. -/
def allowsValue (r : Reading) : Bool := r.expecting == .value || r.expecting == .firstItem

/-- The name of a field may come next. -/
def allowsName (r : Reading) : Bool := r.expecting == .name || r.expecting == .firstName

/-- Takes a whole value into the innermost frame. -/
def put (o : Outline) : List Frame → Reading
  | [] => ⟨[], .separator, some o⟩
  | .array done :: rest => ⟨.array (o :: done) :: rest, .separator, none⟩
  | .object done name :: rest => ⟨.object ((name, o) :: done) [] :: rest, .separator, none⟩

/-- Opens a frame where a value may stand. -/
def openFrame (r : Reading) (f : Frame) (next : Expecting) : Option Reading :=
  if r.allowsValue then some ⟨f :: r.stack, next, none⟩ else none

/-- The reading after one more token. -/
def step (r : Reading) : Token → Option Reading
  | .openArray => r.openFrame (.array []) .firstItem
  | .openObject => r.openFrame (.object [] []) .firstName
  | .word cs => do
    let o ← ofWord? cs
    if r.allowsValue then some (put o r.stack) else none
  | .string body =>
    match r.stack with
    | .object done _ :: rest =>
      if r.allowsName then some ⟨.object done body :: rest, .colon, none⟩
      else if r.allowsValue then some (put (string body) r.stack)
      else none
    | stack => if r.allowsValue then some (put (string body) stack) else none
  | .colon => if r.expecting = .colon then some { r with expecting := .value } else none
  | .comma =>
    match r.expecting, r.stack with
    | .separator, .array _ :: _ => some { r with expecting := .value }
    | .separator, .object _ _ :: _ => some { r with expecting := .name }
    | _, _ => none
  | .closeArray =>
    match r.expecting, r.stack with
    | .separator, .array done :: rest => some (put (array done.reverse) rest)
    | .firstItem, .array done :: rest => some (put (array done.reverse) rest)
    | _, _ => none
  | .closeObject =>
    match r.expecting, r.stack with
    | .separator, .object done _ :: rest => some (put (object done.reverse) rest)
    | .firstName, .object done _ :: rest => some (put (object done.reverse) rest)
    | _, _ => none

end Reading

/-- The outline of a list of tokens. -/
def ofTokens? (ts : List Token) : Option Outline := do
  let r ← ts.foldlM Reading.step .start
  r.root

/-- The outline of a text. -/
def ofText? (s : String) : Option Outline := do ofTokens? (← tokens? s.toList)

end Outline

end SchemaLedger.Json
