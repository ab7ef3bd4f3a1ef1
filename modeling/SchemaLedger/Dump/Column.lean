import SchemaLedger.Table
import SchemaLedger.Text.Quotation
import SchemaLedger.Text.Scanner

/-!
# Columns in a dump

A column is a name, a type and attributes in any order: `NOT NULL`, the permission to hold the
commit timestamp, a default in parentheses. The type is a word with an optional length, or an
array of such. Of a repeated attribute the last one counts, and withholding the permission says
nothing.
-/

namespace SchemaLedger.Dump

open Text Text.Scanner

/-! ## Types -/

/-- A type before it is looked up. -/
inductive TypeText where
  | scalar (word : List Char) (length : Option (List Char))
  | array (element : List Char)
  deriving DecidableEq, Repr

/-- A word and, in parentheses, its length. -/
def sizedWord : Scanner (List Char × Option (List Char)) := do
  let word ← chars isNameChar
  let length ← attempt do
    blanks
    symbol '('
    upTo ')'
  return (word, length)

/-- A type. -/
def typeText : Scanner TypeText :=
  (do
    keyword "array"
    blanks
    symbol '<'
    return .array (← upTo '>')) <|>
  (do
    let (word, length) ← sizedWord
    return .scalar word length)

/-- What a type may have for a length. -/
def isLengthText (cs : List Char) : Bool :=
  foldsTo cs "max".toList || (!cs.isEmpty && cs.all Char.isDigit)

/-- A type by its word and length. -/
def readSized (word : List Char) (length : Option (List Char)) :
    Except Malformation (ColumnType × Option ColumnLength) :=
  let length := length.map strip
  if !length.all isLengthText then .error .expectedType
  else
    match ColumnType.ofText? (String.ofList word) with
    | none => .error .unknownType
    | some type =>
      match length with
      | none => .ok (type, none)
      | some cs =>
        match ColumnLength.ofText? (String.ofList cs) with
        | none => .error .invalidLength
        | some l => .ok (type, type.normalLength (some l))

/-- A type, the length to store, and whether it is an array. -/
def readType : TypeText → Except Malformation (ColumnType × Option ColumnLength × Bool)
  | .scalar word length => do
    let (type, length) ← readSized word length
    return (type, length, false)
  | .array element =>
    let inner : Scanner (List Char × Option (List Char)) := do
      blanks
      let t ← sizedWord
      blanks
      finished
      return t
    match inner.value? element with
    | none => .error .expectedType
    | some (word, length) => do
      let (type, length) ← readSized word length
      return (type, length, true)

/-! ## Attributes -/

/-- An attribute of a column. -/
inductive Attribute where
  | notNull
  | commitTimestamp (allowed : Bool)
  | default (expression : List Char)
  deriving DecidableEq, Repr

/-- `NOT NULL`. -/
def notNull : Scanner Attribute := do
  phrase ["not", "null"]
  wordEnd
  return .notNull

/-- `true`, `false` or `null`, of which only the first allows. -/
def allowance : Scanner Bool :=
  (do keyword "true"; return true) <|> (do keyword "false"; return false) <|>
    (do keyword "null"; return false)

/-- `OPTIONS (allow_commit_timestamp = …)`. -/
def options : Scanner Bool := do
  keyword "options"
  blanks
  symbol '('
  blanks
  keyword "allow_commit_timestamp"
  blanks
  symbol '='
  blanks
  let allowed ← allowance
  blanks
  symbol ')'
  return allowed

/-- An attribute without an expression. -/
def plainAttribute : Scanner Attribute := notNull <|> Attribute.commitTimestamp <$> options

/-- What opens the expression of a default. -/
def defaultHead : Scanner Unit := do
  keyword "default"
  blanks
  symbol '('

theorem notNull_consuming : Consuming notNull :=
  .bind (.bind (.keyword (by decide)) fun _ ↦ .bind Consuming.gap.nonGrowing fun _ ↦
    (Consuming.keyword (by decide)).nonGrowing) fun _ ↦ .bind .wordEnd fun _ ↦ .pure _

theorem allowance_consuming : Consuming allowance :=
  .orElse (.bind (.keyword (by decide)) fun _ ↦ .pure _)
    (.orElse (.bind (.keyword (by decide)) fun _ ↦ .pure _)
      (.bind (.keyword (by decide)) fun _ ↦ .pure _))

theorem options_consuming : Consuming options :=
  .bind (.keyword (by decide)) fun _ ↦ .bind .blanks fun _ ↦
    .bind (Consuming.symbol _).nonGrowing fun _ ↦ .bind .blanks fun _ ↦
    .bind (Consuming.keyword (by decide)).nonGrowing fun _ ↦ .bind .blanks fun _ ↦
    .bind (Consuming.symbol _).nonGrowing fun _ ↦ .bind .blanks fun _ ↦
    .bind allowance_consuming.nonGrowing fun _ ↦ .bind .blanks fun _ ↦
    .bind (Consuming.symbol _).nonGrowing fun _ ↦ .pure _

theorem plainAttribute_consuming : Consuming plainAttribute :=
  .orElse notNull_consuming (options_consuming.bind fun _ ↦ .pure _)

theorem defaultHead_consuming : Consuming defaultHead :=
  .bind (.keyword (by decide)) fun _ ↦ .bind .blanks fun _ ↦ (Consuming.symbol _).nonGrowing

/-- The attributes of a text without blanks around it. -/
def attributes (cs : List Char) : Except Malformation (List Attribute) :=
  if cs.isEmpty then .ok []
  else
    match h : plainAttribute.run cs with
    | some (a, rest) =>
      have := plainAttribute_consuming cs a rest h
      have := stripLeft_length_le rest
      (a :: ·) <$> attributes (stripLeft rest)
    | none =>
      match h : defaultHead.run cs with
      | none => .error .unexpectedAttribute
      | some (u, rest) =>
        have := defaultHead_consuming cs u rest h
        match h' : enclosed rest with
        | none => .error .unbalancedDefault
        | some (expression, rest') =>
          have := length_of_enclosedFrom h'
          have := stripLeft_length_le rest'
          (.default expression :: ·) <$> attributes (stripLeft rest')
  termination_by cs.length

/-- The column with an attribute. -/
def Attribute.apply (c : Column) : Attribute → Column
  | notNull => { c with nullable := false }
  | commitTimestamp true => { c with defaultValue := some .commitTimestamp }
  | commitTimestamp false => c
  | default e => { c with defaultValue := some (.ofExpression (String.ofList e)) }

/-! ## Columns -/

/-- The name, the type and the attributes, not yet read. -/
def columnText : Scanner (String × TypeText × List Char) := do
  blanks
  let n ← name
  gap
  let t ← typeText
  return (n, t, ← remainder)

/-- Reads a column, or tells what keeps the text from being one. -/
def readColumn (cs : List Char) : Except Malformation Column :=
  match columnText.value? cs with
  | none => .error .expectedColumn
  | some (name, typeText, rest) => do
    let (type, length, isArray) ← readType typeText
    let column : Column := { name, type, length, isArray }
    return (← attributes (strip rest)).foldl Attribute.apply column

/-- Reads a column; an error repeats its text. -/
def columnOfText (cs : List Char) : Except SchemaError Column :=
  (readColumn cs).mapError (.malformed · (String.ofList cs))

end SchemaLedger.Dump
