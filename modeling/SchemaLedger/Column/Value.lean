import SchemaLedger.Text.Blank

/-!
# Defaults and generated values

The database stores neither where a column's values come from nor what stands in for a missing
one. A default is an expression, or the moment at which the row is committed; many spellings mean
the latter, and all are read as the one `commitTimestamp`. A generated column gets a random
integer, a random UUID, or the value of a generator that the application owns.
-/

namespace SchemaLedger

open Text

/-- How values of a column are made when a row brings none. -/
inductive Generation where
  | increment
  | uuid
  | custom (generator : String)
  deriving DecidableEq, Repr

namespace Generation

/-- The name of the strategy. -/
def strategy : Generation → String
  | increment => "increment"
  | uuid => "uuid"
  | custom _ => "custom"

/-- The generation that a strategy and the name of a generator describe. -/
def ofFacts? (strategy : String) (generator : Option String) : Option Generation :=
  if strategy = "increment" then some increment
  else if strategy = "uuid" then some uuid
  else if strategy = "custom" then generator.map custom
  else none

end Generation

/-- What stands in for a missing value. -/
inductive ColumnDefault where
  | expression (text : String)
  | commitTimestamp
  deriving DecidableEq, Repr

namespace ColumnDefault

/-- What a row holds where the database is to put the moment of its commit. -/
def sentinel : String := "PENDING_COMMIT_TIMESTAMP()"

/-- The text before the first occurrence of `word`, or all of it. -/
def before (word : List Char) : List Char → List Char
  | [] => []
  | c :: cs => if word.isPrefixOf (c :: cs) then [] else c :: before word cs

/-- Spellings of the commit timestamp, in upper case. -/
def commitSpellings : List String :=
  ["CURRENT_TIMESTAMP", "CURRENT_TIMESTAMP()", "NOW()", "PENDING_COMMIT_TIMESTAMP()",
    "SPANNER.COMMIT_TIMESTAMP()"]

/-- Spells the commit timestamp, perhaps with a precision or a trailing `ON UPDATE`. -/
def isCommitSpelling (cs : List Char) : Bool :=
  let head := strip (before " ON UPDATE ".toList ((strip cs).map Char.toUpper))
  commitSpellings.any (fun s ↦ s.toList == head) || "CURRENT_TIMESTAMP(".toList.isPrefixOf head

/-- The default that an expression stands for; blanks around it do not count. -/
def ofExpression (text : String) : ColumnDefault :=
  if isCommitSpelling text.toList then commitTimestamp else expression (trim text)

/-- The expression under which a default is kept. -/
def factValue : ColumnDefault → String
  | commitTimestamp => sentinel
  | expression text => text

end ColumnDefault

end SchemaLedger
