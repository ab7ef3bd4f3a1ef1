import SchemaLedger.Fact.Ledger

/-!
# Deltas

What a statement asks to change in the ledger, step by step. Steps are kept in order, since a
column may be given facts, renamed with its table and dropped in one batch.
-/

namespace SchemaLedger

/-- A step of a delta. -/
inductive Change where
  | upsert (fact : Fact)
  | removeColumn (table column : String)
  | removeTable (table : String)
  | renameTable (old new : String)
  deriving DecidableEq, Repr

/-- Steps in order. -/
abbrev Delta := List Change

/-- The facts that a delta stores, in order. -/
def Delta.upserts (d : Delta) : List Fact :=
  d.filterMap fun
    | .upsert f => some f
    | _ => none

namespace FactTree

/-- The tree after a step. -/
def apply (t : FactTree) : Change → FactTree
  | .upsert f => (t.insert f).2
  | .removeColumn table column => (t.removeColumn table column).2
  | .removeTable table => (t.removeTable table).2
  | .renameTable old new => t.renameTable old new

/-- The tree after a delta. -/
def applyAll (t : FactTree) (d : Delta) : FactTree := d.foldl apply t

namespace Filed

variable {t : FactTree} (h : t.Filed)

include h

theorem apply (c : Change) : (t.apply c).Filed := by
  cases c with
  | upsert f => exact h.insert f
  | removeColumn table column => exact h.removeColumn table column
  | removeTable table => exact h.removeTable table
  | renameTable old new => exact h.renameTable old new

theorem applyAll (d : Delta) : (t.applyAll d).Filed := by
  induction d generalizing t with
  | nil => exact h
  | cons c d ih => exact ih (h.apply c)

end Filed

end FactTree

namespace Ledger

/-- The ledger after a step. -/
def apply (l : Ledger) (c : Change) : Ledger := ⟨l.tree.apply c, l.filed.apply c⟩

/-- The ledger after a delta. -/
def applyAll (l : Ledger) (d : Delta) : Ledger := d.foldl apply l

end Ledger

end SchemaLedger
