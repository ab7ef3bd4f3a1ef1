import SchemaLedger.Fact.Tree
import SchemaLedger.Table

/-!
# The ledger of facts

All facts that are stored, one per key, in the order of the keys. Equality is having the same
entries: the levels above a key, a table with facts or a column with facts, are there only for the
facts below them, and there is no such thing as a table that is listed and has none.
-/

namespace SchemaLedger

/-- A tree of facts in which every fact has its own place and no level is empty. -/
structure Ledger where
  tree : FactTree
  filed : tree.Filed

namespace Ledger

/-- No facts. -/
def empty : Ledger := ⟨{}, .empty⟩

instance : EmptyCollection Ledger := ⟨empty⟩

instance : Inhabited Ledger := ⟨empty⟩

/-! ## Views -/

/-- The fact of a key. -/
def fact? (l : Ledger) (k : FactKey) : Option Fact := l.tree.get? k

/-- The value of a key. -/
def get? (l : Ledger) (k : FactKey) : Option String := (l.fact? k).map (·.value)

/-- All facts in the order of their keys. -/
def entries (l : Ledger) : List Fact := l.tree.entries

/-- The number of facts. -/
def size (l : Ledger) : Nat := l.tree.size

/-- There are no facts. -/
def isEmpty (l : Ledger) : Bool := l.tree.isEmpty

/-- The facts of a table. -/
def ofTable (l : Ledger) (table : String) : List Fact := l.tree.ofTable table

/-- The facts of a column. -/
def ofColumn (l : Ledger) (table column : String) : List Fact := l.tree.ofColumn table column

/-- The tables that have facts, in order. -/
def tables (l : Ledger) : List String := l.tree.tables.keys

/-- The columns of a table that have facts, in order. -/
def columns (l : Ledger) (table : String) : List String := l.tree.columns table

/-! ## Operations -/

/-- Stores a fact in place of one with the same key. -/
def insert (l : Ledger) (f : Fact) : Ledger := ⟨(l.tree.insert f).2, l.filed.insert f⟩

/-- Forgets the fact of a key. -/
def erase (l : Ledger) (k : FactKey) : Ledger := ⟨(l.tree.remove k).2, l.filed.remove k⟩

/-- Forgets the facts of a column. -/
def eraseColumn (l : Ledger) (table column : String) : Ledger :=
  ⟨(l.tree.removeColumn table column).2, l.filed.removeColumn table column⟩

/-- Forgets the facts of a table. -/
def eraseTable (l : Ledger) (table : String) : Ledger :=
  ⟨(l.tree.removeTable table).2, l.filed.removeTable table⟩

/-- Stores facts one after another. -/
def insertAll (l : Ledger) (fs : List Fact) : Ledger := fs.foldl insert l

/-- The ledger of a list of facts; a later one replaces an earlier one with its key. -/
def ofList (fs : List Fact) : Ledger := insertAll ∅ fs

/-- Moves the facts of a table to another name, over those that are there. -/
def renameTable (l : Ledger) (old new : String) : Ledger :=
  ⟨l.tree.renameTable old new, l.filed.renameTable old new⟩

/-! ## Comparing ledgers -/

/-- Facts of the second that the first lacks or holds with another value. -/
def additions (l target : Ledger) : List Fact :=
  target.entries.filter fun f ↦ l.fact? f.key != some f

/-- Facts of the first that the second lacks. -/
def removals (l target : Ledger) : List Fact :=
  l.entries.filter fun f ↦ (target.get? f.key).isNone

/-! ## Lookup after an operation -/

theorem eq_of_tree {l m : Ledger} (h : l.tree = m.tree) : l = m := by
  cases l
  cases m
  exact (mk.injEq ..).mpr h

/-- A fact is its key and its value. -/
theorem fact?_eq_some {l : Ledger} {k : FactKey} {f : Fact} :
    l.fact? k = some f ↔ f.key = k ∧ l.get? k = some f.value := by
  constructor
  · intro h
    exact ⟨l.filed.key_eq k f h, by rw [get?, h, Option.map_some]⟩
  · rintro ⟨rfl, h⟩
    obtain ⟨g, hg, hvalue⟩ := Option.map_eq_some_iff.1 h
    obtain ⟨htable, hcolumn, hproperty⟩ := (FactKey.mk.injEq ..).mp (l.filed.key_eq _ g hg)
    exact hg.trans (congrArg some ((Fact.mk.injEq ..).mpr ⟨htable, hcolumn, hproperty, hvalue⟩))

@[ext]
theorem ext {l m : Ledger} (h : ∀ k, l.get? k = m.get? k) : l = m := by
  refine eq_of_tree (l.filed.ext m.filed fun k ↦ Option.ext fun f ↦ ?_)
  change l.fact? k = some f ↔ m.fact? k = some f
  rw [fact?_eq_some, fact?_eq_some, h]

@[simp]
theorem get?_empty (k : FactKey) : (∅ : Ledger).get? k = none :=
  congrArg (Option.map (·.value)) (FactTree.get?_empty k)

theorem get?_insert (l : Ledger) (f : Fact) (k : FactKey) :
    (l.insert f).get? k = if f.key = k then some f.value else l.get? k := by
  rw [get?, fact?, insert, FactTree.get?_insert]
  split <;> rfl

theorem get?_erase (l : Ledger) (k k' : FactKey) :
    (l.erase k).get? k' = if k = k' then none else l.get? k' := by
  rw [get?, fact?, erase, FactTree.get?_remove]
  split <;> rfl

theorem get?_eraseColumn (l : Ledger) (table column : String) (k : FactKey) :
    (l.eraseColumn table column).get? k =
      if table = k.table ∧ column = k.column then none else l.get? k := by
  rw [get?, fact?, eraseColumn, FactTree.get?_removeColumn]
  split <;> rfl

theorem get?_eraseTable (l : Ledger) (table : String) (k : FactKey) :
    (l.eraseTable table).get? k = if table = k.table then none else l.get? k := by
  rw [get?, fact?, eraseTable, FactTree.get?_removeTable]
  split <;> rfl

theorem tree_insertAll (l : Ledger) (fs : List Fact) :
    (l.insertAll fs).tree = l.tree.insertAll fs := by
  induction fs generalizing l with
  | nil => rfl
  | cons f fs ih => exact ih (l.insert f)

/-- Facts that are moved are stored again under the new name. -/
theorem renameTable_eq (l : Ledger) (old new : String) : l.renameTable old new =
    (l.eraseTable old).insertAll ((l.ofTable old).map fun f ↦ { f with table := new }) := by
  refine eq_of_tree ?_
  rw [tree_insertAll]
  rfl

theorem mem_entries {l : Ledger} {f : Fact} : f ∈ l.entries ↔ l.get? f.key = some f.value := by
  rw [entries, FactTree.mem_entries]
  constructor
  · rintro ⟨k, hk⟩
    obtain ⟨rfl, h⟩ := fact?_eq_some.1 hk
    exact h
  · exact fun h ↦ ⟨f.key, fact?_eq_some.2 ⟨rfl, h⟩⟩

theorem mem_ofTable {l : Ledger} {table : String} {f : Fact} :
    f ∈ l.ofTable table ↔ f ∈ l.entries ∧ f.table = table := by
  rw [ofTable, FactTree.mem_ofTable, mem_entries]
  constructor
  · rintro ⟨column, property, hf⟩
    obtain ⟨hkey, h⟩ := fact?_eq_some.1 hf
    exact ⟨hkey ▸ h, ((FactKey.mk.injEq ..).mp hkey).1⟩
  · rintro ⟨h, rfl⟩
    exact ⟨f.column, f.property, fact?_eq_some.2 ⟨rfl, h⟩⟩

end Ledger

end SchemaLedger
