import SchemaLedger.Column.Value
import SchemaLedger.Error
import Std.Data.ExtTreeMap

/-!
# Facts

The database cannot store where a column's values come from, nor a default. Those are kept as
facts, rows of a side table: one per table, column and property. The side table's key orders them
by table, then by column, both by code points, then by property.
-/

namespace SchemaLedger

/-- What a fact tells about a column. -/
inductive Property where
  | generator
  | strategy
  | default
  deriving DecidableEq, Repr

namespace Property

/-- All properties in their order. -/
def all : List Property := [generator, strategy, default]

/-- The written form. -/
def text : Property → String
  | generator => "generator"
  | strategy => "generatorStrategy"
  | default => "default"

/-- The property of a written form. -/
def ofText? (s : String) : Except SchemaError Property :=
  match all.find? (·.text == s) with
  | some p => .ok p
  | none => .error (.malformed .unknownProperty s)

/-- The place in the order of properties. -/
def rank : Property → Nat
  | generator => 0
  | strategy => 1
  | default => 2

theorem rank_injective {p q : Property} (h : p.rank = q.rank) : p = q := by
  cases p <;> cases q <;> simp_all [rank]

instance : Ord Property where
  compare := compareOn rank

instance : Std.TransOrd Property := inferInstanceAs (Std.TransCmp (compareOn rank))

instance : Std.LawfulEqOrd Property where
  eq_of_compare {p q} h :=
    rank_injective (Std.LawfulEqOrd.compare_eq_iff_eq.1 (show compare p.rank q.rank = .eq from h))

end Property

/-- What a fact is about. -/
structure FactKey where
  table : String
  column : String
  property : Property
  deriving DecidableEq, Repr

namespace FactKey

instance : Ord FactKey where
  compare := compareLex (compareOn (·.table))
    (compareLex (compareOn (·.column)) (compareOn (·.property.rank)))

instance : Std.TransOrd FactKey :=
  inferInstanceAs (Std.TransCmp (compareLex (compareOn FactKey.table)
    (compareLex (compareOn FactKey.column) (compareOn fun k : FactKey ↦ k.property.rank))))

instance : Std.LawfulEqOrd FactKey where
  eq_of_compare {a b} h := by
    change compareLex _ _ a b = .eq at h
    simp only [compareLex_eq_eq, compareOn, Std.LawfulEqOrd.compare_eq_iff_eq] at h
    exact (mk.injEq ..).mpr ⟨h.1, h.2.1, Property.rank_injective h.2.2⟩

end FactKey

/-- A property of a column, as a row of the side table. -/
structure Fact where
  table : String
  column : String
  property : Property
  value : String
  deriving DecidableEq, Repr

namespace Fact

/-- What the fact is about. -/
def key (f : Fact) : FactKey := ⟨f.table, f.column, f.property⟩

/-- The fact with a key and a value. -/
def ofKey (k : FactKey) (value : String) : Fact := ⟨k.table, k.column, k.property, value⟩

/-- The facts that describe a generation: its strategy, and the generator of a custom one. -/
def ofGeneration (table column : String) : Generation → List Fact
  | .custom g => [⟨table, column, .strategy, "custom"⟩, ⟨table, column, .generator, g⟩]
  | g => [⟨table, column, .strategy, g.strategy⟩]

/-- The facts that describe a column. -/
def ofColumn (table column : String) (generation : Option Generation)
    (default : Option ColumnDefault) : List Fact :=
  (generation.map (ofGeneration table column)).getD [] ++
    (default.map fun d ↦ (⟨table, column, .default, d.factValue⟩ : Fact)).toList

end Fact

end SchemaLedger
