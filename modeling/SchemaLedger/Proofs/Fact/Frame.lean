import Mathlib
import SchemaLedger.Proofs.Fact.Decoration

/-!
# What decorating leaves alone

Decorating gives columns a generation and a default, each from facts of their own, and touches
nothing else. A strategy that means nothing, or lacks its generator, leaves the column what it had.
So doing it again changes nothing, and what is known of other tables does not matter.
-/

namespace SchemaLedger

namespace Ledger

/-! ## The facts of a table -/

/-- The columns of a table with facts come in ascending order. -/
theorem pairwise_columns (l : Ledger) (table : String) :
    (l.columns table).Pairwise fun a b ↦ compare a b = .lt := by
  rw [columns, FactTree.columns]
  cases l.tree.tables[table]? with
  | none => exact List.Pairwise.nil
  | some level => exact Std.ExtTreeMap.ordered_keys

section

variable {l m : Ledger} {table : String} (h : ∀ k : FactKey, k.table = table → m.get? k = l.get? k)

include h

theorem columns_eq_of_get? : m.columns table = l.columns table := by
  have hne {a b : String} (hab : compare a b = .lt) : a ≠ b := by
    rintro rfl
    rw [Std.ReflOrd.compare_self] at hab
    contradiction
  have hmem (column : String) : column ∈ m.columns table ↔ column ∈ l.columns table := by
    simp only [mem_columns, h ⟨table, column, _⟩ rfl]
  have hperm : (m.columns table).Perm (l.columns table) :=
    (List.perm_ext_iff_of_nodup ((m.pairwise_columns table).imp hne)
      ((l.pairwise_columns table).imp hne)).2 hmem
  -- Both lists are ascending, so that they have the same members makes them the same list.
  refine hperm.eq_of_pairwise (fun a b _ _ hab hba ↦ ?_) (m.pairwise_columns table)
    (l.pairwise_columns table)
  rw [Std.OrientedOrd.eq_swap, hba] at hab
  contradiction

theorem decorateColumn_eq_of_get? : m.decorateColumn table = l.decorateColumn table := by
  funext c
  simp only [decorateColumn, h ⟨table, c.name, _⟩ rfl]

end

/-- Decorating a table looks at the facts of that table alone. -/
theorem decorate_eq_of_get? {l m : Ledger} {t : Table}
    (h : ∀ k : FactKey, k.table = t.name → m.get? k = l.get? k)
    (ignoreMissing : Bool) : m.decorate t ignoreMissing = l.decorate t ignoreMissing := by
  simp only [decorate, missingColumn?, columns_eq_of_get? h, decorateColumn_eq_of_get? h]

/-! ## The columns of a decorated table -/

/-- The generation that the facts of a column stand for, if they stand for one. -/
def generation? (l : Ledger) (table column : String) : Option Generation :=
  (l.get? ⟨table, column, .strategy⟩).bind fun s ↦
    Generation.ofFacts? s (l.get? ⟨table, column, .generator⟩)

/-- The second column is the first with what the facts say of it, and nothing else is changed. -/
structure Decorates (l : Ledger) (table : String) (c d : Column) : Prop where
  others : { d with generation := c.generation, defaultValue := c.defaultValue } = c
  generated : ∀ g, l.generation? table c.name = some g → d.generation = some g
  ungenerated : l.generation? table c.name = none → d.generation = c.generation
  defaulted : ∀ v, l.get? ⟨table, c.name, .default⟩ = some v →
    d.defaultValue = some (.ofExpression v)
  undefaulted : l.get? ⟨table, c.name, .default⟩ = none → d.defaultValue = c.defaultValue

theorem decorates_decorateColumn (l : Ledger) (table : String) (c : Column) :
    l.Decorates table c (l.decorateColumn table c) where
  others := rfl
  generated g hg := by
    change (l.generation? table c.name).or c.generation = some g
    rw [hg, Option.some_or]
  ungenerated hg := by
    change (l.generation? table c.name).or c.generation = c.generation
    rw [hg, Option.none_or]
  defaulted v hv := by
    change ((l.get? ⟨table, c.name, .default⟩).map ColumnDefault.ofExpression).or c.defaultValue = _
    rw [hv, Option.map_some, Option.some_or]
  undefaulted hv := by
    change ((l.get? ⟨table, c.name, .default⟩).map ColumnDefault.ofExpression).or c.defaultValue = _
    rw [hv, Option.map_none, Option.none_or]

/-- Facts of columns that a table lacks keep it from being decorated, unless they are passed
over. -/
theorem decorate_eq_ok {l : Ledger} {t u : Table} {ignoreMissing : Bool}
    (h : l.decorate t ignoreMissing = .ok u) :
    ignoreMissing = true ∨ ∀ c ∈ l.columns t.name, c ∈ t.columnNames := by
  cases ignoreMissing with
  | true => exact Or.inl rfl
  | false =>
    rw [decorate] at h
    split at h
    · contradiction
    · rename_i hmissing
      have hfind : l.missingColumn? t = none := hmissing
      exact Or.inr fun c hc ↦ Table.hasColumn_iff.1 (by simpa using List.find?_eq_none.1 hfind c hc)

/-- A decorated table is the table itself but for what the facts of its columns say of their
generations and defaults. Decorating it once more leaves it as it is, and facts of other tables make
no difference. -/
theorem decorate_frame {t : Table} (h : t.columnNames.Nodup) (l : Ledger) (ignoreMissing : Bool) :
    (∀ u, l.decorate t ignoreMissing = .ok u →
      { u with columns := t.columns } = t ∧ t.columns.Forall₂ (l.Decorates t.name) u.columns ∧
        l.decorate u ignoreMissing = .ok u) ∧
    ∀ m : Ledger, (∀ k : FactKey, k.table = t.name → m.get? k = l.get? k) →
      m.decorate t ignoreMissing = l.decorate t ignoreMissing := by
  refine ⟨fun u hu ↦ ?_, fun m hm ↦ decorate_eq_of_get? hm ignoreMissing⟩
  have hcolumns := decorate_eq_ok hu
  rw [decorate_eq h hcolumns] at hu
  obtain rfl := Except.ok.inj hu
  have hnames : (t.columns.map (l.decorateColumn t.name)).map (·.name) = t.columnNames := by
    rw [List.map_map]
    rfl
  refine ⟨rfl, List.forall₂_map_right_iff.2
    (List.forall₂_same.2 fun c _ ↦ l.decorates_decorateColumn t.name c), ?_⟩
  -- The names are what they were, so the second time nothing is missing either.
  rw [decorate_eq (by rwa [Table.columnNames, hnames]) (by rwa [Table.columnNames, hnames])]
  dsimp only
  rw [List.map_map]
  congr 2
  exact List.map_congr_left fun c _ ↦ decorateColumn_decorateColumn l t.name c

/-- Parcels as the database has them. -/
def bareParcels : Table where
  name := "parcel"
  columns :=
    [{ name := "id", type := .string, nullable := false, length := some (.size 36),
       isPrimary := true },
      { name := "code", type := .string, generation := some .increment },
      { name := "depot", type := .int64, defaultValue := some (.expression "7") },
      { name := "sent", type := .timestamp }]
  primaryKey := ["id"]

/-- What is stored of parcels: a strategy without the generator that it needs, a strategy of no
meaning, a generator without a strategy, and a fact of a column that is gone. -/
def parcelFacts : List Fact :=
  [⟨"parcel", "id", .strategy, "uuid"⟩, ⟨"parcel", "code", .strategy, "custom"⟩,
    ⟨"parcel", "depot", .strategy, "shuffle"⟩, ⟨"parcel", "depot", .default, " 12 "⟩,
    ⟨"parcel", "sent", .generator, "clock"⟩, ⟨"parcel", "sent", .default, "now()"⟩,
    ⟨"parcel", "weight", .default, "0"⟩]

/-- The parcels with their facts. -/
def decoratedParcels : Table :=
  { bareParcels with
    columns :=
      [{ name := "id", type := .string, nullable := false, length := some (.size 36),
         isPrimary := true, generation := some .uuid },
        { name := "code", type := .string, generation := some .increment },
        { name := "depot", type := .int64, defaultValue := some (.expression "12") },
        { name := "sent", type := .timestamp, defaultValue := some .commitTimestamp }] }

theorem decorate_bareParcels :
    let l := ofList parcelFacts
    let m := l.insert ⟨"depot", "code", .strategy, "uuid"⟩
    bareParcels.columnNames.Nodup ∧ l.decorate bareParcels true = .ok decoratedParcels ∧
      bareParcels.columns.Forall₂ (l.Decorates "parcel") decoratedParcels.columns ∧
      l.decorate decoratedParcels true = .ok decoratedParcels ∧
      m.decorate bareParcels true = .ok decoratedParcels := by
  intro l m
  have hdistinct : bareParcels.columnNames.Nodup := by decide
  have hok : l.decorate bareParcels true = .ok decoratedParcels := by decide +kernel
  obtain ⟨hframe, hother⟩ := decorate_frame hdistinct l true
  obtain ⟨-, hcolumns, hagain⟩ := hframe decoratedParcels hok
  refine ⟨hdistinct, hok, hcolumns, hagain, (hother m fun k hk ↦ ?_).trans hok⟩
  rw [get?_insert, if_neg]
  rintro rfl
  exact absurd hk (by decide)

end Ledger

end SchemaLedger
