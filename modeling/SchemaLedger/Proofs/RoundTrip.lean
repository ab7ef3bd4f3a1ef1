import Mathlib
import SchemaLedger.Proofs.Dump
import SchemaLedger.Proofs.Fact.Decoration
import SchemaLedger.Proofs.Lowering.Table

/-!
# Tables survive being written

A table is written as statements and facts. The statements say everything but generations and
default expressions, and the facts say those, so reading the statements and decorating what they
describe gives the table back.

`Storable` collects what the statements need to be read back as the table: names that can stand
where they are written, lengths in the form in which they are stored, and columns and constraints
that repeat what the key and the indices say.
-/

namespace SchemaLedger

open Identifier

/-! ## What statements say -/

/-- What the statements of a table say of a column. -/
def Column.shown (c : Column) : Column :=
  { c with
    generation := none
    defaultValue := if c.stated = some .commitTimestamp then some .commitTimestamp else none }

/-- What the statements of a table say of it. -/
def Table.shown (t : Table) : Table :=
  { t with
    columns := t.columns.map Column.shown
    foreignKeys := (t.interleave.map (Dump.parentKey t.name)).toList }

/-- Its statements can be read back. -/
structure Table.Storable (t : Table) : Prop where
  legible : Legible t.name
  closed : ∀ n ∈ t.columnNames, Closed n
  distinct : t.columnNames.Nodup
  normal : ∀ c ∈ t.columns, c.type.normalLength c.length = c.length
  lengths : ∀ c ∈ t.columns, Dump.HasLength c.type c.length
  listable : ∀ n ∈ t.primaryKey, Listable n
  declaresKey : ∀ n ∈ t.primaryKey, n ∈ t.columnNames
  readable : ∀ i ∈ t.indices, i.Readable
  named : ∀ i ∈ t.indices, i.table = t.name
  declaresIndexed : ∀ i ∈ t.indices, ∀ n ∈ i.referenced, n ∈ t.columnNames
  parents : ∀ i ∈ t.interleave, Legible i.parent
  isPrimary : ∀ c ∈ t.columns, c.isPrimary = t.isKeyColumn c.name
  isUnique : ∀ c ∈ t.columns, c.isUnique = t.indices.any (·.covers c.name)
  uniques : t.uniques = (t.indices.filter (·.unique)).map Index.constraint

theorem ColumnType.effectiveLength_effectiveLength (t : ColumnType) (length : Option ColumnLength) :
    t.effectiveLength (t.effectiveLength length) = t.effectiveLength length := by
  cases t <;> cases length <;> rfl

theorem Column.column_toClause {c : Column} (h : c.type.normalLength c.length = c.length) :
    c.toClause.column = { c.shown with isPrimary := false, isUnique := false } := by
  obtain ⟨name, type, nullable, length, isArray, isPrimary, isUnique, value, generation⟩ := c
  unfold ColumnClause.column toClause shown
  dsimp only at h ⊢
  rw [ColumnType.normalLength_effectiveLength, h, Bool.not_not]
  congr 1
  simp only [beq_iff_eq, stated]
  exact ite_congr rfl (fun _ ↦ rfl) fun _ ↦ rfl

theorem Column.hasLength_of_normal {c : Column} (h : c.type.normalLength c.length = c.length)
    (hzero : c.length ≠ some (.size 0)) : Dump.HasLength c.type c.length := by
  intro hlength
  refine hzero ?_
  rw [← h, ← ColumnType.normalLength_effectiveLength, hlength]
  cases ht : c.type with
  | string => rfl
  | bytes => rfl
  | _ => rw [ht] at hlength; contradiction

namespace Table

theorem columnNames_toClause (t : Table) :
    (t.columns.map Column.toClause).map (·.name) = t.columnNames := by
  rw [List.map_map]
  rfl

/-- The statements of a table say all of it that is shown, if lengths stand where they are due and
the flags of its columns are those that its key and its indices give them. -/
theorem foldl_registerIndex_declared {t : Table} {key : List KeyPart}
    (hkey : key.map (·.name) = t.primaryKey)
    (hnormal : ∀ c ∈ t.columns, c.type.normalLength c.length = c.length)
    (hprimary : ∀ c ∈ t.columns, c.isPrimary = t.isKeyColumn c.name)
    (hunique : ∀ c ∈ t.columns, c.isUnique = t.indices.any (·.covers c.name))
    (huniques : t.uniques = (t.indices.filter (·.unique)).map Index.constraint) :
    t.indices.foldl registerIndex
      (declared t.name (t.columns.map Column.toClause) key t.interleave) = t.shown := by
  have hcolumns : t.columns.map (fun c ↦ { c.toClause.column with
      isPrimary := t.isKeyColumn c.name
      isUnique := t.indices.any (·.covers c.name) }) = t.columns.map Column.shown := by
    refine List.map_congr_left fun c hc ↦ ?_
    rw [Column.column_toClause (hnormal c hc), ← hprimary c hc, ← hunique c hc]
    rfl
  rw [Table.foldl_registerIndex, declared, hkey, shown, ← hcolumns, huniques]
  simp only [syncPrimary, List.map_map, Function.comp_def, List.nil_append]
  rfl

section

variable {t : Table} {key : List KeyPart} (h : t.Storable) (hkey : key.map (·.name) = t.primaryKey)

include h hkey

/-- Directions may be written with the key, since they are not kept. -/
theorem Storable.declarable :
    Declarable t.name (t.columns.map Column.toClause) key t.interleave := by
  have hmem : ∀ p ∈ key, p.name ∈ t.primaryKey := fun p hp ↦ hkey ▸ List.mem_map_of_mem hp
  constructor
  case legible => exact h.legible
  case closed =>
    intro c hc
    obtain ⟨d, hd, rfl⟩ := List.mem_map.1 hc
    exact h.closed d.name (List.mem_map_of_mem hd)
  case lengths =>
    intro c hc
    obtain ⟨d, hd, rfl⟩ := List.mem_map.1 hc
    change d.type.effectiveLength (d.type.effectiveLength d.length) ≠ some (.size 0)
    rw [ColumnType.effectiveLength_effectiveLength]
    exact h.lengths d hd
  case distinct => rw [columnNames_toClause]; exact h.distinct
  case listable => exact fun p hp ↦ h.listable p.name (hmem p hp)
  case declaresKey =>
    rw [columnNames_toClause]
    exact fun p hp ↦ h.declaresKey p.name (hmem p hp)
  case parents => exact h.parents

/-- What is declared with a table and registered with it afterwards is what its statements say. -/
theorem Storable.foldl_registerIndex :
    t.indices.foldl registerIndex
      (declared t.name (t.columns.map Column.toClause) key t.interleave) = t.shown :=
  foldl_registerIndex_declared hkey h.normal h.isPrimary h.isUnique h.uniques

theorem Storable.parse_createTable (ine : Bool) :
    Dump.parse ((Ddl.createTable t.name ine (t.columns.map Column.toClause) key
        t.interleave.toList).text :: t.indices.map Index.sql)
      = .ok ((∅ : Schema).insert t.name t.shown) := by
  rw [Dump.parse_declared (h.declarable hkey) ine h.readable h.named, h.foldl_registerIndex hkey]
  rw [columnNames_toClause]
  exact h.declaresIndexed

end

/-- A table that can be stored is written as statements that describe what is shown of it. -/
theorem Storable.parse_statements {t : Table} (h : t.Storable) :
    Dump.parse (t.toDdl.text :: t.indices.map Index.sql)
      = .ok ((∅ : Schema).insert t.name t.shown) :=
  h.parse_createTable (KeyPart.map_name_asc _) false

/-- What is shown of a table and decorated with its facts is the table. -/
theorem Storable.decorate_shown {t : Table} (h : t.Storable)
    (hdefaults : ∀ c ∈ t.columns, ∀ d ∈ c.defaultValue, d.Normal)
    (hforeign : t.foreignKeys = (t.interleave.map (Dump.parentKey t.name)).toList) :
    (Ledger.ofList t.facts).decorate t.shown false = .ok t := by
  have hnames : t.shown.columnNames = t.columnNames := by
    rw [columnNames, shown, List.map_map]
    rfl
  have hcolumns : ∀ c ∈ (Ledger.ofList t.facts).columns t.name, c ∈ t.shown.columnNames := by
    intro c hc
    obtain ⟨d, hd, rfl⟩ := Ledger.exists_of_mem_columns_ofColumn h.distinct _ _ _ hc
    rw [hnames]
    exact List.mem_map_of_mem hd
  have hmap : t.shown.columns.map ((Ledger.ofList t.facts).decorateColumn t.name) = t.columns := by
    rw [shown, List.map_map]
    refine (List.map_congr_left (g := id) fun c hc ↦ ?_).trans (List.map_id _)
    have hfacts := Ledger.get?_ofColumn h.distinct t.name (·.generation) (·.stated) hc
    have hstated := Column.stated_eq (hdefaults c hc)
    have hread : (c.stated.map fun d ↦ ColumnDefault.ofExpression d.factValue) = c.stated := by
      cases hd : c.stated with
      | none => rfl
      | some d => exact congrArg some (hdefaults c hc d (hstated ▸ hd))
    dsimp only [Function.comp_apply, id]
    rw [Ledger.decorateColumn_eq (l := Ledger.ofList t.facts) (c := c.shown) hfacts, hread]
    obtain ⟨name, type, nullable, length, isArray, isPrimary, isUnique, value, generation⟩ := c
    rw [hstated, Column.shown, hstated]
    dsimp only
    rw [Option.or_none]
    cases value <;> rfl
  have hdistinct : t.shown.columnNames.Nodup := hnames ▸ h.distinct
  rw [Ledger.decorate_eq hdistinct (Or.inr hcolumns)]
  change Except.ok { t.shown with
    columns := t.shown.columns.map ((Ledger.ofList t.facts).decorateColumn t.name) } = _
  rw [hmap, shown, ← hforeign]

end Table

/-! ## Well-formed tables -/

namespace Table

/-- The names of the table, its columns, its indices and the tables that they are interleaved
in. -/
def names (t : Table) : List String :=
  t.name :: (t.columnNames ++ t.indices.flatMap (fun i ↦ i.name :: i.interleaveIn.toList)
    ++ (t.interleave.map (·.parent)).toList)

/-- A table in which nothing contradicts the rest. -/
structure WellFormed (t : Table) : Prop where
  writable : ∀ n ∈ t.names, Writable n
  distinct : t.columnNames.Nodup
  declaresKey : ∀ n ∈ t.primaryKey, n ∈ t.columnNames
  named : ∀ i ∈ t.indices, i.table = t.name
  indexes : ∀ i ∈ t.indices, i.columns ≠ []
  declaresIndexed : ∀ i ∈ t.indices, ∀ n ∈ i.referenced, n ∈ t.columnNames
  isPrimary : ∀ c ∈ t.columns, c.isPrimary = t.isKeyColumn c.name
  isUnique : ∀ c ∈ t.columns, c.isUnique = t.indices.any (·.covers c.name)
  uniques : t.uniques = (t.indices.filter (·.unique)).map Index.constraint
  foreignKeys : t.foreignKeys = (t.interleave.map (Dump.parentKey t.name)).toList
  normal : ∀ c ∈ t.columns, c.type.normalLength c.length = c.length
  sized : ∀ c ∈ t.columns, c.length ≠ some (.size 0)
  timestamps : ∀ c ∈ t.columns, c.defaultValue = some .commitTimestamp → c.type = .timestamp
  expressions : ∀ c ∈ t.columns, ∀ e, c.defaultValue = some (.expression e) →
    ColumnDefault.ofExpression e = .expression e

variable {t : Table}

theorem WellFormed.normal_default (h : t.WellFormed) :
    ∀ c ∈ t.columns, ∀ d ∈ c.defaultValue, d.Normal := by
  intro c hc d hd
  cases d with
  | commitTimestamp => exact ColumnDefault.normal_commitTimestamp
  | expression e => exact h.expressions c hc e hd

theorem WellFormed.timed (h : t.WellFormed) : t.Timed := by
  intro c hc hstated
  rw [Column.stated_eq (h.normal_default c hc)] at hstated
  exact h.timestamps c hc hstated

theorem WellFormed.storable (h : t.WellFormed) : t.Storable := by
  have hcolumn : ∀ n ∈ t.columnNames, Listable n := fun n hn ↦
    (h.writable n (List.mem_cons_of_mem _ (List.mem_append_left _
      (List.mem_append_left _ hn)))).listable
  have hindex : ∀ i ∈ t.indices, ∀ n ∈ i.name :: i.interleaveIn.toList, Legible n :=
    fun i hi n hn ↦ (h.writable n (List.mem_cons_of_mem _ (List.mem_append_left _
      (List.mem_append_right _ (List.mem_flatMap.2 ⟨i, hi, hn⟩))))).listable.toLegible
  have htable : Legible t.name := (h.writable t.name List.mem_cons_self).listable.toLegible
  constructor
  case legible => exact htable
  case closed => exact fun n hn ↦ (hcolumn n hn).toClosed
  case distinct => exact h.distinct
  case normal => exact h.normal
  case lengths => exact fun c hc ↦ Column.hasLength_of_normal (h.normal c hc) (h.sized c hc)
  case listable => exact fun n hn ↦ hcolumn n (h.declaresKey n hn)
  case declaresKey => exact h.declaresKey
  case readable =>
    intro i hi
    constructor
    case name => exact hindex i hi i.name List.mem_cons_self
    case table => rw [h.named i hi]; exact htable
    case columns_ne_nil => exact h.indexes i hi
    case referenced => exact fun n hn ↦ hcolumn n (h.declaresIndexed i hi n hn)
    case interleaveIn =>
      exact fun p hp ↦ hindex i hi p (List.mem_cons_of_mem _ (Option.mem_toList.2 hp))
  case named => exact h.named
  case declaresIndexed => exact h.declaresIndexed
  case parents =>
    intro i hi
    refine (h.writable i.parent
      (List.mem_cons_of_mem _ (List.mem_append_right _ ?_))).listable.toLegible
    rw [Option.mem_toList, Option.mem_def.1 hi]
    rfl
  case isPrimary => exact h.isPrimary
  case isUnique => exact h.isUnique
  case uniques => exact h.uniques

/-- A well-formed table is written as statements and facts that describe it, and nothing else. -/
theorem WellFormed.round_trip (h : t.WellFormed) :
    ∃ l u, Statement.lowerAll t.statements = .ok l ∧
      Dump.parse l.sql = .ok ((∅ : Schema).insert t.name u) ∧
      ((∅ : Ledger).applyAll l.delta).decorate u false = .ok t := by
  refine ⟨_, t.shown, lowerAll_statements h.timed h.declaresKey h.indexes, ?_, ?_⟩
  · have hsql : (Lowered.mk (t.toDdl :: t.indices.map .createIndex) (t.facts.map .upsert)).sql
        = t.toDdl.text :: t.indices.map Index.sql := by
      rw [Lowered.sql, List.map_cons, List.map_map]
      rfl
    rw [hsql, h.storable.parse_statements]
  · rw [Ledger.applyAll_upserts]
    exact h.storable.decorate_shown h.normal_default h.foreignKeys

/-- A table with a reserved word for a name, a descending unique index that stores a column, a
parent, and columns of all kinds. -/
def visits : Table where
  name := "visits"
  columns :=
    [{ name := "id", type := .string, nullable := false, length := some (.size 36),
       isPrimary := true, generation := some .uuid },
      { name := "order", type := .int64, isUnique := true, generation := some (.custom "rank") },
      { name := "seen", type := .timestamp, isUnique := true,
        defaultValue := some .commitTimestamp },
      { name := "note", type := .string, length := some .max,
        defaultValue := some (.expression "'none'") },
      { name := "tags", type := .bytes, isArray := true }]
  primaryKey := ["id"]
  indices :=
    [{ name := "by order", table := "visits", columns := [⟨"order", .desc⟩, ⟨"seen", .asc⟩],
       unique := true, storing := ["note"] }]
  foreignKeys := [Dump.parentKey "visits" ⟨"people", true⟩]
  uniques := [⟨"by order", ["order", "seen"]⟩]
  interleave := some ⟨"people", true⟩

theorem visits_round_trip :
    ∃ l u, Statement.lowerAll visits.statements = .ok l ∧
      Dump.parse l.sql = .ok ((∅ : Schema).insert visits.name u) ∧
      ((∅ : Ledger).applyAll l.delta).decorate u false = .ok visits := by
  refine WellFormed.round_trip ?_
  constructor
  case expressions =>
    have hnormal : ∀ c ∈ visits.columns, ∀ d ∈ c.defaultValue, d.Normal := by decide
    exact fun c hc e he ↦ hnormal c hc (.expression e) he
  all_goals decide

end Table

end SchemaLedger
