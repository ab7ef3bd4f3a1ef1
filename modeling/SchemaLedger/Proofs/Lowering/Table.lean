import Mathlib
import SchemaLedger.Lowering
import SchemaLedger.Proofs.Column.Value
import SchemaLedger.Proofs.Failing

/-!
# Lowering the statements of a table

A stored table is written as one statement for itself and one for each of its indices. They lower
to the clauses of its columns, its key in ascending order, its indices as they are, and the facts
of its columns.
-/

namespace SchemaLedger

/-! ## Columns -/

theorem ColumnDefault.value?_toExpr (d : ColumnDefault) :
    d.toExpr.value? = some (ofExpression d.factValue) := by
  cases d with
  | expression text => rfl
  | commitTimestamp => decide

/-- The name of a type declares the type and implies no length. -/
theorem DataType.resolve?_text (t : ColumnType) (length : Option ColumnLength) (array : Bool) :
    resolve? ⟨t.text, length, array⟩ = some (t, t.effectiveLength length) := by
  have hfamily : (families.find? fun f ↦ f.1.contains (Text.trim t.text).toLower).map Prod.snd
      = some (t, none) := by
    cases t <;> decide +kernel
  obtain ⟨⟨names, u, implied⟩, hfind, he⟩ := Option.map_eq_some_iff.1 hfamily
  obtain ⟨rfl, rfl⟩ := Prod.mk.inj he
  unfold resolve?
  dsimp only
  rw [hfind, Option.map_some, Option.or_none]

namespace Column

/-- The default that the declaration of a column means. -/
def stated (c : Column) : Option ColumnDefault :=
  c.defaultValue.map fun d ↦ ColumnDefault.ofExpression d.factValue

/-- The clause that writes a column. -/
def toClause (c : Column) : ColumnClause where
  name := c.name
  type := c.type
  length := c.type.effectiveLength c.length
  array := c.isArray
  notNull := !c.nullable
  commitTimestamp := c.stated == some .commitTimestamp

theorem stated_eq {c : Column} (h : ∀ d ∈ c.defaultValue, d.Normal) :
    c.stated = c.defaultValue := by
  rw [stated]
  cases hd : c.defaultValue with
  | none => rfl
  | some d => exact congrArg some (h d hd)

theorem resolveDefault_toDef (c : Column) : c.toDef.resolveDefault = c.stated := by
  rw [ColumnDef.resolveDefault, toDef, stated]
  dsimp only
  cases c.defaultValue with
  | none => rfl
  | some d => exact d.value?_toExpr

theorem resolveGeneration_toDef (c : Column) : c.toDef.resolveGeneration = c.generation := by
  rw [ColumnDef.resolveGeneration, toDef]
  exact Option.or_none

/-- Only timestamps can be declared to hold the commit timestamp. -/
theorem lower_toDef (table : String) (c : Column) :
    c.toDef.lower table =
      if c.stated = some .commitTimestamp ∧ c.type ≠ .timestamp then
        .error (.unsupported .commitTimestamp (some ⟨table, some c.name, none⟩))
      else .ok ⟨c.toDef, c.toClause, c.stated⟩ := by
  have hresolve : c.toDef.dataType.resolve? = some (c.type, c.type.effectiveLength c.length) :=
    DataType.resolve?_text _ _ _
  unfold ColumnDef.lower
  dsimp only
  rw [hresolve, resolveDefault_toDef]
  dsimp only
  by_cases h : c.stated = some .commitTimestamp <;> by_cases ht : c.type = .timestamp <;>
    simp [h, ht, toDef, toClause]

end Column

/-! ## Tables -/

theorem KeyPart.map_name_asc (names : List String) :
    (names.map fun c ↦ (⟨c, .asc⟩ : KeyPart)).map (·.name) = names := by
  rw [List.map_map]
  exact List.map_id _

/-- Commit timestamps are kept in columns of timestamps only. -/
def Table.Timed (t : Table) : Prop :=
  ∀ c ∈ t.columns, c.stated = some .commitTimestamp → c.type = .timestamp

namespace TableDraft

theorem foldlM_columns {table : String} {cs : List Column}
    (h : ∀ c ∈ cs, c.stated = some .commitTimestamp → c.type = .timestamp) (d : TableDraft) :
    (cs.map fun c ↦ Definition.column c.toDef).foldlM (add table) d
      = .ok { d with columns := d.columns ++ cs.map fun c ↦ ⟨c.toDef, c.toClause, c.stated⟩ } := by
  induction cs generalizing d with
  | nil => rw [List.map_nil, List.map_nil, List.append_nil]; rfl
  | cons c cs ih =>
    have hlower : c.toDef.lower table = .ok ⟨c.toDef, c.toClause, c.stated⟩ := by
      rw [Column.lower_toDef, if_neg fun e ↦ e.2 (h c List.mem_cons_self e.1)]
    have hstep : d.add table (.column c.toDef)
        = .ok { d with columns := d.columns ++ [⟨c.toDef, c.toClause, c.stated⟩] } := by
      have hauto : c.toDef.autoIncrement = false := rfl
      rw [add, hauto, if_neg Bool.false_ne_true, hlower]
      rfl
    rw [List.map_cons, List.foldlM_cons, hstep]
    dsimp only [bind, Except.bind]
    rw [ih fun e he ↦ h e (List.mem_cons_of_mem c he)]
    simp only [List.map_cons, List.append_assoc, List.singleton_append]

end TableDraft

namespace Table

/-- The facts of the columns. -/
def facts (t : Table) : List Fact :=
  t.columns.flatMap fun c ↦ Fact.ofColumn t.name c.name c.generation c.stated

/-- The statement that writes a table. -/
def toDdl (t : Table) : Ddl :=
  .createTable t.name false (t.columns.map Column.toClause) (t.primaryKey.map fun c ↦ ⟨c, .asc⟩)
    t.interleave.toList

/-- What is gathered from the statement of a table. -/
def toDraft (t : Table) : TableDraft where
  columns := t.columns.map fun c ↦ ⟨c.toDef, c.toClause, c.stated⟩
  keyClause := some (t.primaryKey.map fun c ↦ ⟨c, .asc⟩)

theorem draft_toCreate {t : Table} (h : t.Timed) : t.toCreate.draft = .ok t.toDraft := by
  rw [CreateTable.draft, toCreate, List.foldlM_append, TableDraft.foldlM_columns h]
  rfl

theorem declared_toDraft (t : Table) : t.toDraft.declared = t.columnNames := by
  rw [TableDraft.declared, toDraft, List.map_map]
  rfl

theorem inlineKey_toDraft (t : Table) : t.toDraft.inlineKey = [] := by
  rw [TableDraft.inlineKey, toDraft, List.map_eq_nil_iff, List.filter_eq_nil_iff]
  intro c hc
  obtain ⟨c, -, rfl⟩ := List.mem_map.1 hc
  exact Bool.false_ne_true

theorem uniqueColumns_toDraft (t : Table) : t.toDraft.uniqueColumns = [] := by
  rw [TableDraft.uniqueColumns, toDraft, List.map_eq_nil_iff, List.filter_eq_nil_iff]
  intro c hc
  obtain ⟨c, -, rfl⟩ := List.mem_map.1 hc
  exact Bool.false_ne_true

theorem key_toDraft {t : Table} (h : ∀ c ∈ t.primaryKey, c ∈ t.columnNames) :
    t.toDraft.key t.name = .ok (t.primaryKey.map fun c ↦ ⟨c, .asc⟩) := by
  have hfind : (t.primaryKey.map fun c ↦ (⟨c, .asc⟩ : KeyPart)).find?
      (!t.toDraft.declared.contains ·.name) = none := by
    rw [List.find?_eq_none, declared_toDraft]
    intro p hp
    obtain ⟨c, hc, rfl⟩ := List.mem_map.1 hp
    simp [h c hc]
  rw [TableDraft.key, inlineKey_toDraft]
  simp only [ok_bind]
  rw [show t.toDraft.keyClause.getD [] = t.primaryKey.map fun c ↦ (⟨c, .asc⟩ : KeyPart) from rfl,
    hfind]

theorem lowerIndices_toDraft (t : Table) : t.toDraft.lowerIndices t.name = .ok [] := by
  rw [TableDraft.lowerIndices, uniqueColumns_toDraft]
  rfl

theorem lower_toCreate {t : Table} (htimed : t.Timed)
    (hkey : ∀ c ∈ t.primaryKey, c ∈ t.columnNames) :
    t.toCreate.lower = .ok ⟨[t.toDdl], t.facts.map .upsert⟩ := by
  have hclauses : t.toDraft.columns.map (·.clause) = t.columns.map Column.toClause := by
    rw [toDraft, List.map_map]
    rfl
  have hfacts : t.toDraft.columns.flatMap (LoweredColumn.facts t.name) = t.facts := by
    rw [toDraft, List.flatMap_map, facts]
    simp only [LoweredColumn.facts, Column.resolveGeneration_toDef]
    rfl
  have hparents : TableOption.interleaves t.toCreate.options = t.interleave.toList := by
    rw [TableOption.interleaves, toCreate]
    cases t.interleave <;> rfl
  have hname : t.toCreate.table = t.name := rfl
  rw [CreateTable.lower, draft_toCreate htimed]
  dsimp only [bind, Except.bind]
  rw [hname, key_toDraft hkey]
  dsimp only
  rw [lowerIndices_toDraft]
  dsimp only
  rw [hclauses, hfacts, hparents]
  rfl

theorem lower_toIndex {i : Index} (h : i.columns ≠ []) :
    (Statement.createIndex i.toCreate).lower = .ok ⟨[.createIndex i], []⟩ := by
  have hkind : (i.toCreate.kind == .unique) = i.unique := by
    rw [Index.toCreate]
    cases i.unique <;> rfl
  have hlower : i.toCreate.index.lower i.table i.toCreate.kind i.interleaveIn none = .ok i := by
    have hempty : i.toCreate.index.columns.isEmpty = false := by
      simpa [Index.toCreate] using h
    rw [IndexDef.lower, hempty, hkind]
    rfl
  rw [Statement.lower]
  change (do let j ← i.toCreate.index.lower i.table i.toCreate.kind i.interleaveIn none; _) = _
  rw [hlower]
  rfl

/-- A table is written as itself and its indices. -/
theorem lowerAll_statements {t : Table} (htimed : t.Timed)
    (hkey : ∀ c ∈ t.primaryKey, c ∈ t.columnNames) (hindices : ∀ i ∈ t.indices, i.columns ≠ []) :
    Statement.lowerAll t.statements
      = .ok ⟨t.toDdl :: t.indices.map .createIndex, t.facts.map .upsert⟩ := by
  have hrest : (t.indices.map fun i ↦ Statement.createIndex i.toCreate).mapM Statement.lower
      = .ok (t.indices.map fun i ↦ ⟨[.createIndex i], []⟩) :=
    mapM_ok fun i hi ↦ lower_toIndex (hindices i hi)
  have hddl : (t.indices.map fun i ↦ (⟨[.createIndex i], []⟩ : Lowered)).flatMap (·.ddl)
      = t.indices.map .createIndex := by
    rw [List.flatMap_map]
    exact List.map_eq_flatMap.symm
  have hdelta : (t.indices.map fun i ↦ (⟨[.createIndex i], []⟩ : Lowered)).flatMap (·.delta)
      = [] := by
    rw [List.flatMap_map, List.flatMap_eq_nil_iff]
    exact fun _ _ ↦ rfl
  rw [Statement.lowerAll, statements, List.mapM_cons, Statement.lower, lower_toCreate htimed hkey,
    hrest]
  change Except.ok (Lowered.join (⟨[t.toDdl], t.facts.map .upsert⟩
    :: t.indices.map fun i ↦ ⟨[.createIndex i], []⟩)) = _
  rw [Lowered.join, List.flatMap_cons, List.flatMap_cons, hddl, hdelta, List.append_nil]
  rfl

end Table

end SchemaLedger
