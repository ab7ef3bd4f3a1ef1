import Mathlib
import SchemaLedger.Proofs.Failing
import SchemaLedger.Proofs.Identifier.Derived
import SchemaLedger.Proofs.RoundTrip

/-!
# The meaning of a table declaration

`meaning?` says, without going through any text, what table a declaration asks for: its columns in
the order of their declarations, the key that a column or a clause gives, an index for each unique
column before the declared ones, and the parent. What a column and an index of a declaration are
lowered to is what they ask for.
-/

namespace SchemaLedger

open Identifier

/-! ## What is declared -/

namespace CreateTable

/-- The declared columns. -/
def columnDefs (c : CreateTable) : List ColumnDef :=
  c.definitions.filterMap fun
    | .column d => some d
    | _ => none

/-- The clauses that declare a key. -/
def keyClauses (c : CreateTable) : List (List KeyPart) :=
  c.definitions.filterMap fun
    | .primaryKey parts => some parts
    | _ => none

/-- The declared indices. -/
def indexDefs (c : CreateTable) : List (IndexKind × IndexDef) :=
  c.definitions.filterMap fun
    | .index kind i => some (kind, i)
    | _ => none

/-- The key: the columns that declare themselves to be it, or else what the clause names. -/
def keyNames (c : CreateTable) : List String :=
  let own := (c.columnDefs.filter (·.primaryKey)).map (·.name)
  if own.isEmpty then (c.keyClauses.head?.getD []).map (·.name) else own

/-- The indices: one for each unique column that is not the key, then the declared ones. -/
def declaredIndices (c : CreateTable) : List Index :=
  (c.columnDefs.filter fun d ↦ d.unique && !d.primaryKey).map
      (fun d ↦
        { name := indexName c.table [d.name] true
          table := c.table
          columns := [⟨d.name, .asc⟩]
          unique := true }) ++
    c.indexDefs.map fun (kind, i) ↦
      { name := i.name.getD (indexName c.table (i.columns.map (·.name)) (kind == .unique))
        table := c.table
        columns := i.columns
        unique := kind == .unique
        nullFiltered := i.nullFiltered
        storing := i.storing }

end CreateTable

/-- The column that a declaration asks for, if its type is known. -/
def ColumnDef.meaning? (d : ColumnDef) : Option Column :=
  d.dataType.resolve?.map fun (type, length) ↦
    { name := d.name
      type
      nullable := !(d.notNull || d.primaryKey)
      length := type.normalLength length
      isArray := d.dataType.array
      defaultValue := d.resolveDefault
      generation := d.resolveGeneration }

/-- The table that a declaration asks for, if all its types are known. -/
def CreateTable.meaning? (c : CreateTable) : Option Table :=
  (c.columnDefs.mapM ColumnDef.meaning?).map fun columns ↦
    { name := c.table
      columns := columns.map fun d ↦
        { d with
          isPrimary := c.keyNames.contains d.name
          isUnique := c.declaredIndices.any (·.covers d.name) }
      primaryKey := c.keyNames
      indices := c.declaredIndices
      foreignKeys := ((TableOption.interleaves c.options).head?.map
        (Dump.parentKey c.table)).toList
      uniques := (c.declaredIndices.filter (·.unique)).map Index.constraint
      interleave := (TableOption.interleaves c.options).head? }

/-! ## Lowering columns and indices -/

/-- The column that a lowered column is written as and that its facts describe. -/
def LoweredColumn.column (x : LoweredColumn) : Column where
  name := x.source.name
  type := x.clause.type
  nullable := !x.clause.notNull
  length := x.clause.type.normalLength x.clause.length
  isArray := x.clause.array
  defaultValue := x.defaultValue
  generation := x.source.resolveGeneration

/-- What is known of a lowered column. -/
structure LoweredColumn.Meant (x : LoweredColumn) : Prop where
  meaning : x.source.meaning? = some x.column
  timed : x.defaultValue = some .commitTimestamp → x.clause.type = .timestamp
  onUpdate : ∀ d ∈ x.source.onUpdate.bind DefaultExpr.value?, d = .commitTimestamp
  clause : x.clause =
    { x.column.toClause with commitTimestamp := x.defaultValue == some .commitTimestamp }

theorem LoweredColumn.Meant.resolveDefault_eq {x : LoweredColumn} (h : x.Meant) :
    x.source.resolveDefault = x.defaultValue := by
  obtain ⟨⟨type, length⟩, -, hm⟩ := Option.map_eq_some_iff.1 h.meaning
  exact congrArg Column.defaultValue hm

/-- A column that is lowered is written as the column that it asks for. -/
theorem ColumnDef.of_lower {table : String} {d : ColumnDef} {x : LoweredColumn}
    (h : d.lower table = .ok x) : x.source = d ∧ x.Meant := by
  unfold lower at h
  dsimp only at h
  split at h
  · contradiction
  · rename_i type length hresolve
    split at h
    · contradiction
    · rename_i hupdate
      split at h
      · contradiction
      · rename_i htime
        obtain rfl := Except.ok.inj h
        have hlength : type.effectiveLength (type.normalLength length) = length := by
          rw [ColumnType.effectiveLength_normalLength]
          rw [DataType.resolve?] at hresolve
          obtain ⟨⟨names, u, implied⟩, -, he⟩ := Option.map_eq_some_iff.1 hresolve
          obtain ⟨rfl, rfl⟩ := Prod.mk.inj he
          exact ColumnType.effectiveLength_effectiveLength _ _
        refine ⟨rfl, ?_, fun hct ↦ ?_, fun v hv ↦ ?_, ?_⟩
        · rw [meaning?, hresolve]
          rfl
        · refine Classical.byContradiction fun hne ↦ htime ?_
          rw [Bool.and_eq_true, beq_iff_eq, bne_iff_ne]
          exact ⟨hct, hne⟩
        · refine Classical.byContradiction fun hne ↦ hupdate ?_
          rw [Option.mem_def.1 hv, Bool.and_eq_true, bne_iff_ne]
          exact ⟨rfl, fun e ↦ hne (Option.some.inj e)⟩
        · unfold Column.toClause LoweredColumn.column
          dsimp only
          rw [hlength, Bool.not_not]

namespace IndexDef

/-- An index that is lowered inside a table refers to declared columns. -/
theorem of_lower {table : String} {kind : IndexKind} {parent : Option String}
    {declared : Option (List String)} {i : IndexDef} {index : Index}
    (h : i.lower table kind parent declared = .ok index) :
    index = ⟨i.nameIn table (kind == .unique), table, i.columns, kind == .unique, i.nullFiltered,
      i.storing, parent⟩ ∧ index.columns ≠ [] ∧
        ∀ names ∈ declared, ∀ n ∈ index.referenced, n ∈ names := by
  unfold lower at h
  dsimp only at h
  split at h
  · contradiction
  · rename_i hne
    split at h
    · contradiction
    · rename_i hfind
      obtain rfl := Except.ok.inj h
      refine ⟨rfl, by simpa using hne, fun names hnames n hn ↦ ?_⟩
      rw [Option.mem_def.1 hnames, Option.bind_some] at hfind
      simpa using List.find?_eq_none.1 hfind n hn

end IndexDef

end SchemaLedger
