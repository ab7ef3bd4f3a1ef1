import Mathlib
import SchemaLedger.Proofs.Lowering.Expressible

/-!
# Where clauses stand

Keys and indices may stand before the columns that they name, and between them: a declaration whose
definitions are put into another order is accepted if the declaration is, with the same statements
and the same delta, as long as the columns stay in their order and the indices in theirs.
-/

namespace SchemaLedger

namespace CreateTable

/-- The definitions stand in another order, but the columns among them and the indices among them do
not. -/
structure Rearranged (c c' : CreateTable) : Prop where
  table : c.table = c'.table
  ifNotExists : c.ifNotExists = c'.ifNotExists
  options : c.options = c'.options
  definitions : c.definitions.Perm c'.definitions
  columnDefs : c.columnDefs = c'.columnDefs
  indexDefs : c.indexDefs = c'.indexDefs

variable {c c' : CreateTable}

theorem Rearranged.symm (h : Rearranged c c') : Rearranged c' c :=
  ⟨h.table.symm, h.ifNotExists.symm, h.options.symm, h.definitions.symm, h.columnDefs.symm,
    h.indexDefs.symm⟩

/-- The same draft is gathered, since at most one clause declares the key. -/
theorem Rearranged.gathers (h : Rearranged c c') {d : TableDraft}
    (hd : d.Gathers c.table c.definitions) :
    d.Gathers c'.table c'.definitions := by
  have hclauses : c.keyClauses.Perm c'.keyClauses := h.definitions.filterMap _
  have hkey : c.keyClauses = c'.keyClauses := by
    have hone : c.keyClauses.length ≤ 1 := hd.keyClauses
    -- At most one clause cannot be put into another order.
    generalize c.keyClauses = clauses at hclauses hone ⊢
    rcases clauses with _ | ⟨clause, _ | ⟨second, others⟩⟩
    · exact (List.nil_perm.1 hclauses).symm
    · exact List.singleton_perm.1 hclauses
    · exact absurd hone (by simp)
  refine ⟨?_, ?_, ?_, ?_, ?_, fun x hx ↦ hd.unconstrained x (h.definitions.mem_iff.2 hx)⟩
  · rw [← columnDefs_eq, ← h.columnDefs, ← h.table]
    exact hd.columns
  · rw [← keyClauses_eq, ← hkey]
    exact hd.keyClause
  · rw [← indexDefs_eq, ← h.indexDefs]
    exact hd.indices
  · rw [← columnDefs_eq, ← h.columnDefs]
    exact hd.autoIncrement
  · rw [← keyClauses_eq, ← hkey]
    exact hd.keyClauses

theorem Rearranged.lower (h : Rearranged c c') {l : Lowered} (hl : c.lower = .ok l) :
    c'.lower = .ok l := by
  rw [CreateTable.lower] at hl ⊢
  obtain ⟨d, hdraft, hl⟩ := bind_eq_ok hl
  rw [draft_eq_ok_iff.2 (h.gathers (draft_eq_ok_iff.1 hdraft)), ← h.table, ← h.ifNotExists,
    ← h.options]
  exact hl

/-- Where a clause stands does not matter: the rearranged declaration is accepted if the declaration
is, with the same statements and the same delta. -/
theorem lowerInto_rearranged (h : Rearranged c c') (delta : Delta) (sql : List String)
    (delta' : Delta) :
    (Statement.createTable c).lowerInto delta = .ok sql delta' ↔
      (Statement.createTable c').lowerInto delta = .ok sql delta' := by
  have hforth {c c' : CreateTable} (h : Rearranged c c')
      (hc : (Statement.createTable c).lowerInto delta = .ok sql delta') :
      (Statement.createTable c').lowerInto delta = .ok sql delta' := by
    rw [Statement.lowerInto_eq, Statement.lower] at hc ⊢
    cases hl : c.lower with
    | error e =>
      rw [hl] at hc
      contradiction
    | ok l =>
      rw [hl] at hc
      rw [h.lower hl]
      exact hc
  exact ⟨hforth h, hforth h.symm⟩

/-- The declaration with its columns before everything else. -/
def columnsFirst (c : CreateTable) : CreateTable :=
  { c with definitions :=
      c.definitions.filter (·.column?.isSome) ++ c.definitions.filter (!·.column?.isSome) }

theorem rearranged_columnsFirst (c : CreateTable) : Rearranged c c.columnsFirst where
  table := rfl
  ifNotExists := rfl
  options := rfl
  definitions := (List.filter_append_perm _ _).symm
  columnDefs := by
    have hcolumns (x : Definition) : (if x.column?.isSome then x.column? else none) =
        x.column? := by
      cases x <;> rfl
    have hothers (x : Definition) : (if !x.column?.isSome then x.column? else none) = none := by
      cases x <;> rfl
    rw [columnDefs_eq, columnDefs_eq, columnsFirst, List.filterMap_append, List.filterMap_filter,
      List.filterMap_filter, funext hcolumns, funext hothers, List.filterMap_none, List.append_nil]
  indexDefs := by
    have hcolumns (x : Definition) : (if x.column?.isSome then x.index? else none) = none := by
      cases x <;> rfl
    have hothers (x : Definition) : (if !x.column?.isSome then x.index? else none) = x.index? := by
      cases x <;> rfl
    rw [indexDefs_eq, indexDefs_eq, columnsFirst, List.filterMap_append, List.filterMap_filter,
      List.filterMap_filter, funext hcolumns, funext hothers, List.filterMap_none, List.nil_append]

/-- The clauses of the invoices that stand between the columns may follow them. -/
theorem invoices_columnsFirst :
    ∃ sql delta, (Statement.createTable invoices).lowerInto [] = .ok sql delta ∧
      (Statement.createTable invoices.columnsFirst).lowerInto [] = .ok sql delta := by
  obtain ⟨l, hl⟩ := exists_lower_iff.2 (by decide +kernel : invoices.Expressible)
  have hinto : (Statement.createTable invoices).lowerInto [] = .ok l.sql ([] ++ l.delta) := by
    rw [Statement.lowerInto_eq, Statement.lower, hl]
  exact ⟨_, _, hinto, (lowerInto_rearranged (rearranged_columnsFirst _) _ _ _).1 hinto⟩

end CreateTable

end SchemaLedger
