import Mathlib
import SchemaLedger.Proofs.Lowering.CreateTable

/-!
# Declarations that can be expressed

A declaration is accepted exactly if it can be expressed: `CreateTable.Expressible` says so of the
definitions as a whole, without an order in which they are looked at. What cannot be expressed is
refused for a reason that the declaration bears out, and the delta at hand stays as it is.
-/

namespace SchemaLedger

theorem Statement.lowerInto_eq (s : Statement) (delta : Delta) :
    s.lowerInto delta = match s.lower with
      | .ok l => .ok l.sql (delta ++ l.delta)
      | .error e => .error e delta := by
  rw [lowerInto]
  cases s.lower <;> rfl

theorem Statement.lowerInto_of_lower {s : Statement} {sql : List String} {new : Delta}
    (h : s.lower.toOption.map (fun l ↦ (l.sql, l.delta)) = some (sql, new)) (delta : Delta) :
    s.lowerInto delta = .ok sql (delta ++ new) := by
  obtain ⟨l, hl, hpair⟩ := Option.map_eq_some_iff.1 h
  obtain ⟨rfl, rfl⟩ := Prod.mk.inj hpair
  rw [lowerInto_eq, eq_ok_of_toOption hl]

/-! ## What a declaration has to meet -/

namespace CreateTable

/-- The names of the declared columns. -/
def declared (c : CreateTable) : List String := c.columnDefs.map (·.name)

/-- The columns to which key clauses and indices refer. -/
def referenced (c : CreateTable) : List String :=
  c.keyClauses.flatMap (·.map (·.name)) ++ c.indexDefs.flatMap (·.2.referenced)

/-- The database has what the declaration asks for: neither foreign keys nor checks, at most one
column that is counted up, a key that is stated once or twice alike, columns that can be expressed,
and indices of columns. All columns that keys and indices refer to are declared, wherever in the
body. -/
@[mk_iff]
structure Expressible (c : CreateTable) : Prop where
  unconstrained : ∀ x ∈ c.definitions, x.isConstraint = false
  autoIncrement : (c.columnDefs.filter (·.autoIncrement)).length ≤ 1
  keyClauses : c.keyClauses.length ≤ 1
  inlineKeys : (c.columnDefs.filter (·.primaryKey)).length ≤ 1
  agreeing : ∀ d ∈ c.columnDefs, d.primaryKey = true →
    ∀ clause ∈ c.keyClauses, clause.map (·.name) = [d.name]
  columns : ∀ d ∈ c.columnDefs, d.Expressible
  indices : ∀ i ∈ c.indexDefs, i.2.columns ≠ []
  declares : ∀ n ∈ c.referenced, n ∈ c.declared

end CreateTable

instance : DecidablePred CreateTable.Expressible :=
  fun c ↦ decidable_of_iff _ c.expressible_iff.symm

/-! ## When a declaration is lowered -/

namespace CreateTable

variable {c : CreateTable} {d : TableDraft} {e : SchemaError}

section Gathers

variable (h : d.Gathers c.table c.definitions)

include h

theorem toList_keyClause : d.keyClause.toList = c.keyClauses := by
  have hone := h.keyClauses
  rw [h.keyClause, keyClauses_eq]
  generalize c.definitions.filterMap Definition.keyClause? = clauses at hone ⊢
  rcases clauses with _ | ⟨first, _ | ⟨second, others⟩⟩
  · rfl
  · rfl
  · exact absurd hone (by simp)

theorem mem_keyClause_iff {clause : List KeyPart} :
    clause ∈ d.keyClause ↔ clause ∈ c.keyClauses := by
  rw [← toList_keyClause h, Option.mem_toList, Option.mem_def]

/-- Once the body has been gathered, the key and the indices decide. -/
theorem expressible_iff_of_gathers :
    c.Expressible ↔
      (∃ key, d.key c.table = .ok key) ∧ ∃ indices, d.lowerIndices c.table = .ok indices := by
  have hcolumns : ∀ d ∈ c.columnDefs, d.Expressible := by
    intro d hd
    obtain ⟨x, -, hx⟩ := exists_of_mapM h.columns hd
    exact (ColumnDef.exists_lower_iff _).1 ⟨x, hx⟩
  have hagreeing : (∀ n ∈ (c.columnDefs.filter (·.primaryKey)).map (·.name),
      ∀ clause ∈ c.keyClauses, clause.map (·.name) = [n]) ↔
        ∀ d ∈ c.columnDefs, d.primaryKey = true →
          ∀ clause ∈ c.keyClauses, clause.map (·.name) = [d.name] := by
    simp only [List.forall_mem_map, List.mem_filter, and_imp]
  have hdeclares : (∀ n ∈ c.referenced, n ∈ c.declared) ↔
      (∀ clause ∈ c.keyClauses, ∀ n ∈ clause.map (·.name), n ∈ c.declared) ∧
        ∀ i ∈ c.indexDefs, ∀ n ∈ i.2.referenced, n ∈ c.declared := by
    rw [referenced, List.forall_mem_append, List.forall_mem_flatMap, List.forall_mem_flatMap]
  rw [TableDraft.exists_key_iff, TableDraft.exists_lowerIndices_iff, h.declared_eq, h.inlineKey_eq,
    h.indices, ← columnDefs_eq, ← indexDefs_eq, List.length_map]
  simp only [mem_keyClause_iff h]
  rw [hagreeing]
  constructor
  · intro hc
    obtain ⟨hkey, hindices⟩ := hdeclares.1 hc.declares
    exact ⟨⟨hc.inlineKeys, hc.agreeing, hkey⟩, fun i hi ↦ ⟨hc.indices i hi, hindices i hi⟩⟩
  · rintro ⟨⟨hinline, hagree, hkey⟩, hindices⟩
    exact ⟨h.unconstrained, h.autoIncrement, h.keyClauses, hinline, hagree, hcolumns,
      fun i hi ↦ (hindices i hi).1, hdeclares.2 ⟨hkey, fun i hi ↦ (hindices i hi).2⟩⟩

end Gathers

/-- A body whose definitions can be expressed is gathered. -/
theorem Expressible.exists_gathers (h : c.Expressible) :
    ∃ d, TableDraft.Gathers c.table c.definitions d := by
  obtain ⟨columns, hcolumns⟩ := exists_mapM fun d hd ↦
    (ColumnDef.exists_lower_iff c.table).2 (h.columns d hd)
  exact ⟨⟨columns, _, _⟩, hcolumns, rfl, rfl, h.autoIncrement, h.keyClauses, h.unconstrained⟩

/-- A declaration is lowered exactly if it can be expressed. -/
theorem exists_lower_iff : (∃ l, c.lower = .ok l) ↔ c.Expressible := by
  constructor
  · rintro ⟨l, h⟩
    rw [lower] at h
    obtain ⟨d, hdraft, h⟩ := bind_eq_ok h
    obtain ⟨key, hkey, h⟩ := bind_eq_ok h
    obtain ⟨indices, hindices, -⟩ := bind_eq_ok h
    exact (expressible_iff_of_gathers (draft_eq_ok_iff.1 hdraft)).2 ⟨⟨key, hkey⟩, indices, hindices⟩
  · intro h
    -- The definitions alone say what the draft is, so it is there before the key and the indices
    -- are asked for.
    obtain ⟨d, hd⟩ := h.exists_gathers
    obtain ⟨⟨key, hkey⟩, indices, hindices⟩ := (expressible_iff_of_gathers hd).1 h
    rw [lower, draft_eq_ok_iff.2 hd, ok_bind, hkey, ok_bind, hindices]
    exact ⟨_, rfl⟩

example : invoices.Expressible := by decide +kernel

/-- A declaration is refused for a reason that it bears out. -/
theorem objection_of_lower (h : c.lower = .error e) :
    Objection c.table c.referenced c.declared e := by
  rw [lower] at h
  rcases bind_eq_error h with hdraft | ⟨d, hdraft, h⟩
  · obtain ⟨d, x, -, hx⟩ := exists_of_foldlM_error hdraft
    exact TableDraft.objection_of_add hx
  · have hd := draft_eq_ok_iff.1 hdraft
    rw [declared, columnDefs_eq, ← hd.declared_eq, referenced]
    rcases bind_eq_error h with hkey | ⟨key, -, h⟩
    · rw [← toList_keyClause hd]
      exact (TableDraft.objection_of_key hkey).mono (List.subset_append_left _ _)
    · rcases bind_eq_error h with hindices | ⟨indices, -, h⟩
      · rw [indexDefs_eq, ← hd.indices]
        exact (TableDraft.objection_of_lowerIndices hindices).mono (List.subset_append_right _ _)
      · contradiction

/-- A declaration is accepted exactly if it can be expressed. If it is refused then the delta at
hand stays, and the declaration asks for what the database does not have or refers to a column that
it does not declare. -/
theorem accepted_iff_expressible (c : CreateTable) (delta : Delta) :
    ((∃ sql delta', (Statement.createTable c).lowerInto delta = .ok sql delta') ↔ c.Expressible) ∧
      (¬c.Expressible → ∃ e, (Statement.createTable c).lowerInto delta = .error e delta ∧
        Objection c.table c.referenced c.declared e) := by
  rw [Statement.lowerInto_eq, ← exists_lower_iff, Statement.lower]
  cases h : c.lower with
  | ok l => simp
  | error e => simpa using objection_of_lower h

end CreateTable

end SchemaLedger
