import Mathlib
import SchemaLedger.Proofs.Database.Removal
import SchemaLedger.Proofs.Lowering.CreateTable

/-!
# Which tables a batch touches

The tables that statements touch are known before they are lowered. Nothing that comes of lowering
them is about any other table, the dropping of an index apart, which names no table at all.
-/

namespace SchemaLedger

theorem CreateTable.subjects_of_lower {c : CreateTable} {l : Lowered} (h : c.lower = .ok l) :
    ∀ d ∈ l.ddl, ∀ n ∈ d.subjects, n = c.table := by
  obtain ⟨t, columns, key, hmeant⟩ := exists_of_lower h
  have hindex : ∀ i ∈ c.declaredIndices, i.table = c.table := by
    intro i hi
    rw [declaredIndices] at hi
    rcases List.mem_append.1 hi with hi | hi
    · obtain ⟨n, -, rfl⟩ := List.mem_map.1 hi
      rfl
    · obtain ⟨j, -, rfl⟩ := List.mem_map.1 hi
      rfl
  intro d hd n hn
  rw [hmeant.ddl] at hd
  rcases List.mem_cons.1 hd with rfl | hd
  · exact List.mem_singleton.1 hn
  · obtain ⟨i, hi, rfl⟩ := List.mem_map.1 hd
    exact (List.mem_singleton.1 hn).trans (hindex i hi)

namespace AlterAction

theorem table_of_lower {table : String} {kind : IndexKind} {i : IndexDef} {j : Index}
    (h : i.lower table kind none none = .ok j) : ∀ k ∈ [j], k.table = table := by
  intro k hk
  rw [List.mem_singleton.1 hk, (IndexDef.of_lower h).1]

/-- What adding a column becomes. -/
theorem addColumn_eq_ok {table : String} {c : ColumnDef} {x : LoweredAction}
    (h : (addColumn c).lower table = .ok x) :
    ∃ column, c.lower table = .ok column ∧ x.ddl = [.addColumn table column.clause] ∧
      x.delta = (column.facts table).map .upsert ∧
      ∀ i ∈ x.indices, (IndexDef.on [c.name]).lower table .unique none none = .ok i := by
  rw [lower] at h
  split at h
  · contradiction
  · obtain ⟨column, hcolumn, h⟩ := bind_eq_ok h
    dsimp only at h
    split at h
    · obtain ⟨indices, hindices, h⟩ := bind_eq_ok h
      obtain ⟨j, hj, rfl⟩ := map_eq_ok hindices
      obtain rfl := Except.ok.inj h
      exact ⟨column, hcolumn, rfl, rfl, fun i hi ↦ List.mem_singleton.1 hi ▸ hj⟩
    · obtain rfl := Except.ok.inj h
      exact ⟨column, hcolumn, rfl, rfl, fun i hi ↦ absurd hi List.not_mem_nil⟩

/-- What changing a column becomes. -/
theorem changeColumn_eq_ok {table old : String} {c : ColumnDef} {x : LoweredAction}
    (h : (changeColumn old c).lower table = .ok x) :
    ∃ column, c.lower table = .ok column ∧
      x.ddl = .alterColumn table column.clause ::
        (if column.clause.commitTimestamp then [.allowCommitTimestamp table c.name] else []) ∧
      x.delta = .removeColumn table c.name :: (column.facts table).map .upsert ∧
      x.indices = [] := by
  rw [lower] at h
  split at h
  · contradiction
  · split at h
    · contradiction
    · obtain ⟨column, hcolumn, h⟩ := bind_eq_ok h
      obtain rfl := Except.ok.inj h
      exact ⟨column, hcolumn, rfl, rfl, rfl⟩

/-- All that a change becomes is about the table that is changed. -/
theorem subjects_of_lower {table : String} {a : AlterAction} {x : LoweredAction}
    (h : a.lower table = .ok x) :
    (∀ d ∈ x.ddl, ∀ n ∈ d.subjects, n = table) ∧ ∀ i ∈ x.indices, i.table = table := by
  cases a with
  | addColumn c =>
    obtain ⟨column, -, hddl, -, hindices⟩ := addColumn_eq_ok h
    refine ⟨fun d hd n hn ↦ ?_,
      fun i hi ↦ table_of_lower (hindices i hi) i (List.mem_singleton_self i)⟩
    rw [hddl] at hd
    obtain rfl := List.mem_singleton.1 hd
    exact List.mem_singleton.1 hn
  | dropColumn column =>
    obtain rfl := Except.ok.inj h
    refine ⟨fun d hd n hn ↦ ?_, fun i hi ↦ absurd hi List.not_mem_nil⟩
    obtain rfl := List.mem_singleton.1 hd
    exact List.mem_singleton.1 hn
  | changeColumn old c =>
    obtain ⟨column, -, hddl, -, hindices⟩ := changeColumn_eq_ok h
    refine ⟨fun d hd n hn ↦ ?_, fun i hi ↦ absurd (hindices ▸ hi) List.not_mem_nil⟩
    rw [hddl] at hd
    rcases List.mem_cons.1 hd with rfl | hd
    · exact List.mem_singleton.1 hn
    · split at hd
      · obtain rfl := List.mem_singleton.1 hd
        exact List.mem_singleton.1 hn
      · contradiction
  | addIndex i =>
    obtain ⟨j, hj, h⟩ := bind_eq_ok h
    obtain rfl := Except.ok.inj h
    exact ⟨fun d hd ↦ absurd hd List.not_mem_nil, table_of_lower hj⟩
  | addSpatialIndex i =>
    obtain ⟨j, hj, h⟩ := bind_eq_ok h
    obtain rfl := Except.ok.inj h
    exact ⟨fun d hd ↦ absurd hd List.not_mem_nil, table_of_lower hj⟩
  | addUniqueKey i =>
    obtain ⟨j, hj, h⟩ := bind_eq_ok h
    obtain rfl := Except.ok.inj h
    exact ⟨fun d hd ↦ absurd hd List.not_mem_nil, table_of_lower hj⟩
  | dropIndex name =>
    obtain rfl := Except.ok.inj h
    refine ⟨fun d hd n hn ↦ ?_, fun i hi ↦ absurd hi List.not_mem_nil⟩
    obtain rfl := List.mem_singleton.1 hd
    exact absurd hn List.not_mem_nil
  | addForeignKey key => contradiction
  | addPrimaryKey columns => contradiction

end AlterAction

theorem AlterTable.subjects_of_lower {a : AlterTable} {l : Lowered} (h : a.lower = .ok l) :
    ∀ d ∈ l.ddl, ∀ n ∈ d.subjects, n = a.table := by
  obtain ⟨actions, hactions, h⟩ := bind_eq_ok h
  obtain rfl := Except.ok.inj h
  intro d hd n hn
  rcases List.mem_append.1 hd with hd | hd
  · obtain ⟨x, hx, hd⟩ := List.mem_flatMap.1 hd
    obtain ⟨action, -, haction⟩ := exists_of_mem_mapM hactions hx
    exact (AlterAction.subjects_of_lower haction).1 d hd n hn
  · obtain ⟨i, hi, rfl⟩ := List.mem_map.1 hd
    obtain ⟨x, hx, hi⟩ := List.mem_flatMap.1 hi
    obtain ⟨action, -, haction⟩ := exists_of_mem_mapM hactions hx
    exact (List.mem_singleton.1 hn).trans ((AlterAction.subjects_of_lower haction).2 i hi)

namespace Statement

theorem mem_touched_of_lower {s : Statement} {l : Lowered} (h : s.lower = .ok l) :
    ∀ d ∈ l.ddl, ∀ n ∈ d.subjects, n ∈ s.touched := by
  cases s with
  | createTable c => exact fun d hd n hn ↦ List.mem_singleton.2 (c.subjects_of_lower h d hd n hn)
  | alterTable a => exact fun d hd n hn ↦ List.mem_singleton.2 (a.subjects_of_lower h d hd n hn)
  | createIndex c =>
    obtain ⟨i, hi, h⟩ := bind_eq_ok h
    obtain rfl := Except.ok.inj h
    intro d hd n hn
    obtain rfl := List.mem_singleton.1 hd
    rw [(IndexDef.of_lower hi).1] at hn
    exact hn
  | dropIndex name table =>
    obtain rfl := Except.ok.inj h
    intro d hd n hn
    obtain rfl := List.mem_singleton.1 hd
    exact absurd hn List.not_mem_nil
  | renameTable renames =>
    obtain rfl := Except.ok.inj h
    intro d hd n hn
    obtain ⟨r, hr, rfl⟩ := List.mem_map.1 hd
    exact List.mem_flatMap.2 ⟨r, hr, hn⟩
  | dropTable tables ifExists =>
    obtain rfl := Except.ok.inj h
    intro d hd n hn
    obtain ⟨t, ht, rfl⟩ := List.mem_map.1 hd
    exact List.mem_singleton.1 hn ▸ ht

/-- What a batch becomes is about the tables that it touches. -/
theorem exists_touched_of_lowerAll {statements : List Statement} {l : Lowered}
    (h : lowerAll statements = .ok l) :
    ∀ d ∈ l.ddl, ∀ n ∈ d.subjects, ∃ s ∈ statements, n ∈ s.touched := by
  obtain ⟨ls, hls, rfl⟩ := map_eq_ok h
  intro d hd n hn
  obtain ⟨x, hx, hd⟩ := List.mem_flatMap.1 hd
  obtain ⟨s, hs, hlower⟩ := exists_of_mem_mapM hls hx
  exact ⟨s, hs, mem_touched_of_lower hlower d hd n hn⟩

end Statement

end SchemaLedger
