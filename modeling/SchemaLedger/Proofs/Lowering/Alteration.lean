import Mathlib
import SchemaLedger.Proofs.Lowering.Mirror

/-!
# Changes to tables that are lowered

Each change of a table is lowered by itself, so the changes of a statement can be expressed together
exactly if each of them can. What they become stands in the order of the changes, and the indices
that they ask for stand behind it.
-/

namespace SchemaLedger

theorem Objection.exists_unsupported {table : String} {declared : List String} {e : SchemaError}
    (h : Objection table [] declared e) : ∃ what place, e = .unsupported what place := by
  cases h with
  | unsupported what place => exact ⟨what, place, rfl⟩
  | dangling hreferenced => contradiction

/-! ## Indices -/

namespace IndexDef

/-- The index that a definition asks for. -/
def declared (table : String) (kind : IndexKind) (i : IndexDef) : Index where
  name := i.nameIn table (kind == .unique)
  table := table
  columns := i.columns
  unique := kind == .unique
  nullFiltered := i.nullFiltered
  storing := i.storing

theorem eq_of_lower {table : String} {kind : IndexKind} {i : IndexDef} {j : Index}
    (h : i.lower table kind none none = .ok j) : j = i.declared table kind :=
  (of_lower h).1

/-- Without a table to look its columns up in, an index needs columns and nothing else. -/
theorem lower_eq (table : String) (kind : IndexKind) (i : IndexDef) :
    i.lower table kind none none =
      if i.columns.isEmpty then
        .error (.unsupported .emptyIndex
          (some ⟨table, none, some (i.nameIn table (kind == .unique))⟩))
      else .ok (i.declared table kind) :=
  rfl

end IndexDef

/-! ## Single changes -/

namespace AlterAction

/-- The column that is added. -/
def added? : AlterAction → Option ColumnDef
  | addColumn c => some c
  | _ => none

/-- The column that is changed. -/
def changed? : AlterAction → Option ColumnDef
  | changeColumn _ c => some c
  | _ => none

/-- The indices that a change asks for. -/
def indices (table : String) : AlterAction → List Index
  | addColumn c => if c.unique then [(IndexDef.on [c.name]).declared table .unique] else []
  | addIndex i => [i.declared table .plain]
  | addSpatialIndex i => [i.declared table .spatial]
  | addUniqueKey i => [i.declared table .unique]
  | _ => []

theorem indices_of_lower {table : String} {a : AlterAction} {x : LoweredAction}
    (h : a.lower table = .ok x) :
    x.indices = a.indices table := by
  cases a with
  | addColumn c =>
    rw [lower] at h
    split at h
    · contradiction
    · obtain ⟨column, -, h⟩ := bind_eq_ok h
      dsimp only at h
      rw [indices]
      split at h
      · obtain ⟨is, his, h⟩ := bind_eq_ok h
        obtain ⟨i, hi, rfl⟩ := map_eq_ok his
        obtain rfl := Except.ok.inj h
        rw [if_pos ‹_›, ← IndexDef.eq_of_lower hi]
        rfl
      · obtain rfl := Except.ok.inj h
        rw [if_neg ‹_›]
  | changeColumn old c =>
    obtain ⟨-, -, -, -, hindices⟩ := changeColumn_eq_ok h
    exact hindices
  | addIndex i | addSpatialIndex i | addUniqueKey i =>
    obtain ⟨j, hj, h⟩ := bind_eq_ok h
    obtain rfl := Except.ok.inj h
    exact congrArg (fun k ↦ [k]) (IndexDef.eq_of_lower hj)
  | dropColumn column =>
    obtain rfl := Except.ok.inj h
    rfl
  | dropIndex name =>
    obtain rfl := Except.ok.inj h
    rfl
  | addForeignKey key => contradiction
  | addPrimaryKey columns => contradiction

theorem indices_of_mapM_lower {table : String} {as : List AlterAction} {xs : List LoweredAction}
    (h : as.mapM (lower table) = .ok xs) : xs.flatMap (·.indices) = as.flatMap (indices table) := by
  induction as generalizing xs with
  | nil =>
    obtain rfl := Except.ok.inj h
    rfl
  | cons a as ih =>
    obtain ⟨x, xs, hx, hxs, rfl⟩ := mapM_cons_eq_ok h
    rw [List.flatMap_cons, List.flatMap_cons, ih hxs, indices_of_lower hx]

/-- The database has what the change asks for: no key and no foreign key is put to a table that is
there, no column gets another name, columns can be expressed, and indices have columns. -/
def Expressible : AlterAction → Prop
  | addColumn c => c.primaryKey = false ∧ c.Expressible
  | changeColumn old c => old = c.name ∧ c.primaryKey = false ∧ c.Expressible
  | addIndex i | addSpatialIndex i | addUniqueKey i => i.columns ≠ []
  | dropColumn _ | dropIndex _ => True
  | addForeignKey _ | addPrimaryKey _ => False

instance : DecidablePred Expressible
  | addColumn c => inferInstanceAs (Decidable (c.primaryKey = false ∧ c.Expressible))
  | changeColumn old c =>
    inferInstanceAs (Decidable (old = c.name ∧ c.primaryKey = false ∧ c.Expressible))
  | addIndex i | addSpatialIndex i | addUniqueKey i => inferInstanceAs (Decidable (i.columns ≠ []))
  | dropColumn _ | dropIndex _ => .isTrue trivial
  | addForeignKey _ | addPrimaryKey _ => .isFalse id

/-- A change is lowered exactly if it can be expressed. -/
theorem exists_lower_iff (table : String) {a : AlterAction} :
    (∃ x, a.lower table = .ok x) ↔ a.Expressible := by
  constructor
  · rintro ⟨x, h⟩
    cases a with
    | addColumn c =>
      obtain ⟨column, hcolumn, -⟩ := addColumn_eq_ok h
      rw [lower] at h
      split at h
      · contradiction
      · exact ⟨Bool.eq_false_of_not_eq_true ‹_›,
          (ColumnDef.exists_lower_iff table).1 ⟨column, hcolumn⟩⟩
    | changeColumn old c =>
      obtain ⟨column, hcolumn, -⟩ := changeColumn_eq_ok h
      rw [lower] at h
      split at h
      · contradiction
      · split at h
        · contradiction
        · exact ⟨not_not.1 ‹_›, Bool.eq_false_of_not_eq_true ‹_›,
            (ColumnDef.exists_lower_iff table).1 ⟨column, hcolumn⟩⟩
    | addIndex i | addSpatialIndex i | addUniqueKey i =>
      obtain ⟨j, hj, -⟩ := bind_eq_ok h
      obtain ⟨rfl, hcolumns, -⟩ := IndexDef.of_lower hj
      exact hcolumns
    | dropColumn column | dropIndex name => trivial
    | addForeignKey key | addPrimaryKey columns => contradiction
  · intro h
    cases a with
    | addColumn c =>
      obtain ⟨hkey, hc⟩ := h
      obtain ⟨column, hcolumn⟩ := (ColumnDef.exists_lower_iff table).2 hc
      rw [lower, hkey, if_neg Bool.false_ne_true, hcolumn, ok_bind]
      dsimp only
      split <;> exact ⟨_, rfl⟩
    | changeColumn old c =>
      obtain ⟨rfl, hkey, hc⟩ := h
      obtain ⟨column, hcolumn⟩ := (ColumnDef.exists_lower_iff table).2 hc
      rw [lower, if_neg (not_not_intro rfl), hkey, if_neg Bool.false_ne_true, hcolumn]
      exact ⟨_, rfl⟩
    | addIndex i | addSpatialIndex i | addUniqueKey i =>
      have hcolumns : i.columns ≠ [] := h
      rw [lower, IndexDef.lower_eq, if_neg (by simpa using hcolumns)]
      exact ⟨_, rfl⟩
    | dropColumn column | dropIndex name => exact ⟨_, rfl⟩
    | addForeignKey key | addPrimaryKey columns => exact h.elim

/-- A change that is refused asks for what the database does not have. -/
theorem unsupported_of_lower {table : String} {a : AlterAction} {e : SchemaError}
    (h : a.lower table = .error e) :
    ∃ what place, e = .unsupported what place := by
  have hcolumn {c : ColumnDef} (hc : c.lower table = .error e) : ∃ what place,
      e = .unsupported what place := by
    have hobjection : Objection table [] [] e := ColumnDef.objection_of_lower hc
    exact hobjection.exists_unsupported
  cases a with
  | addColumn c =>
    rw [lower] at h
    split at h
    · exact ⟨_, _, (Except.error.inj h).symm⟩
    · rcases bind_eq_error h with h | ⟨column, -, h⟩
      · exact hcolumn h
      · dsimp only at h
        split at h <;> contradiction
  | changeColumn old c =>
    rw [lower] at h
    split at h
    · exact ⟨_, _, (Except.error.inj h).symm⟩
    · split at h
      · exact ⟨_, _, (Except.error.inj h).symm⟩
      · rcases bind_eq_error h with h | ⟨column, -, h⟩
        · exact hcolumn h
        · contradiction
  | addIndex i | addSpatialIndex i | addUniqueKey i =>
    rcases bind_eq_error h with h | ⟨j, -, h⟩
    · rw [IndexDef.lower_eq] at h
      split at h
      · exact ⟨_, _, (Except.error.inj h).symm⟩
      · contradiction
    · contradiction
  | dropColumn column | dropIndex name => contradiction
  | addForeignKey key | addPrimaryKey columns => exact ⟨_, _, (Except.error.inj h).symm⟩

end AlterAction

/-! ## The changes of a statement -/

namespace AlterTable

/-- The indices that the changes ask for. -/
def indices (a : AlterTable) : List Index := a.actions.flatMap (·.indices a.table)

/-- The indices stand behind everything else, and have columns. -/
theorem lower_eq_ok {a : AlterTable} {l : Lowered} (h : a.lower = .ok l) :
    ∃ xs, a.actions.mapM (AlterAction.lower a.table) = .ok xs ∧
      l.ddl = xs.flatMap (·.ddl) ++ a.indices.map .createIndex ∧
      ∀ i ∈ a.indices, i.columns ≠ [] := by
  obtain ⟨xs, hxs, h⟩ := bind_eq_ok h
  obtain rfl := Except.ok.inj h
  have hindices : xs.flatMap (·.indices) = a.indices := AlterAction.indices_of_mapM_lower hxs
  refine ⟨xs, hxs, by rw [hindices], fun i hi ↦ ?_⟩
  rw [← hindices] at hi
  obtain ⟨x, hx, hi⟩ := List.mem_flatMap.1 hi
  obtain ⟨action, -, hlower⟩ := exists_of_mem_mapM hxs hx
  have hmirrors : Mirrors True x.ddl x.delta ∧ ∀ i ∈ x.indices, i.columns ≠ [] :=
    AlterAction.mirrors_of_lower hlower
  exact hmirrors.2 i hi

/-- Changes are lowered together exactly if each of them can be expressed. -/
theorem exists_lower_iff {a : AlterTable} :
    (∃ l, a.lower = .ok l) ↔ ∀ x ∈ a.actions, x.Expressible := by
  constructor
  · rintro ⟨l, h⟩ x hx
    obtain ⟨ys, hys, -⟩ := bind_eq_ok h
    obtain ⟨y, -, hy⟩ := exists_of_mapM hys hx
    exact (AlterAction.exists_lower_iff a.table).1 ⟨y, hy⟩
  · intro h
    obtain ⟨ys, hys⟩ := exists_mapM fun x hx ↦ (AlterAction.exists_lower_iff a.table).2 (h x hx)
    rw [lower, hys]
    exact ⟨_, rfl⟩

/-- Changes that are refused ask for what the database does not have. -/
theorem unsupported_of_lower {a : AlterTable} {e : SchemaError} (h : a.lower = .error e) :
    ∃ what place, e = .unsupported what place := by
  rcases bind_eq_error h with h | ⟨ys, -, h⟩
  · obtain ⟨x, -, hx⟩ := exists_of_mapM_error h
    exact AlterAction.unsupported_of_lower hx
  · contradiction

end AlterTable

namespace Statement

/-- The columns that a statement creates or adds. -/
def newColumns : Statement → List ColumnDef
  | createTable c => c.columnDefs
  | alterTable a => a.actions.filterMap AlterAction.added?
  | createIndex _ | dropIndex .. | renameTable _ | dropTable .. => []

/-- The columns that a statement changes. -/
def changedColumns : Statement → List ColumnDef
  | alterTable a => a.actions.filterMap AlterAction.changed?
  | createTable _ | createIndex _ | dropIndex .. | renameTable _ | dropTable .. => []

end Statement

end SchemaLedger
