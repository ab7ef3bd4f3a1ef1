import Mathlib
import SchemaLedger.Proofs.Lowering.Alteration
import SchemaLedger.Proofs.Lowering.Expressible

/-!
# Unique indices of columns

A column that is declared unique gets a unique index of its own, beside those that are asked for by
themselves. So it is with the columns of a new table and with those that are added to a table. A
column that is changed gets none, whatever it is declared to be.
-/

namespace SchemaLedger

/-! ## Texts that create unique indices -/

/-- A text that differs from a word in one of its first characters does not begin with the word. -/
theorem isPrefixOf_append_eq_false {word cs : List Char}
    (h : ((word.zip cs).any fun p ↦ p.1 != p.2) = true)
    (rest : List Char) : word.isPrefixOf (cs ++ rest) = false := by
  induction word generalizing cs with
  | nil => contradiction
  | cons a word ih =>
    cases cs with
    | nil => contradiction
    | cons c cs =>
      rw [List.zip_cons_cons, List.any_cons, Bool.or_eq_true, bne_iff_ne] at h
      rw [List.cons_append, List.isPrefixOf_cons_cons, Bool.and_eq_false_iff, beq_eq_false_iff_ne]
      exact h.imp_right fun h ↦ ih h

/-- The text creates a unique index. -/
def createsUnique (sql : String) : Bool := "CREATE UNIQUE ".toList.isPrefixOf sql.toList

theorem createsUnique_append_eq_false {s : String}
    (h : (("CREATE UNIQUE ".toList.zip s.toList).any fun p ↦ p.1 != p.2) = true) (rest : String) :
    createsUnique (s ++ rest) = false := by
  unfold createsUnique
  rw [String.toList_append]
  exact isPrefixOf_append_eq_false h rest.toList

theorem Index.createsUnique_sql (i : Index) : createsUnique i.sql = i.unique := by
  unfold Index.sql
  simp only [String.append_assoc]
  cases i.unique with
  | true =>
    have hhead : ("CREATE " ++ "UNIQUE ").toList = "CREATE UNIQUE ".toList := by decide
    rw [if_pos rfl, ← String.append_assoc]
    unfold createsUnique
    rw [String.toList_append, hhead, List.isPrefixOf_iff_prefix]
    exact List.prefix_append _ _
  | false =>
    rw [if_neg Bool.false_ne_true, String.empty_append, ← String.append_assoc]
    cases i.nullFiltered with
    | true =>
      rw [if_pos rfl]
      exact createsUnique_append_eq_false (by decide) _
    | false =>
      rw [if_neg Bool.false_ne_true, String.append_empty, ← String.append_assoc]
      exact createsUnique_append_eq_false (by decide) _

namespace Ddl

/-- The index that a statement creates. -/
def index? : Ddl → Option Index
  | createIndex i => some i
  | _ => none

theorem eq_createIndex_of_index? {d : Ddl} {i : Index} (h : d.index? = some i) :
    d = createIndex i := by
  cases d with
  | createIndex j => exact congrArg _ (Option.some.inj h)
  | _ => contradiction

theorem filterMap_index?_createIndex (is : List Index) :
    (is.map createIndex).filterMap index? = is := by
  rw [List.filterMap_map]
  exact List.filterMap_some

/-- The unique index that a statement creates. -/
def uniqueIndex? : Ddl → Option Index
  | createIndex i => if i.unique then some i else none
  | _ => none

theorem filterMap_uniqueIndex? (ds : List Ddl) :
    ds.filterMap uniqueIndex? = (ds.filterMap index?).filter (·.unique) := by
  have hone : uniqueIndex? = fun d ↦ d.index?.filter (·.unique) := funext fun d ↦ by cases d <;> rfl
  rw [List.filter_filterMap, hone]

theorem createsUnique_text (d : Ddl) : createsUnique d.text = d.uniqueIndex?.isSome := by
  cases d with
  | createIndex i =>
    change createsUnique i.sql = (if i.unique then some i else none).isSome
    rw [i.createsUnique_sql]
    cases i.unique <;> rfl
  | _ =>
    unfold text
    simp only [String.append_assoc]
    exact createsUnique_append_eq_false (by decide) _

theorem text_of_uniqueIndex? {d : Ddl} {i : Index} (h : d.uniqueIndex? = some i) :
    d.text = i.sql := by
  cases d with
  | createIndex j =>
    change (if j.unique then some j else none) = some i at h
    split at h
    · obtain rfl := Option.some.inj h
      rfl
    · contradiction
  | _ => contradiction

theorem filter_createsUnique (ds : List Ddl) :
    (ds.map text).filter createsUnique = (ds.filterMap uniqueIndex?).map Index.sql := by
  induction ds with
  | nil => rfl
  | cons d ds ih =>
    rw [List.map_cons, List.filter_cons, createsUnique_text, ih, List.filterMap_cons]
    cases hd : d.uniqueIndex? with
    | none => rfl
    | some i =>
      rw [text_of_uniqueIndex? hd]
      rfl

theorem filterMap_uniqueIndex?_createIndex (is : List Index) :
    (is.map createIndex).filterMap uniqueIndex? = is.filter (·.unique) := by
  rw [List.filterMap_map, ← List.filterMap_eq_filter]
  rfl

end Ddl

/-! ## Indices of columns -/

namespace ColumnDef

/-- The column is to be unique, and is not by itself the key, which is unique anyway. -/
def wantsUnique (d : ColumnDef) : Bool := d.unique && !d.primaryKey

/-- The unique index on the column alone. -/
def ownIndex (table : String) (d : ColumnDef) : Index where
  name := Identifier.indexName table [d.name] true
  table := table
  columns := [⟨d.name, .asc⟩]
  unique := true

end ColumnDef

namespace AlterAction

/-- The unique index that is asked for by itself. -/
def uniqueKey? (table : String) : AlterAction → Option Index
  | addUniqueKey i => some (i.declared table .unique)
  | _ => none

/-- Unique indices are asked for by columns that are added and by themselves. -/
theorem perm_filter_indices (table : String) {as : List AlterAction} (h : ∀ a ∈ as, a.Expressible) :
    ((as.flatMap (indices table)).filter (·.unique)).Perm
      (((as.filterMap added?).filter (·.wantsUnique)).map (·.ownIndex table)
        ++ as.filterMap (uniqueKey? table)) := by
  induction as with
  | nil => exact .nil
  | cons a as ih =>
    obtain ⟨ha, has⟩ := List.forall_mem_cons.1 h
    have hrest := ih has
    rw [List.flatMap_cons, List.filter_append]
    cases a with
    | addColumn c =>
      have hwants : c.wantsUnique = c.unique := by
        rw [ColumnDef.wantsUnique, ha.1, Bool.not_false, Bool.and_true]
      change ((if c.unique then [c.ownIndex table] else []).filter (·.unique) ++ _).Perm
        (((c :: as.filterMap added?).filter (·.wantsUnique)).map (·.ownIndex table)
          ++ as.filterMap (uniqueKey? table))
      rw [List.filter_cons, hwants]
      cases c.unique with
      | true => exact hrest.cons _
      | false => exact hrest
    -- An index that is asked for by itself goes behind those of all columns.
    | addUniqueKey i => exact (hrest.cons _).trans List.perm_middle.symm
    | _ => exact hrest

end AlterAction

/-- The indices that a change asks for are not among its statements: they come behind those of all
changes. -/
theorem AlterAction.index?_of_lower {table : String} {a : AlterAction} {x : LoweredAction}
    (h : a.lower table = .ok x) : x.ddl.filterMap Ddl.index? = [] := by
  cases a with
  | addColumn c =>
    obtain ⟨column, -, hddl, -⟩ := addColumn_eq_ok h
    rw [hddl]
    rfl
  | changeColumn old c =>
    obtain ⟨column, -, hddl, -⟩ := changeColumn_eq_ok h
    rw [hddl]
    split <;> rfl
  | addIndex i | addSpatialIndex i | addUniqueKey i =>
    obtain ⟨j, -, h⟩ := bind_eq_ok h
    obtain rfl := Except.ok.inj h
    rfl
  | dropColumn column | dropIndex name =>
    obtain rfl := Except.ok.inj h
    rfl
  | addForeignKey key | addPrimaryKey columns => contradiction

theorem AlterTable.index?_flatMap {a : AlterTable} {xs : List LoweredAction}
    (h : a.actions.mapM (AlterAction.lower a.table) = .ok xs) :
    (xs.flatMap (·.ddl)).filterMap Ddl.index? = [] := by
  rw [List.filterMap_flatMap, List.flatMap_eq_nil_iff]
  intro x hx
  obtain ⟨action, -, hlower⟩ := exists_of_mem_mapM h hx
  exact AlterAction.index?_of_lower hlower

namespace Statement

/-- The unique indices that columns of the statement ask for. -/
def ownIndices (s : Statement) (columns : List ColumnDef) : List Index :=
  s.touched.flatMap fun table ↦ (columns.filter (·.wantsUnique)).map (·.ownIndex table)

/-- The unique indices that the statement asks for by themselves. -/
def uniqueKeys : Statement → List Index
  | createTable c => (c.indexDefs.filter (·.1 == .unique)).map fun p ↦ p.2.declared c.table p.1
  | alterTable a => a.actions.filterMap (AlterAction.uniqueKey? a.table)
  | createIndex c =>
    if c.kind == .unique
      then [{ c.index.declared c.table c.kind with interleaveIn := c.interleaveIn }] else []
  | dropIndex .. | renameTable _ | dropTable .. => []

variable {s : Statement} {l : Lowered} {delta delta' : Delta} {sql : List String}

theorem ownIndices_nil (s : Statement) : s.ownIndices [] = [] :=
  List.flatMap_eq_nil_iff.2 fun _ _ ↦ rfl

/-- The unique indices that are created are those of new columns and those that are asked for by
themselves. -/
theorem perm_uniqueIndices (h : s.lower = .ok l) :
    (l.ddl.filterMap Ddl.uniqueIndex?).Perm (s.ownIndices s.newColumns ++ s.uniqueKeys) := by
  cases s with
  | createTable c =>
    obtain ⟨t, columns, key, hmeant⟩ := CreateTable.exists_of_lower h
    have hown : c.declaredIndices.filter (·.unique)
        = (c.columnDefs.filter (·.wantsUnique)).map (·.ownIndex c.table)
        ++ (createTable c).uniqueKeys := by
      rw [CreateTable.declaredIndices, List.filter_append, List.filter_map, List.filter_map]
      exact congrArg (· ++ _) (congrArg _ (List.filter_true _))
    rw [hmeant.ddl, List.filterMap_cons]
    dsimp only [Ddl.uniqueIndex?]
    rw [Ddl.filterMap_uniqueIndex?_createIndex, hown, ownIndices, touched, List.flatMap_singleton]
    exact .refl _
  | alterTable a =>
    obtain ⟨xs, hxs, hddl, -⟩ := AlterTable.lower_eq_ok h
    have hnone : (xs.flatMap (·.ddl)).filterMap Ddl.uniqueIndex? = [] := by
      rw [Ddl.filterMap_uniqueIndex?, AlterTable.index?_flatMap hxs]
      rfl
    rw [hddl, List.filterMap_append, hnone, List.nil_append, Ddl.filterMap_uniqueIndex?_createIndex,
      ownIndices, touched, List.flatMap_singleton]
    exact AlterAction.perm_filter_indices a.table (AlterTable.exists_lower_iff.1 ⟨l, h⟩)
  | createIndex c =>
    obtain ⟨i, hi, h⟩ := bind_eq_ok h
    obtain rfl := Except.ok.inj h
    obtain ⟨rfl, -⟩ := IndexDef.of_lower hi
    have hkey : (createIndex c).uniqueKeys = if c.kind == .unique then
      [{ c.index.declared c.table c.kind with interleaveIn := c.interleaveIn }] else [] := rfl
    rw [newColumns, ownIndices_nil, hkey]
    cases c.kind <;> exact .refl _
  | dropIndex name table =>
    obtain rfl := Except.ok.inj h
    rw [newColumns, ownIndices_nil]
    exact .refl _
  | renameTable renames =>
    obtain rfl := Except.ok.inj h
    have hnone : (renames.map fun r ↦ Ddl.renameTable r.old r.new).filterMap Ddl.uniqueIndex? =
        [] := by
      rw [List.filterMap_map]
      exact List.filterMap_eq_nil_iff.2 fun _ _ ↦ rfl
    rw [hnone, newColumns, ownIndices_nil]
    exact .refl _
  | dropTable tables ifExists =>
    obtain rfl := Except.ok.inj h
    have hnone : (tables.map (Ddl.dropTable · ifExists)).filterMap Ddl.uniqueIndex? = [] := by
      rw [List.filterMap_map]
      exact List.filterMap_eq_nil_iff.2 fun _ _ ↦ rfl
    rw [hnone, newColumns, ownIndices_nil]
    exact .refl _

/-- Only changes to a table change columns. -/
theorem ownIndices_append (s : Statement) :
    s.ownIndices (s.newColumns ++ s.changedColumns) =
      s.ownIndices s.newColumns ++ s.ownIndices s.changedColumns := by
  cases s with
  | alterTable a =>
    simp only [ownIndices, touched, List.flatMap_singleton, List.filter_append, List.map_append]
  | _ => rw [changedColumns, List.append_nil, ownIndices_nil, List.append_nil]

theorem ownIndices_changedColumns_eq_nil_iff (s : Statement) :
    s.ownIndices s.changedColumns = [] ↔ ∀ d ∈ s.changedColumns, d.wantsUnique = false := by
  cases s with
  | alterTable a =>
    rw [ownIndices, touched, List.flatMap_singleton, List.map_eq_nil_iff, List.filter_eq_nil_iff]
    simp only [Bool.not_eq_true]
  | _ => exact iff_of_true (ownIndices_nil _) fun d hd ↦ absurd hd List.not_mem_nil

/-- The unique indices that a statement becomes are, each of them once, those of the unique columns
that it creates or adds and those that it asks for by themselves. So no unique column is without an
index exactly if none of the columns that it changes is to be unique. -/
theorem unique_indices_of_lowerInto (h : s.lowerInto delta = .ok sql delta') :
    (sql.filter createsUnique).Perm ((s.ownIndices s.newColumns ++ s.uniqueKeys).map Index.sql) ∧
      ((sql.filter createsUnique).Perm
          ((s.ownIndices (s.newColumns ++ s.changedColumns) ++ s.uniqueKeys).map Index.sql) ↔
        ∀ d ∈ s.changedColumns, d.wantsUnique = false) := by
  rw [lowerInto_eq] at h
  split at h
  · rename_i l hl
    obtain ⟨rfl, -⟩ := EStateM.Result.ok.inj h
    have hperm : (l.sql.filter createsUnique).Perm
        ((s.ownIndices s.newColumns ++ s.uniqueKeys).map Index.sql) := by
      rw [Lowered.sql, Ddl.filter_createsUnique]
      exact (perm_uniqueIndices hl).map Index.sql
    refine ⟨hperm, ?_⟩
    rw [ownIndices_append, ← ownIndices_changedColumns_eq_nil_iff]
    constructor
    · intro hall
      -- Both lists are in one-to-one correspondence with the texts, so nothing can have been added.
      have hlength := hperm.length_eq.symm.trans hall.length_eq
      simp only [List.length_map, List.length_append] at hlength
      exact List.length_eq_zero_iff.1 (by omega)
    · intro hnil
      rwa [hnil, List.append_nil]
  · contradiction

/-- Unique columns that are added between unique indices with and without names, and a column that
is changed. -/
def fitting : Statement :=
  .alterTable
    { table := "depot"
      actions :=
        [.addUniqueKey { columns := [⟨"city", .asc⟩, ⟨"street", .asc⟩] },
          .addColumn { name := "code", dataType := ⟨"int", none, false⟩, unique := true },
          .changeColumn "city" { name := "city", dataType := ⟨"varchar", some (.size 80), false⟩ },
          .addIndex { columns := [⟨"city", .desc⟩] },
          .addUniqueKey
            { name := some "by_code", columns := [⟨"code", .desc⟩], nullFiltered := true },
          .addColumn
            { name := "sign", dataType := ⟨"varchar", some (.size 9), false⟩, unique := true }] }

theorem unique_indices_fitting :
    ∃ sql delta', fitting.lowerInto [] = .ok sql delta' ∧
      (sql.filter createsUnique).Perm
        ["CREATE UNIQUE INDEX uq_depot_code ON depot (code)",
         "CREATE UNIQUE INDEX uq_depot_sign ON depot (sign)",
          "CREATE UNIQUE INDEX uq_depot_city_street ON depot (city, street)",
          "CREATE UNIQUE NULL_FILTERED INDEX by_code ON depot (code DESC)"] ∧
      (sql.filter createsUnique).Perm
        ((fitting.ownIndices (fitting.newColumns ++ fitting.changedColumns)
          ++ fitting.uniqueKeys).map Index.sql) := by
  obtain ⟨l, hl⟩ : ∃ l, fitting.lower = .ok l := AlterTable.exists_lower_iff.2 (by decide +kernel)
  have hinto : fitting.lowerInto [] = .ok l.sql l.delta := by
    rw [lowerInto_eq, hl]
    rfl
  have hsql : (fitting.ownIndices fitting.newColumns ++ fitting.uniqueKeys).map Index.sql
      = ["CREATE UNIQUE INDEX uq_depot_code ON depot (code)",
        "CREATE UNIQUE INDEX uq_depot_sign ON depot (sign)",
        "CREATE UNIQUE INDEX uq_depot_city_street ON depot (city, street)",
        "CREATE UNIQUE NULL_FILTERED INDEX by_code ON depot (code DESC)"] := by
    decide +kernel
  obtain ⟨hperm, hall⟩ := unique_indices_of_lowerInto hinto
  exact ⟨l.sql, l.delta, hinto, hsql ▸ hperm, hall.2 (by decide)⟩

/-- A column that is changed to be unique. -/
def sealing : Statement :=
  .alterTable
    { table := "t"
      actions :=
        [.changeColumn "a" { name := "a", dataType := ⟨"int", none, false⟩, unique := true }] }

/-- The change is accepted, and no unique index is created. -/
theorem sealing_without_index :
    sealing.lowerInto [] = .ok ["ALTER TABLE t ALTER COLUMN a int64"] [.removeColumn "t" "a"] ∧
      (sealing.ownIndices sealing.changedColumns).map Index.sql =
        ["CREATE UNIQUE INDEX uq_t_a ON t (a)"] ∧
      ["ALTER TABLE t ALTER COLUMN a int64"].filter createsUnique = [] := by
  exact ⟨lowerInto_of_lower (by decide +kernel) [], by decide +kernel, by decide +kernel⟩

end Statement

end SchemaLedger
