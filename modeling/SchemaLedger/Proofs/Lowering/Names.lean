import Mathlib
import SchemaLedger.Proofs.Lowering.Touched

/-!
# Names that are lowered

The statements that a general statement becomes have its names, and those that are made up for
indices without one. Where none of its names has a backtick or a backslash, none of theirs has.
-/

namespace SchemaLedger

open Identifier

/-! ## Names -/

/-- The names of an index and of its columns. -/
def IndexDef.names (i : IndexDef) : List String :=
  i.name.toList ++ i.columns.map (·.name) ++ i.storing

/-- The names of a change; those of changes that are not to be had are left out. -/
def AlterAction.names : AlterAction → List String
  | addColumn c => [c.name]
  | dropColumn column => [column]
  | changeColumn old c => [old, c.name]
  | addIndex i | addSpatialIndex i | addUniqueKey i => i.names
  | dropIndex name => [name]
  | addForeignKey _ | addPrimaryKey _ => []

/-- The names in a statement. -/
def Statement.names : Statement → List String
  | createTable c => c.names
  | alterTable a => a.table :: a.actions.flatMap AlterAction.names
  | createIndex c => c.table :: (c.index.names ++ c.interleaveIn.toList)
  | dropIndex name table => name :: table.toList
  | renameTable renames => renames.flatMap fun r ↦ [r.old, r.new]
  | dropTable tables _ => tables

/-- The names in an index statement. -/
def Index.names (i : Index) : List String :=
  i.name :: i.table :: (i.referenced ++ i.interleaveIn.toList)

/-- The names in a statement of the database. -/
def Ddl.names : Ddl → List String
  | createTable table _ columns key is =>
    table :: (columns.map (·.name) ++ key.map (·.name) ++ is.map (·.parent))
  | createIndex i => i.names
  | dropIndex name => [name]
  | addColumn table c | alterColumn table c => [table, c.name]
  | dropColumn table column | allowCommitTimestamp table column => [table, column]
  | renameTable old new => [old, new]
  | dropTable table _ => [table]

/-- No name has a character that means something between backticks. -/
def Ddl.Tame (d : Ddl) : Prop := ∀ n ∈ d.names, Identifier.Tame n

theorem Ddl.Tame.targets {d : Ddl} (h : d.Tame) : ∀ n ∈ d.targets, Identifier.Tame n := by
  cases d with
  | createTable table ine columns key is =>
    exact fun n hn ↦ h n (List.mem_singleton.1 hn ▸ List.mem_cons_self)
  | createIndex i =>
    intro n hn
    rcases List.mem_cons.1 hn with rfl | hn
    · exact h _ List.mem_cons_self
    · exact h n (List.mem_cons_of_mem _ (List.mem_singleton.1 hn ▸ List.mem_cons_self))
  | addColumn table c => exact fun n hn ↦ h n (List.mem_singleton.1 hn ▸ List.mem_cons_self)
  | alterColumn table c => exact fun n hn ↦ h n (List.mem_singleton.1 hn ▸ List.mem_cons_self)
  | _ => exact h

theorem Ddl.Tame.clauses {d : Ddl} (h : d.Tame) : ∀ c ∈ d.clauses, Identifier.Tame c.name := by
  cases d with
  | createTable table ine columns key is =>
    exact fun c hc ↦ h c.name (List.mem_cons_of_mem _ (List.mem_append_left _
      (List.mem_append_left _ (List.mem_map_of_mem hc))))
  | addColumn table c =>
    exact fun d hd ↦ List.mem_singleton.1 hd ▸ h c.name (List.mem_cons_of_mem _ List.mem_cons_self)
  | alterColumn table c =>
    exact fun d hd ↦ List.mem_singleton.1 hd ▸ h c.name (List.mem_cons_of_mem _ List.mem_cons_self)
  | _ => exact fun c hc ↦ absurd hc List.not_mem_nil

/-! ## Lowering -/

theorem tame_indexName {table : String} (htable : Tame table) {columns : List String}
    (hcolumns : ∀ n ∈ columns, Tame n) (unique : Bool) : Tame (indexName table columns unique) :=
  ⟨notMem_indexName (by decide) (by decide) htable.noBacktick
    (fun n hn ↦ (hcolumns n hn).noBacktick) unique,
    notMem_indexName (by decide) (by decide) htable.noBackslash
      (fun n hn ↦ (hcolumns n hn).noBackslash)
      unique⟩

namespace IndexDef

/-- The index of a definition has its names, or one made of them. -/
theorem forall_names_index {p : String → Prop} {table : String} {i : IndexDef}
    {parent : Option String}
    {unique : Bool} (hderived : p (indexName table (i.columns.map (·.name)) unique))
    (htable : p table) (hnames : ∀ n ∈ i.names, p n) (hparent : ∀ n ∈ parent, p n) :
    ∀ n ∈ Index.names ⟨i.nameIn table unique, table, i.columns, unique, i.nullFiltered, i.storing,
      parent⟩, p n := by
  intro n hn
  rcases List.mem_cons.1 hn with rfl | hn
  · dsimp only
    rw [nameIn]
    cases hname : i.name with
    | some n =>
      exact hnames n (List.mem_append_left _ (List.mem_append_left _ (Option.mem_toList.2 hname)))
    | none => exact hderived
  · rcases List.mem_cons.1 hn with rfl | hn
    · exact htable
    · rcases List.mem_append.1 hn with hn | hn
      · rcases List.mem_append.1 hn with hn | hn
        · exact hnames n (List.mem_append_left _ (List.mem_append_right _ hn))
        · exact hnames n (List.mem_append_right _ hn)
      · exact hparent n (Option.mem_toList.1 hn)

theorem tame_index {table : String} {i : IndexDef} {parent : Option String} (htable : Tame table)
    (hnames : ∀ n ∈ i.names, Tame n) (hparent : ∀ p ∈ parent, Tame p) (unique : Bool) :
    ∀ n ∈ Index.names ⟨i.nameIn table unique, table, i.columns, unique, i.nullFiltered, i.storing,
      parent⟩,
      Tame n := by
  have hcolumns : ∀ n ∈ i.columns.map (·.name), Tame n := fun n hn ↦
    hnames n (List.mem_append_left _ (List.mem_append_right _ hn))
  exact forall_names_index (tame_indexName htable hcolumns unique) htable hnames hparent

theorem tame_of_lower {table : String} {kind : IndexKind} {parent : Option String}
    {declared : Option (List String)} {i : IndexDef} {index : Index}
    (h : i.lower table kind parent declared = .ok index) (htable : Tame table)
    (hnames : ∀ n ∈ i.names, Tame n) (hparent : ∀ p ∈ parent, Tame p) :
      ∀ n ∈ index.names, Tame n := by
  obtain ⟨rfl, -, -⟩ := of_lower h
  exact tame_index htable hnames hparent _

end IndexDef

theorem LoweredColumn.Meant.name_clause {x : LoweredColumn} (h : x.Meant) :
    x.clause.name = x.source.name := by
  rw [h.clause]
  rfl

theorem LoweredColumn.Meant.commitTimestamp_clause {x : LoweredColumn} (h : x.Meant) :
    x.clause.commitTimestamp = (x.defaultValue == some .commitTimestamp) := by
  rw [h.clause]

theorem ColumnDef.name_of_lower {table : String} {c : ColumnDef} {x : LoweredColumn}
    (h : c.lower table = .ok x) : x.clause.name = c.name := by
  obtain ⟨rfl, hmeant⟩ := of_lower h
  exact hmeant.name_clause

theorem CreateTable.Meant.names_clauses {c : CreateTable} {l : Lowered} {t : Table}
    {columns : List LoweredColumn} {key : List KeyPart} (h : c.Meant l t columns key) :
    (columns.map (·.clause)).map (·.name) = c.columnDefs.map (·.name) := by
  rw [← h.source, List.map_map, List.map_map]
  exact List.map_congr_left fun x hx ↦ (h.meant x hx).name_clause

theorem CreateTable.Meant.declares_key {c : CreateTable} {l : Lowered} {t : Table}
    {columns : List LoweredColumn} {key : List KeyPart} (h : c.Meant l t columns key) :
    ∀ p ∈ key, p.name ∈ (columns.map (·.clause)).map (·.name) := by
  intro p hp
  rw [h.names_clauses]
  exact h.declaresKey _ (h.keyNames ▸ List.mem_map_of_mem hp)

namespace CreateTable

variable {c : CreateTable}

theorem tame_declaredIndices (h : ∀ n ∈ c.names, Tame n) :
    ∀ i ∈ c.declaredIndices, ∀ n ∈ i.names, Tame n := by
  have htable : Tame c.table := h c.table List.mem_cons_self
  intro i hi
  rcases List.mem_append.1 hi with hi | hi
  · obtain ⟨d, hd, rfl⟩ := List.mem_map.1 hi
    have hname : d.name ∈ c.names :=
      List.mem_cons_of_mem _ (List.mem_append_left _ (List.mem_append_left _
      (List.mem_append_left _ (List.mem_map_of_mem (List.mem_filter.1 hd).1))))
    refine IndexDef.tame_index (i := .on [d.name]) htable (fun n hn ↦ ?_)
      (fun p hp ↦ absurd hp (Option.not_mem_none p)) true
    obtain rfl := List.mem_singleton.1 hn
    exact h _ hname
  · obtain ⟨⟨kind, i⟩, hp, rfl⟩ := List.mem_map.1 hi
    refine IndexDef.tame_index htable (fun n hn ↦ h n ?_)
      (fun p hp ↦ absurd hp (Option.not_mem_none p)) (kind == .unique)
    exact List.mem_cons_of_mem _ (List.mem_append_left _ (List.mem_append_right _
      (List.mem_flatMap.2 ⟨(kind, i), hp, hn⟩)))

theorem tame_of_lower {l : Lowered} (h : c.lower = .ok l) (hnames : ∀ n ∈ c.names, Tame n) :
    ∀ d ∈ l.ddl, d.Tame := by
  obtain ⟨t, columns, key, hmeant⟩ := exists_of_lower h
  have hcolumn : ∀ n ∈ c.columnDefs.map (·.name), Tame n := fun n hn ↦
    hnames n (List.mem_cons_of_mem _ (List.mem_append_left _ (List.mem_append_left _
      (List.mem_append_left _ hn))))
  intro d hd
  rw [hmeant.ddl] at hd
  rcases List.mem_cons.1 hd with rfl | hd
  · intro n hn
    rcases List.mem_cons.1 hn with rfl | hn
    · exact hnames _ List.mem_cons_self
    · rcases List.mem_append.1 hn with hn | hn
      · rcases List.mem_append.1 hn with hn | hn
        · refine hcolumn n ?_
          rw [hmeant.names_clauses] at hn
          exact hn
        · exact hcolumn n (hmeant.declaresKey n (hmeant.keyNames ▸ hn))
      · exact hnames n (List.mem_cons_of_mem _ (List.mem_append_right _ hn))
  · obtain ⟨i, hi, rfl⟩ := List.mem_map.1 hd
    exact tame_declaredIndices hnames i hi

end CreateTable

namespace AlterAction

theorem tame_of_lower {table : String} (htable : Tame table) {a : AlterAction} {x : LoweredAction}
    (h : a.lower table = .ok x) (hnames : ∀ n ∈ a.names, Tame n) :
    (∀ d ∈ x.ddl, d.Tame) ∧ ∀ i ∈ x.indices, ∀ n ∈ i.names, Tame n := by
  cases a with
  | addColumn c =>
    have hname : Tame c.name := hnames _ List.mem_cons_self
    obtain ⟨column, hcolumn, hddl, -, hindices⟩ := addColumn_eq_ok h
    refine ⟨fun d hd ↦ ?_, fun i hi ↦ ?_⟩
    · rw [hddl] at hd
      obtain rfl := List.mem_singleton.1 hd
      simp only [Ddl.Tame, Ddl.names, List.forall_mem_cons, ColumnDef.name_of_lower hcolumn]
      exact ⟨htable, hname, fun n hn ↦ absurd hn List.not_mem_nil⟩
    · refine IndexDef.tame_of_lower (hindices i hi) htable (fun n hn ↦ ?_) fun p hp ↦
        absurd hp (Option.not_mem_none p)
      obtain rfl := List.mem_singleton.1 hn
      exact hname
  | dropColumn column =>
    obtain rfl := Except.ok.inj h
    refine ⟨fun d hd ↦ ?_, fun i hi ↦ absurd hi List.not_mem_nil⟩
    obtain rfl := List.mem_singleton.1 hd
    exact List.forall_mem_cons.2 ⟨htable, hnames⟩
  | changeColumn old c =>
    have hname : Tame c.name := hnames _ (List.mem_cons_of_mem _ List.mem_cons_self)
    obtain ⟨column, hcolumn, hddl, -, hindices⟩ := changeColumn_eq_ok h
    refine ⟨fun d hd ↦ ?_, fun i hi ↦ absurd (hindices ▸ hi) List.not_mem_nil⟩
    rw [hddl] at hd
    rcases List.mem_cons.1 hd with rfl | hd
    · simp only [Ddl.Tame, Ddl.names, List.forall_mem_cons, ColumnDef.name_of_lower hcolumn]
      exact ⟨htable, hname, fun n hn ↦ absurd hn List.not_mem_nil⟩
    · split at hd
      · obtain rfl := List.mem_singleton.1 hd
        simp only [Ddl.Tame, Ddl.names, List.forall_mem_cons]
        exact ⟨htable, hname, fun n hn ↦ absurd hn List.not_mem_nil⟩
      · contradiction
  | addIndex i | addSpatialIndex i | addUniqueKey i =>
    obtain ⟨j, hj, h⟩ := bind_eq_ok h
    obtain rfl := Except.ok.inj h
    refine ⟨fun d hd ↦ absurd hd List.not_mem_nil, fun k hk ↦ ?_⟩
    obtain rfl := List.mem_singleton.1 hk
    exact IndexDef.tame_of_lower hj htable hnames fun p hp ↦ absurd hp (Option.not_mem_none p)
  | dropIndex name =>
    obtain rfl := Except.ok.inj h
    refine ⟨fun d hd ↦ ?_, fun i hi ↦ absurd hi List.not_mem_nil⟩
    obtain rfl := List.mem_singleton.1 hd
    exact hnames
  | addForeignKey key => contradiction
  | addPrimaryKey columns => contradiction

end AlterAction

theorem AlterTable.tame_of_lower {a : AlterTable} {l : Lowered} (h : a.lower = .ok l)
    (hnames : ∀ n ∈ (Statement.alterTable a).names, Tame n) : ∀ d ∈ l.ddl, d.Tame := by
  obtain ⟨actions, hactions, h⟩ := bind_eq_ok h
  obtain rfl := Except.ok.inj h
  have haction {x : LoweredAction} (hx : x ∈ actions) :
      (∀ d ∈ x.ddl, d.Tame) ∧ ∀ i ∈ x.indices, ∀ n ∈ i.names, Tame n := by
    obtain ⟨action, haction, hlower⟩ := exists_of_mem_mapM hactions hx
    exact AlterAction.tame_of_lower (hnames _ List.mem_cons_self) hlower fun n hn ↦
      hnames n (List.mem_cons_of_mem _ (List.mem_flatMap.2 ⟨action, haction, hn⟩))
  intro d hd
  rcases List.mem_append.1 hd with hd | hd
  · obtain ⟨x, hx, hd⟩ := List.mem_flatMap.1 hd
    exact (haction hx).1 d hd
  · obtain ⟨i, hi, rfl⟩ := List.mem_map.1 hd
    obtain ⟨x, hx, hi⟩ := List.mem_flatMap.1 hi
    exact (haction hx).2 i hi

namespace Statement

theorem tame_of_lower {s : Statement} {l : Lowered} (h : s.lower = .ok l)
    (hnames : ∀ n ∈ s.names, Tame n) :
    ∀ d ∈ l.ddl, d.Tame := by
  cases s with
  | createTable c => exact CreateTable.tame_of_lower h hnames
  | alterTable a => exact AlterTable.tame_of_lower h hnames
  | createIndex c =>
    obtain ⟨i, hi, h⟩ := bind_eq_ok h
    obtain rfl := Except.ok.inj h
    intro d hd
    obtain rfl := List.mem_singleton.1 hd
    exact IndexDef.tame_of_lower hi (hnames _ List.mem_cons_self)
      (fun n hn ↦ hnames n (List.mem_cons_of_mem _ (List.mem_append_left _ hn)))
      fun p hp ↦
        hnames p (List.mem_cons_of_mem _ (List.mem_append_right _ (Option.mem_toList.2 hp)))
  | dropIndex name table =>
    obtain rfl := Except.ok.inj h
    intro d hd n hn
    obtain rfl := List.mem_singleton.1 hd
    exact hnames n (List.mem_singleton.1 hn ▸ List.mem_cons_self)
  | renameTable renames =>
    obtain rfl := Except.ok.inj h
    intro d hd n hn
    obtain ⟨r, hr, rfl⟩ := List.mem_map.1 hd
    exact hnames n (List.mem_flatMap.2 ⟨r, hr, hn⟩)
  | dropTable tables ifExists =>
    obtain rfl := Except.ok.inj h
    intro d hd n hn
    obtain ⟨t, ht, rfl⟩ := List.mem_map.1 hd
    exact hnames n (List.mem_singleton.1 hn ▸ ht)

/-- A batch with tame names becomes statements with tame names. -/
theorem tame_of_lowerAll {statements : List Statement} {l : Lowered}
    (h : lowerAll statements = .ok l)
    (hnames : ∀ s ∈ statements, ∀ n ∈ s.names, Tame n) : ∀ d ∈ l.ddl, d.Tame := by
  obtain ⟨ls, hls, rfl⟩ := map_eq_ok h
  intro d hd
  obtain ⟨x, hx, hd⟩ := List.mem_flatMap.1 hd
  obtain ⟨s, hs, hlower⟩ := exists_of_mem_mapM hls hx
  exact tame_of_lower hlower (hnames s hs) d hd

end Statement

end SchemaLedger
