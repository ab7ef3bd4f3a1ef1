import Mathlib
import SchemaLedger.Proofs.Database.Indexing
import SchemaLedger.Proofs.Database.Replay
import SchemaLedger.Proofs.Identifier.Collision
import SchemaLedger.Proofs.Lowering.Unique

/-!
# Batches with two indices of one name

An index is refused where there is one of its name. Only statements that create indices bring new
names into a database, so a batch is refused in this way only for a name that the database had
before, or for one that two of its declarations have. Between indices that are declared without
names this is a matter of how names are derived.
-/

namespace SchemaLedger

open Identifier Text

/-! ## Declarations -/

/-- The declaration of an index, which may give it a name. -/
structure Declaration extends Unnamed where
  given : Option String
  deriving DecidableEq, Repr

/-- A declaration that gives no name. -/
def Unnamed.declaration (d : Unnamed) : Declaration := { d with given := none }

/-- The given name, or the derived one. -/
def Declaration.name (d : Declaration) : String := d.given.getD d.toUnnamed.name

/-- The declaration that a definition is for a table. -/
def IndexDef.declaration (table : String) (kind : IndexKind) (i : IndexDef) : Declaration where
  table := table
  columns := i.columns.map (·.name)
  unique := kind == .unique
  given := i.name

/-- What the index of a unique column is declared as. -/
def ColumnDef.declaration (table : String) (d : ColumnDef) : Declaration :=
  (IndexDef.on [d.name]).declaration table .unique

/-- The indices that a change to a table declares. -/
def AlterAction.declarations (table : String) : AlterAction → List Declaration
  | addColumn c => if c.unique then [c.declaration table] else []
  | addIndex i => [i.declaration table .plain]
  | addSpatialIndex i => [i.declaration table .spatial]
  | addUniqueKey i => [i.declaration table .unique]
  | dropColumn _ | changeColumn .. | dropIndex _ | addForeignKey _ | addPrimaryKey _ => []

/-- The indices that a statement declares. -/
def Statement.declarations : Statement → List Declaration
  | createTable c => (c.columnDefs.filter (·.wantsUnique)).map (·.declaration c.table)
      ++ c.indexDefs.map fun p ↦ p.2.declaration c.table p.1
  | alterTable a => a.actions.flatMap (AlterAction.declarations a.table)
  | createIndex c => [c.index.declaration c.table c.kind]
  | dropIndex .. | renameTable _ | dropTable .. => []

/-- Name and table of an index. -/
def Index.label (i : Index) : String × String := (i.name, i.table)

/-- Name and table of what is declared. -/
def Declaration.label (d : Declaration) : String × String := (d.name, d.table)

theorem AlterAction.map_label_indices (table : String) (a : AlterAction) :
    (a.indices table).map Index.label = (a.declarations table).map Declaration.label := by
  cases a with
  | addColumn c =>
    rw [indices, declarations]
    cases c.unique <;> rfl
  | _ => rfl

namespace Statement

/-- The statements of the database create the declared indices in order, under their names. -/
theorem map_label_index? {s : Statement} {l : Lowered} (h : s.lower = .ok l) :
    (l.ddl.filterMap Ddl.index?).map Index.label = s.declarations.map Declaration.label := by
  cases s with
  | createTable c =>
    obtain ⟨t, columns, key, hmeant⟩ := CreateTable.exists_of_lower h
    rw [hmeant.ddl, List.filterMap_cons]
    dsimp only [Ddl.index?]
    rw [Ddl.filterMap_index?_createIndex, CreateTable.declaredIndices, declarations]
    simp only [List.map_append, List.map_map]
    rfl
  | alterTable a =>
    obtain ⟨xs, hxs, hddl, -⟩ := AlterTable.lower_eq_ok h
    rw [hddl, List.filterMap_append, AlterTable.index?_flatMap hxs, List.nil_append,
      Ddl.filterMap_index?_createIndex, declarations, AlterTable.indices, List.map_flatMap,
      List.map_flatMap]
    exact List.flatMap_congr fun a _ ↦ a.map_label_indices _
  | createIndex c =>
    obtain ⟨i, hi, h⟩ := bind_eq_ok h
    obtain rfl := Except.ok.inj h
    obtain ⟨rfl, -⟩ := IndexDef.of_lower hi
    rfl
  | dropIndex name table =>
    obtain rfl := Except.ok.inj h
    rfl
  | renameTable renames =>
    obtain rfl := Except.ok.inj h
    have hnone : (renames.map fun r ↦ Ddl.renameTable r.old r.new).filterMap Ddl.index? = [] := by
      rw [List.filterMap_map]
      exact List.filterMap_eq_nil_iff.2 fun _ _ ↦ rfl
    rw [hnone]
    rfl
  | dropTable tables ifExists =>
    obtain rfl := Except.ok.inj h
    have hnone : (tables.map (Ddl.dropTable · ifExists)).filterMap Ddl.index? = [] := by
      rw [List.filterMap_map]
      exact List.filterMap_eq_nil_iff.2 fun _ _ ↦ rfl
    rw [hnone]
    rfl

theorem map_label_index?_of_lowerAll {ss : List Statement} {l : Lowered} (h : lowerAll ss = .ok l) :
    (l.ddl.filterMap Ddl.index?).map Index.label =
      (ss.flatMap declarations).map Declaration.label := by
  obtain ⟨ls, hls, rfl⟩ := map_eq_ok h
  rw [Lowered.join, List.filterMap_flatMap, List.map_flatMap, List.map_flatMap]
  have hlabels :=
    map_eq_of_mapM (q := fun l : Lowered ↦ (l.ddl.filterMap Ddl.index?).map Index.label) hls
    fun s _ l hl ↦ map_label_index? hl
  rw [List.flatMap_def, hlabels, List.flatMap_def]

end Statement

/-! ## Texts that create indices -/

/-- The statement creates an index of the name. -/
def Creates (statement n : String) : Prop :=
  ∃ table, Command.ofText? statement = some (.createIndex n table)

namespace Ddl

theorem run_createIndexText_text {d : Ddl} (h : d.index? = none) :
    Command.createIndexText.run d.text.toList = none := by
  cases d with
  | createTable table ine columns key is =>
    rw [Dump.toList_createTable]
    exact Command.run_createIndexText_headText table ine _
  | createIndex i => contradiction
  | _ =>
    unfold text
    simp only [String.append_assoc]
    rw [String.toList_append]
    exact Command.run_createIndexText _ (by decide) (by decide)

/-- Only the text of an index creates one, and of its own name. -/
theorem exists_of_creates {d : Ddl} {n : String} (h : Creates d.text n)
    (htame : ∀ i, d.index? = some i → '\x60' ∉ i.name.toList ∧ '\x60' ∉ i.table.toList) :
    ∃ i, d.index? = some i ∧ i.name = n := by
  obtain ⟨table, hcommand⟩ := h
  cases hd : d.index? with
  | none =>
    have hvalue := Command.createIndexText_of_ofText? hcommand
    rw [Scanner.value?, run_createIndexText_text hd, Option.map_none] at hvalue
    exact absurd hvalue.symm (Option.some_ne_none _)
  | some i =>
    obtain ⟨hname, htable⟩ := htame i hd
    obtain rfl := eq_createIndex_of_index? hd
    have hread := (Command.ofText?_createIndex hname htable).symm.trans hcommand
    by_cases hempty : i.name = "" ∨ i.table = ""
    · rw [if_pos hempty] at hread
      exact absurd hread.symm (Option.some_ne_none _)
    · rw [if_neg hempty] at hread
      exact ⟨i, rfl, (Command.createIndex.inj (Option.some.inj hread)).1⟩

/-- Of statements whose texts create an index of a name one after the other, there are two indices
of that name. -/
theorem two_le_count_of_creates {ds : List Ddl} {n : String}
    (htame : ∀ i ∈ ds.filterMap index?, '\x60' ∉ i.name.toList ∧ '\x60' ∉ i.table.toList)
    {before later : List String} {first second : String}
    (htexts : ds.map text = before ++ second :: later) (hfirst : first ∈ before)
    (h : Creates first n)
    (h' : Creates second n) : 2 ≤ ((ds.filterMap index?).map (·.name)).count n := by
  obtain ⟨ds₁, ds₂, rfl, rfl, hrest⟩ := List.map_eq_append_iff.1 htexts
  obtain ⟨d', ds₃, rfl, rfl, rfl⟩ := List.map_eq_cons_iff.1 hrest
  obtain ⟨d, hd, rfl⟩ := List.mem_map.1 hfirst
  have hnames {d : Ddl} (hd : d ∈ ds₁ ++ d' :: ds₃) (i : Index) (hi : d.index? = some i) :=
    htame i (List.mem_filterMap.2 ⟨d, hd, hi⟩)
  obtain ⟨i, hi, hname⟩ := exists_of_creates h (hnames (List.mem_append_left _ hd))
  obtain ⟨j, hj, hname'⟩ :=
    exists_of_creates h' (hnames (List.mem_append_right _ List.mem_cons_self))
  have hone : 0 < ((ds₁.filterMap index?).map (·.name)).count n :=
    List.count_pos_iff.2 (List.mem_map.2 ⟨i, List.mem_filterMap.2 ⟨d, hd, hi⟩, hname⟩)
  rw [List.filterMap_append, List.filterMap_cons_some hj, List.map_append, List.map_cons,
    List.count_append, List.count_cons, beq_iff_eq.2 hname', if_pos rfl]
  omega

end Ddl

/-! ## Indices of a database -/

/-- One statement describes a table without indices. -/
theorem Dump.indices_of_parse_singleton {statement : String} {s : Schema}
    (h : parse [statement] = .ok s)
    {n : String} {t : Table} (ht : s[n]? = some t) : t.indices = [] := by
  obtain ⟨items, ts, hitems, hreading⟩ := exists_of_parse h
  rw [hreading.lookup] at ht
  obtain ⟨u, hu, rfl⟩ := Option.map_eq_some_iff.1 ht
  obtain ⟨text, htext, hbuild⟩ := exists_of_mem_mapM hreading.built (List.mem_of_find?_eq_some hu)
  obtain ⟨item, hitem, hsome⟩ := List.mem_filterMap.1 htext
  cases item with
  | index i => contradiction
  | table text' =>
    obtain rfl := Option.some.inj hsome
    rw [readItems, List.map_singleton, List.filter_singleton] at hitems
    cases hblank : !(strip statement.toList).isEmpty <;> rw [hblank] at hitems
    · obtain rfl := Except.ok.inj hitems
      contradiction
    · obtain ⟨item, rest, hread, hnil, rfl⟩ := mapM_cons_eq_ok hitems
      obtain rfl := Except.ok.inj hnil
      obtain rfl := List.mem_singleton.1 hitem
      exact (sound_of_build (legible_of_readItem (reading_eq_ok.1 hread)) hbuild).2.2

namespace Database

variable {db db' : Database} {n : String}

/-- One of the tables has an index of the name. -/
def HasIndex (db : Database) (n : String) : Prop :=
  ∃ (k : String) (t : StoredTable), db.tables[k]? = some t ∧ n ∈ t.schema.indexNames

theorem indexOwner?_eq_none_iff : db.indexOwner? n = none ↔ ¬db.HasIndex n := by
  constructor
  · rintro h ⟨k, t, ht, hn⟩
    exact notMem_of_indexOwner? h ht hn
  · exact fun h ↦ indexOwner?_eq_none fun k t ht hn ↦ h ⟨k, t, ht, hn⟩

namespace HasIndex

theorem of_store {k : String} {t : StoredTable} (h : (db.store k t).HasIndex n) :
    db.HasIndex n ∨ n ∈ t.schema.indexNames := by
  obtain ⟨m, u, hu, hn⟩ := h
  rw [getElem?_store] at hu
  split at hu
  · exact .inr (Option.some.inj hu ▸ hn)
  · exact .inl ⟨m, u, hu, hn⟩

/-- A table that is stored again without new indices. -/
theorem of_store_of_subset {k : String} {t u : StoredTable} (h : (db.store k u).HasIndex n)
    (ht : db.tables[k]? = some t) (hsub : u.schema.indexNames ⊆ t.schema.indexNames) :
    db.HasIndex n :=
  h.of_store.elim id fun hn ↦ ⟨k, t, ht, hsub hn⟩

theorem of_alterTable {table : String} {action : TableAction}
    (hok : db.alterTable table action = .ok db') (h : db'.HasIndex n) : db.HasIndex n := by
  cases action with
  | addColumn text =>
    obtain ⟨c, t, -, ht, -, rfl⟩ := addColumn_eq_ok hok
    exact h.of_store_of_subset ht fun _ hm ↦ hm
  | dropColumn column =>
    obtain ⟨t, ht, -, -, -, rfl⟩ := dropColumn_eq_ok hok
    exact h.of_store_of_subset ht fun _ hm ↦ hm
  | allowCommitTimestamp column allowed =>
    obtain ⟨t, ht, -, rfl⟩ := allowCommitTimestamp_eq_ok hok
    exact h.of_store_of_subset ht fun _ hm ↦ hm
  | alterColumn text =>
    obtain ⟨c, t, -, ht, -, rfl⟩ := alterColumn_eq_ok hok
    exact h.of_store_of_subset ht fun _ hm ↦ hm
  | renameTo new =>
    obtain ⟨t, ht, -, rfl⟩ := renameTable_eq_ok hok
    -- The indices keep their names and stay with their table, whatever it is called now.
    obtain ⟨k, u, hu, hn⟩ := h
    rcases renamed_cases hu with ⟨-, rfl⟩ | ⟨-, -, v, hv, rfl⟩
    · exact ⟨table, t, ht, StoredTable.indexNames_rename t new ▸ hn⟩
    · exact ⟨k, v, hv, hn⟩

/-- What a statement does, whatever its text: a name that an index has afterwards is one that an
index had before, or the one that the statement creates. -/
theorem of_run (hsound : db.Sound) {statement : String} (hok : db.run statement = .ok db')
    (h : db'.HasIndex n) :
    db.HasIndex n ∨ Creates statement n := by
  rw [run] at hok
  split at hok
  case h_1 name ifNotExists _ =>
    rcases createTable_eq_ok hok with ⟨-, -, rfl⟩ | ⟨parsed, t, -, hparse, ht, -, rfl⟩
    · exact .inl h
    · refine .inl (h.of_store.resolve_right ?_)
      rw [Table.indexNames, Dump.indices_of_parse_singleton hparse ht]
      exact List.not_mem_nil
  case h_2 name table hcommand =>
    obtain ⟨t, own, parsed, u, -, ht, hown, hparse, hu, rfl⟩ := createIndex_eq_ok hok
    -- Of the table only the indices matter that it had and the one that is read behind them.
    rcases h.of_store with h | hn
    · exact .inl h
    obtain ⟨items, hitems, hlookup⟩ := (hsound.tables table t ht).schema.lookup_of_parse hown hparse
    obtain ⟨i, rfl, -, rfl, -⟩ := Dump.exists_index_of_readItems hcommand hitems
    rw [hsound.named table t ht, hu, Table.foldl_registerIndex, Table.indices_bare,
      List.nil_append] at hlookup
    obtain rfl := Option.some.inj hlookup
    obtain ⟨j, hj, rfl⟩ := List.mem_map.1 hn
    rcases List.mem_append.1 hj with hj | hj
    · exact .inl ⟨table, t, ht, List.mem_map_of_mem hj⟩
    · obtain rfl : j = i := List.mem_singleton.1 (List.mem_filter.1 hj).1
      exact .inr ⟨table, hcommand⟩
  case h_3 name ifExists _ =>
    rcases dropTable_eq_ok hok with ⟨-, rfl⟩ | ⟨t, -, -, rfl⟩
    · exact .inl h
    · obtain ⟨k, u, hu, hn⟩ := h
      dsimp only at hu
      rw [Std.ExtTreeMap.getElem?_erase] at hu
      split at hu
      · contradiction
      · exact .inl ⟨k, u, hu, hn⟩
  case h_4 name _ =>
    obtain ⟨owner, t, -, ht, rfl⟩ := dropIndex_eq_ok hok
    exact .inl (h.of_store_of_subset ht (List.map_subset _ (List.filter_subset_self _)))
  case h_5 table action _ => exact .inl (h.of_alterTable hok)
  all_goals contradiction

theorem of_updateDdl (hsound : db.Sound) {statements : List String}
    (hok : updateDdl statements db = .ok ⟨⟩ db')
    (h : db'.HasIndex n) : db.HasIndex n ∨ ∃ s ∈ statements, Creates s n := by
  induction statements generalizing db with
  | nil =>
    obtain ⟨-, rfl⟩ := EStateM.Result.ok.inj hok
    exact .inl h
  | cons x xs ih =>
    obtain ⟨_, m, hfirst, hrest⟩ := exists_of_run_bind_ok hok
    have hm : m.Sound := ending_of_ok hfirst ▸ keeps_sound_execute _ db hsound
    obtain ⟨m, hrun, rfl⟩ := exists_of_execute hfirst
    rcases ih hm hrest with h | ⟨s, hs, hcreates⟩
    · exact (of_run hsound hrun h).imp_right fun hcreates ↦ ⟨x, List.mem_cons_self, hcreates⟩
    · exact .inr ⟨s, List.mem_cons_of_mem x hs, hcreates⟩

end HasIndex

end Database

/-! ## Refusals -/

/-- An index is there already. -/
def Refusal.isDuplicate : Refusal → Bool
  | rejected (.indexExists _) => true
  | _ => false

/-- The command was refused for something else. -/
def Refusal.Other (e : Refusal) : Prop := e.isDuplicate = false

namespace Edit

variable {α : Type}

theorem failsOnly_refuse {why : Rejection} (h : (Refusal.rejected why).Other) (db : Database) :
    FailsOnly Refusal.Other (refuse why : Edit α) db :=
  .throw h db

theorem failsOnly_reading (read : Except SchemaError α) (db : Database) :
    FailsOnly Refusal.Other (reading read) db := by
  cases read with
  | ok a => exact .pure _ _
  | error e => exact .throw (show Refusal.Other (.schema e) from rfl) _

theorem failsOnly_demand (name : String) (db : Database) :
    FailsOnly Refusal.Other (demand name) db := by
  refine .bind_of_ok (m := get) (a := db) (t := db) rfl ?_
  split
  · exact .pure _ _
  · exact failsOnly_refuse (by rfl) _

theorem failsOnly_createTable (statement name : String) (ifNotExists : Bool) (db : Database) :
    FailsOnly Refusal.Other (createTable statement name ifNotExists) db := by
  refine .bind_of_ok (m := get) (a := db) (t := db) rfl ?_
  split
  · split
    · exact .pure _ _
    · exact failsOnly_refuse (by rfl) _
  · refine .bind (failsOnly_reading _ _) fun parsed m _ ↦ ?_
    split
    · exact failsOnly_refuse (by rfl) _
    · split
      · exact .of_ok rfl
      · refine .bind_of_ok (m := get) (a := m) (t := m) rfl ?_
        split
        · exact .of_ok rfl
        · exact failsOnly_refuse (by rfl) _

theorem failsOnly_dropTable (name : String) (ifExists : Bool) (db : Database) :
    FailsOnly Refusal.Other (dropTable name ifExists) db := by
  refine .bind_of_ok (m := get) (a := db) (t := db) rfl ?_
  split
  · split
    · exact failsOnly_refuse (by rfl) _
    · exact .of_ok rfl
  · split
    · exact .pure _ _
    · exact failsOnly_refuse (by rfl) _

theorem failsOnly_dropIndex (index : String) (db : Database) :
    FailsOnly Refusal.Other (dropIndex index) db := by
  refine .bind_of_ok (m := get) (a := db) (t := db) rfl ?_
  split
  · exact failsOnly_refuse (by rfl) _
  · exact .bind (failsOnly_demand _ _) fun _ _ _ ↦ .of_ok rfl

theorem failsOnly_alterTable (table : String) (action : TableAction) (db : Database) :
    FailsOnly Refusal.Other (alterTable table action) db := by
  -- No change looks for an index of a name, so whatever is refused is refused for something else.
  cases action with
  | addColumn text =>
    refine .bind (failsOnly_reading _ _) fun column _ _ ↦ .bind (failsOnly_demand _ _) fun t _ _ ↦
      ?_
    split
    · exact failsOnly_refuse (by rfl) _
    · exact .of_ok rfl
  | dropColumn column =>
    refine .bind (failsOnly_demand _ _) fun t _ _ ↦ ?_
    split
    · exact failsOnly_refuse (by rfl) _
    split
    · exact failsOnly_refuse (by rfl) _
    split
    · exact failsOnly_refuse (by rfl) _
    · exact .of_ok rfl
  | allowCommitTimestamp column allowed =>
    refine .bind (failsOnly_demand _ _) fun t _ _ ↦ ?_
    split
    · exact failsOnly_refuse (by rfl) _
    · exact .of_ok rfl
  | alterColumn text =>
    refine .bind (failsOnly_reading _ _) fun column _ _ ↦ .bind (failsOnly_demand _ _) fun t _ _ ↦
      ?_
    split
    · exact failsOnly_refuse (by rfl) _
    · exact .of_ok rfl
  | renameTo new =>
    refine .bind_of_ok (m := get) (a := db) (t := db) rfl ?_
    split
    · exact failsOnly_refuse (by rfl) _
    · refine .bind (.of_ok rfl) fun t m _ ↦ ?_
      split
      · exact failsOnly_refuse (by rfl) _
      · exact .of_ok rfl

theorem ne_of_failsOnly {m : Edit Unit} {db db' : Database} (h : FailsOnly Refusal.Other m db)
    (n : String) :
    m db ≠ .error (.rejected (.indexExists n)) db' :=
  fun he ↦ absurd (h _ _ he) Bool.noConfusion

/-- The index that is refused is the one that was to be created. -/
theorem hasIndex_of_createIndex {statement index table n : String} {db db' : Database}
    (h : createIndex statement index table db = .error (.rejected (.indexExists n)) db') :
    index = n ∧ db.HasIndex n := by
  rw [createIndex, get_bind] at h
  split at h
  · rename_i howner
    obtain ⟨hindex, -⟩ := EStateM.Result.error.inj h
    obtain rfl : index = n := Rejection.indexExists.inj (Refusal.rejected.inj hindex)
    refine ⟨rfl, ?_⟩
    by_contra hnone
    rw [Database.indexOwner?_eq_none_iff.2 hnone] at howner
    contradiction
  · refine absurd h (ne_of_failsOnly ?_ n)
    refine .bind (failsOnly_demand _ _) fun t _ _ ↦ .bind (failsOnly_reading _ _) fun own _ _ ↦
      .bind (failsOnly_reading _ _) fun parsed _ _ ↦ ?_
    split
    · exact failsOnly_refuse (by rfl) _
    · exact .of_ok rfl

/-- Only a statement that creates an index is refused as a duplicate, and only if there is an index
of its name. -/
theorem creates_of_perform {statement n : String} {db m : Database}
    (h : perform statement db = .error (.rejected (.indexExists n)) m) :
    Creates statement n ∧ db.HasIndex n := by
  rw [perform] at h
  cases hcommand : Command.ofText? statement with
  | none =>
    rw [hcommand] at h
    exact absurd h (ne_of_failsOnly (failsOnly_refuse (by rfl) _) n)
  | some command =>
    rw [hcommand] at h
    cases command with
    | createTable name ifNotExists =>
      exact absurd h (ne_of_failsOnly (failsOnly_createTable _ _ _ _) n)
    | createIndex name table =>
      obtain ⟨rfl, hindex⟩ := hasIndex_of_createIndex h
      exact ⟨⟨table, hcommand⟩, hindex⟩
    | dropTable name ifExists => exact absurd h (ne_of_failsOnly (failsOnly_dropTable _ _ _) n)
    | dropIndex name => exact absurd h (ne_of_failsOnly (failsOnly_dropIndex _ _) n)
    | alterTable table action =>
      cases action with
      | none => exact absurd h (ne_of_failsOnly (failsOnly_refuse (by rfl) _) n)
      | some action => exact absurd h (ne_of_failsOnly (failsOnly_alterTable _ _ _) n)

end Edit

/-! ## Batches -/

namespace Database

/-- A statement of the batch is refused because there is an index of the name already. -/
def RefusesIndex (db : Database) (batch : List String) (n : String) : Prop :=
  ∃ (accepted : List String) (refused : String) (later : List String) (m m' : Database),
    batch = accepted ++ refused :: later ∧ updateDdl accepted db = .ok ⟨⟩ m ∧
      Edit.perform refused m = .error (.rejected (.indexExists n)) m'

variable {db : Database} {ss : List Statement} {l : Lowered} {n : String}

/-- A name that no index has yet and that is declared once at most does not keep a batch from being
executed. -/
theorem not_refusesIndex (hsound : db.Sound) (hlower : Statement.lowerAll ss = .ok l)
    (htame : ∀ d ∈ ss.flatMap Statement.declarations, '\x60' ∉ d.name.toList ∧
      '\x60' ∉ d.table.toList)
    (hnew : db.indexOwner? n = none)
    (honce : ((ss.flatMap Statement.declarations).map (·.name)).count n ≤ 1) :
    ¬db.RefusesIndex l.sql n := by
  rintro ⟨accepted, refused, later, m, m', htexts, hok, hrefused⟩
  have hlabels := Statement.map_label_index?_of_lowerAll hlower
  obtain ⟨hcreates, hindex⟩ := Edit.creates_of_perform hrefused
  rcases hindex.of_updateDdl hsound hok with hindex | ⟨first, hfirst, hcreates'⟩
  · exact indexOwner?_eq_none_iff.1 hnew hindex
  · have htameIndex : ∀ i ∈ l.ddl.filterMap Ddl.index?, '\x60' ∉ i.name.toList ∧
        '\x60' ∉ i.table.toList := by
      intro i hi
      have hmem : i.label ∈ (ss.flatMap Statement.declarations).map Declaration.label :=
        hlabels ▸ List.mem_map_of_mem hi
      obtain ⟨d, hd, hlabel⟩ := List.mem_map.1 hmem
      obtain ⟨hname, htable⟩ := Prod.mk.inj hlabel
      rw [← hname, ← htable]
      exact htame d hd
    have htwice := Ddl.two_le_count_of_creates htameIndex htexts hfirst hcreates' hcreates
    have hnames : (l.ddl.filterMap Ddl.index?).map (·.name) =
        (ss.flatMap Statement.declarations).map (·.name) := by
      have hfirsts := congrArg (List.map Prod.fst) hlabels
      rwa [List.map_map, List.map_map] at hfirsts
    rw [hnames] at htwice
    omega

end Database

namespace Unnamed

variable {d e : Unnamed}

/-- Any two indices that are declared without names, as far as the hash tells their full names
apart: their names are alike exactly if they spell the same text or one masks the other. So it never
is between kinds, and never between different declarations without underscores. Whatever a batch
declares beside two of them whose names are not alike, it is not refused because one has the name of
the other. -/
theorem names_apart (hhash : shortHash d.full = shortHash e.full → d.full = e.full) :
    (d.name = e.name ↔ d.Alike e ∨ d.Masks e ∨ e.Masks d) ∧
    (d.unique ≠ e.unique → d.name ≠ e.name) ∧
    (d.Plain → e.Plain → d ≠ e → d.name ≠ e.name) ∧
    ∀ (db : Database) (ss : List Statement) (l : Lowered) (others : List Declaration),
      db.Reachable →
      Statement.lowerAll ss = .ok l →
      (ss.flatMap Statement.declarations).Perm (d.declaration :: e.declaration :: others) →
      (∀ c ∈ ss.flatMap Statement.declarations, '\x60' ∉ c.name.toList ∧ '\x60' ∉ c.table.toList) →
      (∀ c ∈ others, c.name ≠ d.name ∧ c.name ≠ e.name) →
      db.indexOwner? d.name = none → db.indexOwner? e.name = none → d.name ≠ e.name →
      ¬db.RefusesIndex l.sql d.name ∧ ¬db.RefusesIndex l.sql e.name := by
  refine ⟨name_eq_iff hhash, name_ne_of_unique_ne, fun h h' hne ↦ h.name_ne h' hhash hne, ?_⟩
  intro db ss l others hreachable hlower hperm htame hothers hnew hnew' hne
  have hnone (n : String) (h : ∀ c ∈ others, c.name ≠ n) : (others.map (·.name)).count n = 0 :=
    List.count_eq_zero.2 fun hmem ↦ by
      obtain ⟨c, hc, hname⟩ := List.mem_map.1 hmem
      exact h c hc hname
  have hcount (n : String) : ((ss.flatMap Statement.declarations).map (·.name)).count n =
      (d.name :: e.name :: others.map (·.name)).count n := (hperm.map (·.name)).count_eq n
  refine ⟨Database.not_refusesIndex hreachable.sound hlower htame hnew ?_,
    Database.not_refusesIndex hreachable.sound hlower htame hnew' ?_⟩
  · rw [hcount, List.count_cons_self, List.count_cons_of_ne hne.symm,
      hnone d.name fun c hc ↦ (hothers c hc).1]
  · rw [hcount, List.count_cons_of_ne hne, List.count_cons_self,
      hnone e.name fun c hc ↦ (hothers c hc).2]

/-! Two tables, and an index for each of them. -/

def warehouse : Database :=
  (Database.Call.updateDdl ["CREATE TABLE orders (item_sku INT64) PRIMARY KEY (item_sku)",
    "CREATE TABLE orders_item (sku INT64) PRIMARY KEY (sku)"]).apply {}

def ofOrders : Unnamed := ⟨"orders", ["item_sku"], false⟩

def ofItems (unique : Bool) : Unnamed := ⟨"orders_item", ["sku"], unique⟩

def declaring (kind : IndexKind) : List Statement :=
  [.createIndex { table := "orders", index := { columns := [⟨"item_sku", .asc⟩] } },
    .createIndex { table := "orders_item", kind, index := { columns := [⟨"sku", .asc⟩] } }]

theorem names_apart_warehouse :
    (shortHash ofOrders.full = shortHash (ofItems true).full →
      ofOrders.full = (ofItems true).full) ∧
    ofOrders.name ≠ (ofItems true).name ∧ ∃ l, Statement.lowerAll (declaring .unique) = .ok l ∧
      ¬warehouse.RefusesIndex l.sql ofOrders.name ∧
      ¬warehouse.RefusesIndex l.sql (ofItems true).name := by
  have hhash : shortHash ofOrders.full = shortHash (ofItems true).full →
      ofOrders.full = (ofItems true).full :=
    fun h ↦ absurd h (by decide +kernel)
  obtain ⟨-, hkinds, -, hbatch⟩ := names_apart hhash
  have hne : ofOrders.name ≠ (ofItems true).name := hkinds (by decide)
  refine ⟨hhash, hne, _, rfl,
    hbatch warehouse (declaring .unique) _ [] (.call _ .empty) rfl (.refl _) ?_ ?_ ?_ ?_ hne⟩
  · decide +kernel
  · exact fun c hc ↦ absurd hc List.not_mem_nil
  · decide +kernel
  · decide +kernel

/-- Different tables and columns, but one text when they are joined: the second index is refused. -/
theorem alike_in_warehouse :
    ofOrders ≠ ofItems false ∧
    (shortHash ofOrders.full = shortHash (ofItems false).full →
      ofOrders.full = (ofItems false).full) ∧
    ofOrders.name = (ofItems false).name ∧ warehouse.Reachable ∧
    (declaring .plain).flatMap Statement.declarations = [ofOrders.declaration,
      (ofItems false).declaration] ∧
    ∃ l, Statement.lowerAll (declaring .plain) = .ok l ∧
      warehouse.RefusesIndex l.sql ofOrders.name := by
  have hlower : (Lowered.sql <$> Statement.lowerAll (declaring .plain)).toOption =
      some ["CREATE INDEX idx_orders_item_sku ON orders (item_sku)",
        "CREATE INDEX idx_orders_item_sku ON orders_item (sku)"] := by
    decide +kernel
  have hseen : seen (fun _ m ↦ (m.indexOwner? "idx_orders_item_sku").isSome)
      (Database.updateDdl ["CREATE INDEX idx_orders_item_sku ON orders (item_sku)"]) warehouse =
        some true := by
    decide +kernel
  have hcommand : Command.ofText? "CREATE INDEX idx_orders_item_sku ON orders_item (sku)"
      = some (.createIndex "idx_orders_item_sku" "orders_item") := by decide +kernel
  obtain ⟨l, hl, hsql⟩ := map_eq_ok (eq_ok_of_toOption hlower)
  obtain ⟨⟨⟩, m, hok, howner⟩ := exists_of_seen hseen
  have hrefused : Edit.perform "CREATE INDEX idx_orders_item_sku ON orders_item (sku)" m
      = .error (.rejected (.indexExists "idx_orders_item_sku")) m := by
    rw [Edit.perform, hcommand]
    change Edit.createIndex _ _ _ m = _
    rw [Edit.createIndex, Edit.get_bind, if_pos howner]
    rfl
  have hname : ofOrders.name = "idx_orders_item_sku" := by decide +kernel
  refine ⟨by decide, fun _ ↦ by decide, by decide +kernel, .call _ .empty, rfl, l, hl, ?_⟩
  rw [hname]
  exact ⟨_, _, _, m, m, hsql, hok, hrefused⟩

end Unnamed

end SchemaLedger
