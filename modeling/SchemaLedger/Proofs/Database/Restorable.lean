import Mathlib
import SchemaLedger.Proofs.Database.Coherent
import SchemaLedger.Proofs.Database.Rooted
import SchemaLedger.Proofs.Database.Written
import SchemaLedger.Proofs.Dump.Storable

/-!
# Databases that can be written down

Not every sound table can be written down. A key may have a column whose name ends the list in which
it stands, and a column of another type may be told to hold the commit timestamp. Statements that
were written for a batch make no such tables. What they do is said in pieces: the permission to hold
the commit timestamp comes behind the statement that makes a timestamp of the column, and if the one
is refused the other is not run.
-/

namespace SchemaLedger

open Identifier

/-! ## Columns -/

/-- Its clause says all of it, and stands in the body of a table. -/
structure Column.Restorable (c : Column) : Prop where
  closed : Closed c.name
  generation : c.generation = none
  timed : ∀ d ∈ c.defaultValue, d = .commitTimestamp ∧ c.type = .timestamp

namespace Column.Restorable

variable {c d : Column} (h : c.Restorable)

include h

/-- It does not matter what else is said of a column. -/
theorem congr (hname : d.name = c.name) (hgeneration : d.generation = c.generation)
    (htype : d.type = c.type) (hdefault : d.defaultValue = c.defaultValue) : d.Restorable :=
  ⟨hname ▸ h.closed, hgeneration.trans h.generation, by rw [hdefault, htype]; exact h.timed⟩

theorem stated_eq : c.stated = c.defaultValue :=
  Column.stated_eq fun d hd ↦ (h.timed d hd).1 ▸ ColumnDefault.normal_commitTimestamp

theorem shown_eq : c.shown = c := by
  obtain ⟨name, type, nullable, length, isArray, isPrimary, isUnique, value, generation⟩ := c
  rw [Column.shown, h.stated_eq]
  obtain rfl : generation = none := h.generation
  cases value with
  | none => rfl
  | some d =>
    obtain rfl := (h.timed d rfl).1
    rfl

end Column.Restorable

theorem ColumnClause.restorable_column {c : ColumnClause} (hname : Closed c.name)
    (htimed : c.Timed) :
    c.column.Restorable := by
  refine ⟨hname, rfl, fun d hd ↦ ?_⟩
  change d ∈ (if c.commitTimestamp then some ColumnDefault.commitTimestamp else none) at hd
  split at hd
  · exact ⟨(Option.some.inj hd).symm, htimed ‹_›⟩
  · contradiction

namespace Column.Restorable

variable {d : Column} (h : d.Restorable)

include h

theorem alter (c : ColumnClause) : (Column.alter c.plain.column d).Restorable :=
  ⟨h.closed, h.generation, fun _ he ↦ absurd he (Option.not_mem_none _)⟩

/-- A column that has been made one of timestamps may hold the commit timestamp. -/
theorem permit {c : ColumnClause} (htype : c.type = .timestamp) :
    ((Column.alter c.plain.column d).permit true).Restorable :=
  ⟨h.closed, h.generation, fun _ he ↦ ⟨(Option.some.inj he).symm, htype⟩⟩

end Column.Restorable

/-! ## Tables -/

/-- An index as it is listed: a stored column without a name is none. -/
def Index.listed (i : Index) : Index := { i with storing := i.storing.filter (· != "") }

namespace Table

/-- The names of the indices. -/
def indexNames (t : Table) : List String := t.indices.map (·.name)

/-- The table as it is created again: its foreign key is the one to its parent. -/
def restored (t : Table) : Table :=
  { t with foreignKeys := (t.interleave.map (Dump.parentKey t.name)).toList }

/-- Its columns, its key and its indices can be written down. -/
structure Restorable (t : Table) : Prop where
  columns : ∀ c ∈ t.columns, c.Restorable
  key : ∀ n ∈ t.primaryKey, Listable n
  indices : ∀ i ∈ t.indices, i.Readable

theorem restorable_declared {name : String} {columns : List ColumnClause} {key : List KeyPart}
    {parent : Option Interleave} (h : Declarable name columns key parent)
    (htimed : ∀ c ∈ columns, c.Timed) :
    (declared name columns key parent).Restorable := by
  refine ⟨fun c hc ↦ ?_, fun n hn ↦ ?_, fun i hi ↦ absurd hi List.not_mem_nil⟩
  · obtain ⟨d, hd, rfl⟩ := List.mem_map.1 hc
    obtain ⟨clause, hclause, rfl⟩ := List.mem_map.1 hd
    exact (clause.restorable_column (h.closed clause hclause) (htimed clause hclause)).congr rfl
      rfl rfl rfl
  · obtain ⟨p, hp, rfl⟩ := List.mem_map.1 hn
    exact h.listable p hp

/-- Changing a column twice is changing it once. -/
theorem modifyColumn_modifyColumn (t : Table) (column : String) {f g : Column → Column}
    (hf : ∀ c, (f c).name = c.name) :
    (t.modifyColumn column f).modifyColumn column g = t.modifyColumn column (g ∘ f) := by
  have hfirst : ∀ cs : List Column,
      modifyFirst column g (modifyFirst column f cs) = modifyFirst column (g ∘ f) cs := by
    intro cs
    induction cs with
    | nil => rfl
    | cons c cs ih =>
      by_cases hc : (c.name == column) = true
      · rw [modifyFirst, modifyFirst, if_pos hc, if_pos hc, modifyFirst, if_pos (by rwa [hf])]
        rfl
      · rw [modifyFirst, modifyFirst, if_neg hc, if_neg hc, modifyFirst, if_neg hc, ih]
  exact congrArg (fun cs ↦ { t with columns := cs }) (hfirst t.columns)

namespace Restorable

variable {t : Table} (h : t.Restorable)

include h

theorem timed : t.Timed := by
  intro c hc hstated
  rw [(h.columns c hc).stated_eq] at hstated
  exact ((h.columns c hc).timed _ hstated).2

theorem shown_eq : t.shown = t.restored := by
  have hcolumns : t.columns.map Column.shown = t.columns :=
    (List.map_congr_left (g := id) fun c hc ↦ (h.columns c hc).shown_eq).trans (List.map_id _)
  rw [shown, restored, hcolumns]

theorem storable (hsound : t.Sound) (hregular : t.Regular) : t.Storable := by
  refine hsound.storable hregular (fun n hn ↦ ?_) h.key h.indices
  obtain ⟨c, hc, rfl⟩ := List.mem_map.1 hn
  exact (h.columns c hc).closed

theorem restored : t.restored.Restorable := ⟨h.columns, h.key, h.indices⟩

theorem registerIndex {i : Index} (hi : i.Readable) : (t.registerIndex i).Restorable := by
  rw [registerIndex_eq]
  refine ⟨fun c hc ↦ ?_, h.key, fun j hj ↦ ?_⟩
  · obtain ⟨d, hd, rfl⟩ := List.mem_map.1 hc
    exact (h.columns d hd).congr rfl rfl rfl rfl
  · rcases List.mem_append.1 hj with hj | hj
    · exact h.indices j hj
    · exact List.mem_singleton.1 hj ▸ hi

theorem dropIndex (index : String) : (t.dropIndex index).Restorable := by
  refine ⟨fun c hc ↦ ?_, h.key, fun i hi ↦ h.indices i (List.mem_filter.1 hi).1⟩
  obtain ⟨d, hd, rfl⟩ := List.mem_map.1 hc
  exact (h.columns d hd).congr rfl rfl rfl rfl

theorem appendColumn {c : Column} (hc : c.Restorable) : (t.appendColumn c).Restorable := by
  refine ⟨fun d hd ↦ ?_, h.key, h.indices⟩
  rcases List.mem_append.1 hd with hd | hd
  · exact h.columns d hd
  · exact List.mem_singleton.1 hd ▸ hc

theorem eraseColumn (column : String) : (t.eraseColumn column).Restorable :=
  ⟨fun c hc ↦ h.columns c (List.mem_filter.1 hc).1, h.key, h.indices⟩

theorem modifyColumn (hsound : t.Sound) (column : String) {f : Column → Column}
    (hf : ∀ c, c.Restorable → (f c).Restorable) : (t.modifyColumn column f).Restorable := by
  refine ⟨fun c hc ↦ ?_, h.key, h.indices⟩
  rw [Table.modifyColumn, modifyFirst_eq_map hsound.distinct] at hc
  obtain ⟨d, hd, rfl⟩ := List.mem_map.1 hc
  split
  · exact hf d (h.columns d hd)
  · exact h.columns d hd

end Restorable

end Table

namespace StoredTable

variable {t : StoredTable}

theorem restorable_rename (h : t.schema.Restorable) {new : String} (hnew : Legible new) :
    (t.rename new).schema.Restorable := by
  refine ⟨h.columns, h.key, fun i hi ↦ ?_⟩
  obtain ⟨j, hj, rfl⟩ := List.mem_map.1 hi
  have hreadable := h.indices j hj
  exact ⟨hreadable.name, hnew, hreadable.columns_ne_nil, hreadable.referenced,
    hreadable.interleaveIn⟩

theorem restorable_renameParent (h : t.schema.Restorable) (old new : String) :
    (t.renameParent old new).schema.Restorable :=
  ⟨h.columns, h.key, h.indices⟩

theorem indexNames_rename (t : StoredTable) (new : String) :
    (t.rename new).schema.indexNames = t.schema.indexNames := by
  rw [Table.indexNames, rename, List.map_map]
  rfl

end StoredTable

/-! ## Databases -/

namespace Database

variable {db db' : Database}

/-- Its tables can be written down, and no two indices have one name. -/
structure Restorable (db : Database) : Prop where
  tables : ∀ (n : String) (t : StoredTable), db.tables[n]? = some t → t.schema.Restorable
  distinct : ∀ (n : String) (t : StoredTable), db.tables[n]? = some t → t.schema.indexNames.Nodup
  apart : ∀ (n m : String) (t u : StoredTable), db.tables[n]? = some t → db.tables[m]? = some u →
    ∀ i ∈ t.schema.indexNames, i ∈ u.schema.indexNames → n = m

theorem notMem_of_indexOwner? {index : String} (h : db.indexOwner? index = none) {n : String}
    {t : StoredTable} (ht : db.tables[n]? = some t) : index ∉ t.schema.indexNames := by
  intro hindex
  obtain ⟨i, hi, rfl⟩ := List.mem_map.1 hindex
  have hmem : t.schema ∈ db.schema.values := mem_values.2 ⟨n, by rw [getElem?_schema, ht]; rfl⟩
  refine List.find?_eq_none.1 h _ hmem (List.find?_isSome.2 ⟨i, hi, beq_self_eq_true _⟩)

theorem restorable_empty : Restorable {} := by
  refine ⟨fun n t ht ↦ ?_, fun n t ht ↦ ?_, fun n m t u ht ↦ ?_⟩
  all_goals
    rw [getElem?_empty] at ht
    contradiction

namespace Restorable

variable (h : db.Restorable)

include h

theorem of_schema (hschema : db'.schema = db.schema) : db'.Restorable := by
  refine ⟨fun n t ht ↦ ?_, fun n t ht ↦ ?_, fun n m t u ht hu i hi hi' ↦ ?_⟩
  · obtain ⟨v, hv, hsame⟩ := exists_of_schema_eq hschema ht
    exact hsame ▸ h.tables n v hv
  · obtain ⟨v, hv, hsame⟩ := exists_of_schema_eq hschema ht
    exact hsame ▸ h.distinct n v hv
  · obtain ⟨v, hv, hsame⟩ := exists_of_schema_eq hschema ht
    obtain ⟨w, hw, hsame'⟩ := exists_of_schema_eq hschema hu
    exact h.apart n m v w hv hw i (hsame ▸ hi) (hsame' ▸ hi')

theorem store {n : String} {u : StoredTable} (hu : u.schema.Restorable)
    (hdistinct : u.schema.indexNames.Nodup)
    (hapart : ∀ (m : String) (t : StoredTable), n ≠ m → db.tables[m]? = some t →
      ∀ i ∈ u.schema.indexNames, i ∉ t.schema.indexNames) : (db.store n u).Restorable := by
  refine ⟨fun m t ht ↦ ?_, fun m t ht ↦ ?_, fun m k t v ht hv i hi hi' ↦ ?_⟩
  · rw [getElem?_store] at ht
    split at ht
    · exact Option.some.inj ht ▸ hu
    · exact h.tables m t ht
  · rw [getElem?_store] at ht
    split at ht
    · exact Option.some.inj ht ▸ hdistinct
    · exact h.distinct m t ht
  · rw [getElem?_store] at ht hv
    split at ht <;> split at hv
    · exact (‹n = m›).symm.trans ‹n = k›
    · exact absurd hi' (hapart k v ‹_› hv i (Option.some.inj ht ▸ hi))
    · exact absurd hi (hapart m t ‹_› ht i (Option.some.inj hv ▸ hi'))
    · exact h.apart m k t v ht hv i hi hi'

/-- A table may lose indices where it is. -/
theorem store_sublist {n : String} {t u : StoredTable} (ht : db.tables[n]? = some t)
    (hu : u.schema.Restorable) (hindices : u.schema.indexNames.Sublist t.schema.indexNames) :
    (db.store n u).Restorable :=
  h.store hu (hindices.nodup (h.distinct n t ht)) fun m v hne hv i hi hi' ↦
    hne (h.apart n m t v ht hv i (hindices.subset hi) hi')

/-- A table may get an index that no table has. -/
theorem store_index {n : String} {t u : StoredTable} (ht : db.tables[n]? = some t)
    (hu : u.schema.Restorable) {index : String} (howner : db.indexOwner? index = none)
    (hindices : u.schema.indexNames = t.schema.indexNames ++ [index]) :
      (db.store n u).Restorable := by
  refine h.store hu ?_ fun m v hne hv i hi hi' ↦ ?_
  · rw [hindices]
    refine List.nodup_append.2 ⟨h.distinct n t ht, List.nodup_singleton _, ?_⟩
    rintro i hi j hj rfl
    exact notMem_of_indexOwner? howner ht (List.mem_singleton.1 hj ▸ hi)
  · rw [hindices] at hi
    rcases List.mem_append.1 hi with hi | hi
    · exact hne (h.apart n m t v ht hv i hi hi')
    · exact notMem_of_indexOwner? howner hv (List.mem_singleton.1 hi ▸ hi')

theorem erase (n : String) : Restorable { db with tables := db.tables.erase n } := by
  have hold {m : String} {t : StoredTable} (ht : (db.tables.erase n)[m]? = some t) :
      db.tables[m]? = some t := by
    rw [Std.ExtTreeMap.getElem?_erase] at ht
    split at ht
    · contradiction
    · exact ht
  exact ⟨fun m t ht ↦ h.tables m t (hold ht), fun m t ht ↦ h.distinct m t (hold ht),
    fun m k t u ht hu ↦ h.apart m k t u (hold ht) (hold hu)⟩

theorem renamed {old new : String} (hnew : Legible new) {t : StoredTable}
    (ht : db.tables[old]? = some t) : (db.renamed old new t).Restorable := by
  -- Every table of the new database goes back to one of the old, under the name that it had there.
  have hold {m : String} {u : StoredTable} (hu : (db.renamed old new t).tables[m]? = some u) :
      ∃ v, db.tables[formerName old new m]? = some v ∧
        u.schema.indexNames = v.schema.indexNames ∧ u.schema.Restorable := by
    rcases renamed_cases hu with ⟨rfl, rfl⟩ | ⟨hm, -, v, hv, rfl⟩
    · exact ⟨t, (formerName_self old m).symm ▸ ht, t.indexNames_rename m,
        StoredTable.restorable_rename (h.tables old t ht) hnew⟩
    · exact ⟨v, (formerName_of_ne hm).symm ▸ hv, rfl,
        StoredTable.restorable_renameParent (h.tables m v hv) old new⟩
  have hback {m k : String} {u v : StoredTable} (hu : (db.renamed old new t).tables[m]? = some u)
      (hv : (db.renamed old new t).tables[k]? = some v)
      (he : formerName old new m = formerName old new k) : m = k := by
    rcases renamed_cases hu with ⟨hm, -⟩ | ⟨hm, hmold, -⟩ <;>
      rcases renamed_cases hv with ⟨hk, -⟩ | ⟨hk, hkold, -⟩
    · exact hm.trans hk.symm
    · rw [hm, formerName_self, formerName_of_ne hk] at he
      exact absurd he.symm hkold
    · rw [hk, formerName_self, formerName_of_ne hm] at he
      exact absurd he hmold
    · rwa [formerName_of_ne hm, formerName_of_ne hk] at he
  refine ⟨fun m u hu ↦ ?_, fun m u hu ↦ ?_, fun m k u v hu hv i hi hi' ↦ ?_⟩
  · obtain ⟨-, -, -, hrestorable⟩ := hold hu
    exact hrestorable
  · obtain ⟨v, hv, hnames, -⟩ := hold hu
    exact hnames ▸ h.distinct _ v hv
  · obtain ⟨u', hu', hunames, -⟩ := hold hu
    obtain ⟨v', hv', hvnames, -⟩ := hold hv
    exact hback hu hv (h.apart _ _ u' v' hu' hv' i (hunames ▸ hi) (hvnames ▸ hi'))

end Restorable

/-! ## Statements -/

/-- Everything that makes a database one whose dump can be executed. -/
structure Orderly (db : Database) : Prop where
  sound : db.Sound
  regular : db.Regular
  rooted : db.Rooted
  restorable : db.Restorable

theorem orderly_empty : Orderly {} := ⟨sound_empty, regular_empty, rooted_empty, restorable_empty⟩

namespace Orderly

variable (h : db.Orderly)

include h

/-- Of the rows it only matters that they fit the tables. -/
theorem of_schema (hsound : db'.Sound) (hschema : db'.schema = db.schema) : db'.Orderly :=
  ⟨hsound, regular_of_schema h.regular hschema, h.rooted.of_schema hschema,
   h.restorable.of_schema hschema⟩

theorem call {c : Call} (hc : ∀ sql, c ≠ .updateDdl sql) : (c.apply db).Orderly :=
  h.of_schema (h.sound.call c) (schema_apply hc db)

/-- It does not matter which statements have been accepted. -/
theorem applied (statements : List String) : Orderly { db with appliedDdl := statements } :=
  h.of_schema ⟨h.sound.named, h.sound.tables⟩ rfl

theorem of_run {statement : String} (hok : db.run statement = .ok db')
    (hrestorable : db'.Restorable) :
    db'.Orderly :=
  ⟨h.sound.run hok, h.regular.run h.sound hok, h.rooted.run h.sound hok, hrestorable⟩

theorem storable {n : String} {t : StoredTable} (ht : db.tables[n]? = some t) : t.schema.Storable :=
  (h.restorable.tables n t ht).storable (h.sound.tables n t ht).schema (h.regular n t ht)

/-- An accepted index is registered with its table, without the names that say nothing. -/
theorem of_run_createIndex {i : Index} (htame : (Ddl.createIndex i).Tame)
    (hok : db.run i.sql = .ok db') :
    ∃ t, db.tables[i.table]? = some t ∧ db.indexOwner? i.name = none ∧ i.listed.Readable ∧
      db' = db.store i.table { t with schema := t.schema.restored.registerIndex i.listed } := by
  obtain ⟨-, t, own, parsed, u, howner, ht, hown, hparse, hu, rfl⟩ :=
    Database.of_run_createIndex htame hok
  have hname := h.sound.named i.table t ht
  obtain ⟨items, hitems, hlookup⟩ :=
    (h.sound.tables i.table t ht).schema.lookup_of_parse hown hparse
  have hitems : Dump.readItems ([i].map Index.sql) = .ok items := hitems
  obtain ⟨js, rfl, hjs⟩ := Dump.exists_of_readItems_indices hitems
  obtain ⟨j, js, hread, hnil, rfl⟩ := mapM_cons_eq_ok hjs
  obtain rfl : js = [] := (Except.ok.inj hnil).symm
  have hnames : ∀ n ∈ i.referenced ++ i.interleaveIn.toList, Tame n := fun n hn ↦
    htame n (List.mem_cons_of_mem _ (List.mem_cons_of_mem _ hn))
  obtain ⟨hj, hreadable⟩ := Dump.of_readIndex (htame i.name List.mem_cons_self).noBacktick
    (htame i.table (List.mem_cons_of_mem _ List.mem_cons_self)).noBacktick
    (fun n hn ↦ (hnames n (List.mem_append_left _ hn)).balanced)
    (fun p hp ↦ (hnames p (List.mem_append_right _ (Option.mem_toList.2 hp))).noBacktick) hread
  obtain rfl : j = i.listed := hj
  have hfilter : (Dump.indices ([i.listed].map .index)).filter (·.table == t.schema.name) =
      [i.listed] := by
    rw [Dump.indices_map_index, hname, List.filter_cons_of_pos (by exact beq_self_eq_true i.table)]
    rfl
  -- What is read of the table is the table, but for foreign keys that no statement of it tells.
  have hown : t.schema.indices.foldl Table.registerIndex t.schema.bare = t.schema.restored :=
    ((h.storable ht).foldl_registerIndex (KeyPart.map_name_asc _)).trans
      (h.restorable.tables _ t ht).shown_eq
  rw [hfilter, List.foldl_append, hown, hname, hu] at hlookup
  obtain rfl := Option.some.inj hlookup
  exact ⟨t, ht, howner, hreadable, rfl⟩

end Orderly

/-- What a statement does, if it is accepted, decides what a batch of it alone does. -/
theorem Orderly.of_execute (h : db.Orderly) {statement : String}
    (hrun : ∀ db', db.run statement = .ok db' → db'.Restorable) :
    (ending (updateDdl [statement]) db).Orderly := by
  change (ending (execute statement >>= fun _ ↦ updateDdl []) db).Orderly
  rcases execute_cases statement db with ⟨e, he⟩ | ⟨db', hok, he⟩
  · rw [ending_bind_of_error he]
    exact h
  · rw [ending_bind_of_ok he]
    exact (h.of_run hok (hrun db' hok)).applied _

/-- A column is made one of timestamps before it is told to hold the commit timestamp. -/
theorem Orderly.of_alterColumn (h : db.Orderly) {table : String} {c : ColumnClause}
    (htimed : c.Timed) (halter : (Ddl.alterColumn table c).Tame) :
    (ending (updateDdl ((Ddl.alterColumn table c :: if c.commitTimestamp then
      [Ddl.allowCommitTimestamp table c.name] else []).map Ddl.text)) db).Orderly := by
  have hallow : (Ddl.allowCommitTimestamp table c.name).Tame := halter
  rw [List.map_cons]
  change (ending (execute (Ddl.alterColumn table c).text >>= fun _ ↦ updateDdl _) db).Orderly
  rcases execute_cases (Ddl.alterColumn table c).text db with ⟨e, he⟩ | ⟨m, hok, he⟩
  · rw [ending_bind_of_error he]
    exact h
  · obtain ⟨t, ht, -, -, rfl⟩ := of_run_alterColumn halter hok
    have hsound := (h.sound.tables table t ht).schema
    have haltered : (t.schema.modifyColumn c.name (Column.alter c.plain.column)).Restorable :=
      (h.restorable.tables table t ht).modifyColumn hsound c.name fun d hd ↦ hd.alter c
    have hm := (h.of_run hok (h.restorable.store_sublist ht haltered (List.Sublist.refl _))).applied
      (db.appliedDdl ++ [(Ddl.alterColumn table c).text])
    rw [ending_bind_of_ok he]
    split
    · rename_i htimestamp
      refine hm.of_execute fun db' hok' ↦ ?_
      obtain ⟨u, hu, -, rfl⟩ := of_run_allowCommitTimestamp hallow hok'
      -- The second statement finds the column as the first has left it, so both changes can be made
      -- at once.
      obtain rfl := Option.some.inj (((getElem?_store ..).trans (if_pos rfl)).symm.trans hu)
      refine hm.restorable.store_sublist hu ?_ (List.Sublist.refl _)
      dsimp only
      rw [Table.modifyColumn_modifyColumn _ _ (Column.name_alter _)]
      exact (h.restorable.tables table t ht).modifyColumn hsound c.name fun d hd ↦
        hd.permit (htimed htimestamp)
    · exact hm

/-- The statements of a batch leave a database orderly, as far as they are accepted. -/
theorem keeps_orderly_of_mirrors {lenient : Prop} {ds : List Ddl} {delta : Delta}
    (hmirrors : Mirrors lenient ds delta) (htame : ∀ d ∈ ds, d.Tame) :
    Keeps Orderly (updateDdl (ds.map Ddl.text)) := by
  -- The pieces are those of a batch that belong together. Only two statements do: the one that
  -- alters a column and the one that permits it to hold the commit timestamp.
  induction hmirrors with
  | nil => exact .pure _
  | @createTable table ifNotExists columns key interleaves facts _ hkey htimed _ =>
    refine fun db h ↦ h.of_execute fun db' hok ↦ ?_
    have htame := htame _ List.mem_cons_self
    have hparents : ∀ i ∈ interleaves, '\x60' ∉ i.parent.toList := fun i hi ↦
      (htame _
        (List.mem_cons_of_mem _ (List.mem_append_right _ (List.mem_map_of_mem hi)))).noBacktick
    rcases of_run_createTable (htame _ List.mem_cons_self).noBacktick
        (fun c hc ↦ (htame.clauses c hc).noBacktick) hkey hparents hok with
      ⟨-, -, rfl⟩ | ⟨-, parent, -, hdeclarable, -, rfl⟩
    · exact h.restorable
    · exact h.restorable.store (Table.restorable_declared hdeclarable htimed) List.nodup_nil
        fun _ _ _ _ _ hi ↦ absurd hi List.not_mem_nil
  | @createIndex i _ =>
    refine fun db h ↦ h.of_execute fun db' hok ↦ ?_
    obtain ⟨t, ht, howner, hreadable, rfl⟩ := h.of_run_createIndex (htame _ List.mem_cons_self) hok
    have hrestored := (h.restorable.tables _ t ht).restored.registerIndex hreadable
    refine h.restorable.store_index ht hrestored howner ?_
    rw [Table.indexNames, Table.registerIndex_eq]
    exact List.map_append
  | dropIndex name =>
    refine fun db h ↦ h.of_execute fun db' hok ↦ ?_
    obtain ⟨owner, t, -, ht, rfl⟩ := of_run_dropIndex (htame _ List.mem_cons_self) hok
    exact h.restorable.store_sublist ht ((h.restorable.tables _ t ht).dropIndex name)
      (List.filter_sublist.map _)
  | @addColumn table c _ htimed _ =>
    refine fun db h ↦ h.of_execute fun db' hok ↦ ?_
    have htame := htame _ List.mem_cons_self
    obtain ⟨t, ht, hreadable, -, rfl⟩ := of_run_addColumn htame hok
    have hclosed : Closed c.name :=
      hreadable.name.closed (htame.clauses c List.mem_cons_self).noBackslash
    exact h.restorable.store_sublist ht
      ((h.restorable.tables _ t ht).appendColumn (c.restorable_column hclosed htimed))
      (List.Sublist.refl _)
  | dropColumn table column =>
    refine fun db h ↦ h.of_execute fun db' hok ↦ ?_
    obtain ⟨t, ht, -, -, -, rfl⟩ := of_run_dropColumn (htame _ List.mem_cons_self) hok
    exact h.restorable.store_sublist ht ((h.restorable.tables _ t ht).eraseColumn column)
      (List.Sublist.refl _)
  | @alterColumn table c _ htimed _ =>
    exact fun db h ↦ h.of_alterColumn htimed (htame _ List.mem_cons_self)
  | renameTable old new =>
    refine fun db h ↦ h.of_execute fun db' hok ↦ ?_
    obtain ⟨hlegible, t, ht, -, rfl⟩ := of_run_renameTable (htame _ List.mem_cons_self) hok
    exact h.restorable.renamed hlegible ht
  | dropTable table ifExists =>
    refine fun db h ↦ h.of_execute fun db' hok ↦ ?_
    rcases of_run_dropTable (htame _ List.mem_cons_self) hok with ⟨-, rfl⟩ | ⟨t, -, -, rfl⟩
    · exact h.restorable
    · exact h.restorable.erase table
  | @append ds ds' _ _ _ _ ih ih' =>
    have happend : updateDdl ((ds ++ ds').map Ddl.text)
        = (do updateDdl (ds.map Ddl.text); updateDdl (ds'.map Ddl.text)) := by
      rw [List.map_append]
      exact List.forM_append
    rw [happend]
    exact .bind (ih fun d hd ↦ htame d (List.mem_append_left _ hd)) fun _ ↦
      ih' fun d hd ↦ htame d (List.mem_append_right _ hd)

/-- A database that has had nothing but batches of statements with tame names, each of them as far
as it was accepted. -/
inductive Migrated : Database → Prop
  | empty : Migrated {}
  | batch {db : Database} {statements : List Statement} {lowered : Lowered} (migrated : Migrated db)
      (tame : ∀ s ∈ statements, ∀ n ∈ s.names, Tame n)
      (lower : Statement.lowerAll statements = .ok lowered) :
          Migrated (ending (updateDdl lowered.sql) db)

theorem Migrated.orderly (h : db.Migrated) : db.Orderly := by
  induction h with
  | empty => exact orderly_empty
  | batch _ htame hlower ih =>
    have hmirrors : Mirrors True _ _ := Statement.mirrors_of_lowerAll hlower fun _ _ _ ↦ trivial
    exact keeps_orderly_of_mirrors hmirrors (Statement.tame_of_lowerAll hlower htame) _ ih

end Database

end SchemaLedger
