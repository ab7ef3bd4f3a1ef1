import Mathlib
import SchemaLedger.Proofs.Database.Alteration

/-!
# What a rename follows and what it does not

A table is named in five places: where it is kept, by its indices, by the tables interleaved in it,
by the foreign keys that such tables are shown with, and by indices interleaved in it. A rename
follows the first three. The foreign keys and the indices interleaved in the table go on naming a
table that is not there any more.
-/

namespace SchemaLedger

/-- The name that stands for a table's name once a table has another name. -/
def follow (old new n : String) : String := if n = old then new else n

theorem follow_old (old new : String) : follow old new old = new := if_pos rfl

theorem follow_of_ne {old new n : String} (h : n ≠ old) : follow old new n = n := if_neg h

namespace Table

/-- The table with the names of tables changed, but for those in its foreign keys and those in which
its indices are interleaved. -/
def relabel (f : String → String) (t : Table) : Table :=
  { t with
    name := f t.name
    indices := t.indices.map fun i ↦ { i with table := f i.table }
    interleave := t.interleave.map fun i ↦ { i with parent := f i.parent } }

/-- The table with all names of tables changed. -/
def relabelAll (f : String → String) (t : Table) : Table :=
  { t with
    name := f t.name
    indices := t.indices.map fun i ↦
      { i with table := f i.table, interleaveIn := i.interleaveIn.map f }
    foreignKeys := t.foreignKeys.map fun k ↦ { k with referencedTable := f k.referencedTable }
    interleave := t.interleave.map fun i ↦ { i with parent := f i.parent } }

/-- The tables that the foreign keys name and those in which the indices are interleaved. -/
def passedOver (t : Table) : List String :=
  t.foreignKeys.map (·.referencedTable) ++ t.indices.filterMap (·.interleaveIn)

theorem passedOver_relabel (f : String → String) (t : Table) :
    (t.relabel f).passedOver = t.passedOver := by
  rw [passedOver, passedOver, relabel, List.filterMap_map]
  rfl

/-- All names are changed exactly if those that are passed over stay as they are. -/
theorem relabel_eq_relabelAll_iff {f : String → String} {t : Table} :
    t.relabel f = t.relabelAll f ↔ ∀ n ∈ t.passedOver, f n = n := by
  have hkeys : t.foreignKeys =
      t.foreignKeys.map (fun k ↦ { k with referencedTable := f k.referencedTable }) ↔
      ∀ k ∈ t.foreignKeys, f k.referencedTable = k.referencedTable := by
    constructor
    · intro h k hk
      exact (congrArg ForeignKey.referencedTable
        (List.map_inj_left.1 (h.symm.trans (List.map_id _).symm) k hk))
    · intro h
      refine (List.map_id _).symm.trans (List.map_congr_left fun k hk ↦ ?_)
      rw [h k hk]
      rfl
  have hindices : (t.indices.map fun i ↦ { i with table := f i.table })
      = (t.indices.map fun i ↦
        { i with table := f i.table, interleaveIn := i.interleaveIn.map f }) ↔
      ∀ i ∈ t.indices, i.interleaveIn.map f = i.interleaveIn := by
    constructor
    · exact fun h i hi ↦ (congrArg Index.interleaveIn (List.map_inj_left.1 h i hi)).symm
    · intro h
      refine List.map_congr_left fun i hi ↦ ?_
      rw [h i hi]
  have hnames : (∀ n ∈ t.passedOver, f n = n) ↔
      (∀ k ∈ t.foreignKeys, f k.referencedTable = k.referencedTable) ∧
        ∀ i ∈ t.indices, i.interleaveIn.map f = i.interleaveIn := by
    simp only [passedOver, List.mem_append, or_imp, forall_and, List.forall_mem_map,
      List.mem_filterMap, forall_exists_index, and_imp]
    refine and_congr_right fun _ ↦ ⟨fun h i hi ↦ ?_, fun h n i hi hn ↦ ?_⟩
    · cases hn : i.interleaveIn with
      | none => rfl
      | some n => exact congrArg some (h n i hi hn)
    · have hsame := h i hi
      rw [hn] at hsame
      exact Option.some.inj hsame
  rw [hnames, ← hkeys, ← hindices, relabel, relabelAll]
  simp only [Table.mk.injEq, true_and, and_true]
  exact and_comm

theorem relabel_eq_relabelAll_iff_of_ne {old new : String} (hne : old ≠ new) {t : Table} :
    t.relabel (follow old new) = t.relabelAll (follow old new) ↔ old ∉ t.passedOver := by
  rw [relabel_eq_relabelAll_iff]
  constructor
  · exact fun h hmem ↦ hne ((h old hmem).symm.trans (follow_old old new))
  · exact fun h n hn ↦ follow_of_ne fun heq ↦ h (heq ▸ hn)

end Table

namespace Database

variable {db db' : Database} {old new : String}

/-! ## From nothing -/

theorem Rooted.call (h : db.Rooted) (hsound : db.Sound) (c : Call) : (c.apply db).Rooted :=
  of_call (fun hschema h ↦ h.of_schema hschema) (fun hsound h hok ↦ h.run hsound hok) hsound h c

theorem Rooted.foldl (h : db.Rooted) (hsound : db.Sound) (calls : List Call) :
    (calls.foldl (fun db c ↦ c.apply db) db).Sound ∧
    (calls.foldl (fun db c ↦ c.apply db) db).Rooted := by
  induction calls generalizing db with
  | nil => exact ⟨hsound, h⟩
  | cons c calls ih => exact ih (h.call hsound c) (hsound.call c)

/-! ## A rename -/

theorem ne_of_none {name n : String} (hname : db.tables[name]? = none) {t : StoredTable}
    (ht : db.tables[n]? = some t) : n ≠ name := by
  rintro rfl
  rw [hname] at ht
  contradiction

theorem renamed_old {t : StoredTable} (ht : db.tables[old]? = some t)
    (hnew : db.tables[new]? = none) :
    (db.renamed old new t).tables[old]? = none := by
  rw [getElem?_renamed, if_neg (Ne.symm (ne_of_none hnew ht)), if_pos rfl]

/-- No table is its own parent. -/
theorem Rooted.parent_ne (h : db.Rooted) {n : String} {t : StoredTable}
    (ht : db.tables[n]? = some t)
    {i : Interleave} (hi : i ∈ t.schema.interleave) : i.parent ≠ n := by
  obtain ⟨rank, hrank⟩ := h.ranked
  exact fun hn ↦ Nat.lt_irrefl _ (hn ▸ hrank n t ht i hi)

/-- The renamed table is the one that was there, under its new name. -/
theorem rename_eq_relabel (hsound : db.Sound) (hrooted : db.Rooted) {t : StoredTable}
    (ht : db.tables[old]? = some t) (new : String) :
    t.rename new = t.mapSchema (Table.relabel (follow old new)) := by
  have hname : t.schema.name = old := hsound.named old t ht
  have hindices : t.schema.indices.map ({ · with table := new })
      = t.schema.indices.map fun i ↦ { i with table := follow old new i.table } := by
    refine List.map_congr_left fun i hi ↦ ?_
    rw [(hsound.tables old t ht).schema.named i hi, hname, follow_old]
  have hparent : t.schema.interleave
      = t.schema.interleave.map fun i ↦ { i with parent := follow old new i.parent } := by
    refine Option.map_id'.symm.trans (Option.map_congr fun i hi ↦ ?_)
    rw [follow_of_ne (hrooted.parent_ne ht hi)]
  rw [StoredTable.rename, StoredTable.mapSchema, Table.relabel, ← hparent, ← hindices, hname,
    follow_old]

/-- Any other table only follows as a child. -/
theorem renameParent_eq_relabel (hsound : db.Sound) {n : String} {t : StoredTable}
    (ht : db.tables[n]? = some t) (hn : n ≠ old) (new : String) :
    t.renameParent old new = t.mapSchema (Table.relabel (follow old new)) := by
  have hname : t.schema.name ≠ old := hsound.named n t ht ▸ hn
  have hindices : t.schema.indices
      = t.schema.indices.map fun i ↦ { i with table := follow old new i.table } := by
    refine (List.map_id' _).symm.trans (List.map_congr_left fun i hi ↦ ?_)
    rw [(hsound.tables n t ht).schema.named i hi, follow_of_ne hname,
      ← (hsound.tables n t ht).schema.named i hi]
  have hparent :
      (t.schema.interleave.map fun i ↦ if i.parent = old then { i with parent := new } else i)
      = t.schema.interleave.map fun i ↦ { i with parent := follow old new i.parent } := by
    refine Option.map_congr fun i _ ↦ ?_
    rw [follow]
    split <;> rfl
  rw [StoredTable.renameParent, StoredTable.mapSchema, Table.relabel, ← hindices, hparent,
    follow_of_ne hname]

section

variable (hsound : db.Sound) (hrooted : db.Rooted) {t : StoredTable} (ht : db.tables[old]? = some t)

include hsound hrooted ht

/-- After a rename every table is there under the name that its own stands for. -/
theorem getElem?_follow {n : String} (hn : n ≠ new) :
    (db.renamed old new t).tables[follow old new n]?
      = db.tables[n]?.map (.mapSchema (Table.relabel (follow old new))) := by
  rw [getElem?_renamed]
  by_cases hold : n = old
  · subst hold
    rw [if_pos (follow_old n new).symm, ht, rename_eq_relabel hsound hrooted ht, Option.map_some]
  · rw [follow_of_ne hold, if_neg (Ne.symm hn), if_neg (Ne.symm hold)]
    refine Option.map_congr fun u hu ↦ ?_
    exact renameParent_eq_relabel hsound hu hold new

/-- Every table that is there after a rename comes from one that was there before. -/
theorem exists_of_renamed (hnew : db.tables[new]? = none) {n : String} {u : StoredTable}
    (hu : (db.renamed old new t).tables[n]? = some u) :
    ∃ (m : String) (v : StoredTable), db.tables[m]? = some v ∧
      v.mapSchema (Table.relabel (follow old new)) = u := by
  have hpre : ∃ m ≠ new, follow old new m = n := by
    by_cases hn : n = new
    · exact ⟨old, ne_of_none hnew ht, (follow_old old new).trans hn.symm⟩
    · refine ⟨n, hn, follow_of_ne ?_⟩
      rintro rfl
      rw [renamed_old ht hnew] at hu
      contradiction
  obtain ⟨m, hm, rfl⟩ := hpre
  obtain ⟨v, hv, huv⟩ :=
    Option.map_eq_some_iff.1 ((getElem?_follow hsound hrooted ht hm).symm.trans hu)
  exact ⟨m, v, hv, huv⟩

end

/-- In a sound database where every parent is there, a name that is no table's is not the name of a
table, an owner or a parent. -/
theorem unnamed_of_none (hsound : db.Sound) (hrooted : db.Rooted) {name : String}
    (hname : db.tables[name]? = none) {n : String} {t : StoredTable} (ht : db.tables[n]? = some t) :
    t.schema.name ≠ name ∧ (∀ i ∈ t.schema.indices, i.table ≠ name) ∧
      ∀ i ∈ t.schema.interleave, i.parent ≠ name := by
  have hne : t.schema.name ≠ name := hsound.named n t ht ▸ ne_of_none hname ht
  refine ⟨hne, fun i hi ↦ (hsound.tables n t ht).schema.named i hi ▸ hne, fun i hi ↦ ?_⟩
  obtain ⟨p, hp⟩ := hrooted.parents n t ht i hi
  exact ne_of_none hname hp

theorem exists_of_renameTo {statement : String}
    (hcommand : Command.ofText? statement = some (.alterTable old (some (.renameTo new))))
    (hok : updateDdl [statement] db = .ok ⟨⟩ db') :
    ∃ t, db.tables[old]? = some t ∧ db.tables[new]? = none ∧
      db.run statement = .ok (db.renamed old new t) ∧
      db' = (db.renamed old new t).log [statement] := by
  obtain ⟨m, hrun, rfl⟩ := exists_of_updateDdl_singleton hok
  have hrename : db.renameTable old new = .ok m := by
    rw [run, hcommand] at hrun
    exact hrun
  obtain ⟨t, ht, hnew, rfl⟩ := renameTable_eq_ok hrename
  exact ⟨t, ht, hnew, hrun, rfl⟩

/-- Whatever calls a database comes about by from nothing, an accepted rename gives the table, with
its rows, the new name. The tables' own names, the owners of indices and the parents follow, so none
of them is the old name any more. All else stays as it is, so foreign keys and the tables in which
indices are interleaved follow exactly if none of them is the old name. -/
theorem renameTo_passes_over {calls : List Call} {statement : String}
    (hcalls : calls.foldl (fun db c ↦ c.apply db) {} = db)
    (hcommand : Command.ofText? statement = some (.alterTable old (some (.renameTo new))))
    (hok : updateDdl [statement] db = .ok ⟨⟩ db') :
    (∃ t, db.tables[old]? = some t) ∧ db.tables[new]? = none ∧ db'.tables[old]? = none ∧
      db' = { db with tables := db'.tables, appliedDdl := db.appliedDdl ++ [statement] } ∧
      (∀ n ≠ new, db'.tables[follow old new n]?
        = db.tables[n]?.map (.mapSchema (Table.relabel (follow old new)))) ∧
      (∀ (n : String) (t : StoredTable), db'.tables[n]? = some t → t.schema.name ≠ old ∧
        (∀ i ∈ t.schema.indices, i.table ≠ old) ∧ ∀ i ∈ t.schema.interleave, i.parent ≠ old) ∧
      ((∀ n ≠ new, db'.tables[follow old new n]?
          = db.tables[n]?.map (.mapSchema (Table.relabelAll (follow old new)))) ↔
        ∀ (n : String) (t : StoredTable), db.tables[n]? = some t → old ∉ t.schema.passedOver) ∧
      ((∀ (n : String) (t : StoredTable), db'.tables[n]? = some t → old ∉ t.schema.passedOver) ↔
        ∀ (n : String) (t : StoredTable), db.tables[n]? = some t → old ∉ t.schema.passedOver) := by
  obtain ⟨t, ht, hnew, hrun, rfl⟩ := exists_of_renameTo hcommand hok
  obtain ⟨hsound, hrooted⟩ := hcalls ▸ rooted_empty.foldl sound_empty calls
  have hne {n : String} {u : StoredTable} (hu : db.tables[n]? = some u) : n ≠ new :=
    ne_of_none hnew hu
  have hfollow (n : String) (hn : n ≠ new) :
      ((db.renamed old new t).log [statement]).tables[follow old new n]?
      = db.tables[n]?.map (.mapSchema (Table.relabel (follow old new))) :=
    getElem?_follow hsound hrooted ht hn
  have hgone := renamed_old ht hnew
  refine ⟨⟨t, ht⟩, hnew, hgone, rfl, hfollow, fun n u hu ↦
    unnamed_of_none (hsound.run hrun) (hrooted.run hsound hrun) hgone hu,
    ⟨fun h n v hv ↦ ?_, fun h n hn ↦ ?_⟩, ⟨fun h n v hv ↦ ?_, fun h n u hu ↦ ?_⟩⟩
  · have hsame := (hfollow n (hne hv)).symm.trans (h n (hne hv))
    rw [hv] at hsame
    exact (Table.relabel_eq_relabelAll_iff_of_ne (hne ht)).1
      (congrArg StoredTable.schema (Option.some.inj hsame))
  · refine (hfollow n hn).trans (Option.map_congr fun v hv ↦ ?_)
    rw [StoredTable.mapSchema, (Table.relabel_eq_relabelAll_iff_of_ne (hne ht)).2 (h n v hv),
      StoredTable.mapSchema]
  · have hafter := hfollow n (hne hv)
    rw [hv] at hafter
    exact Table.passedOver_relabel (follow old new) v.schema ▸ h _ _ hafter
  · obtain ⟨m, v, hv, rfl⟩ := exists_of_renamed hsound hrooted ht hnew hu
    exact (Table.passedOver_relabel (follow old new) v.schema).symm ▸ h m v hv

/-- Rooms of houses, with an index that is kept with the houses. -/
def village : Database :=
  [Call.updateDdl ["CREATE TABLE houses (id int64) PRIMARY KEY (id)",
      "CREATE TABLE rooms (id int64, no int64) PRIMARY KEY (id, no), INTERLEAVE IN PARENT houses",
      "CREATE INDEX room_no ON rooms (id, no), INTERLEAVE IN houses"],
    .upsertRow "houses" ["id"] [.ofNat 7]].foldl (fun db c ↦ c.apply db) {}

set_option synthInstance.maxSize 1024 in
/-- What the village comes to when the houses are called homes. -/
theorem seen_village :
    seen (fun _ db ↦ (db.tables["houses"]?.isSome, db.tables["rooms"]?.map fun t ↦
        (t.schema.interleave.map (·.parent), t.schema.foreignKeys.map (·.referencedTable),
          t.schema.indices.map (·.interleaveIn))))
      (updateDdl ["ALTER TABLE houses RENAME TO homes"]) village
      = some (false, some (some "homes", ["houses"], [some "houses"])) := by
  decide +kernel

theorem village_renameTo :
    ∃ db', updateDdl ["ALTER TABLE houses RENAME TO homes"] village = .ok ⟨⟩ db' ∧
      db'.tables["homes"]? =
        village.tables["houses"]?.map (.mapSchema (Table.relabel (follow "houses" "homes"))) ∧
      db'.tables["rooms"]? =
        village.tables["rooms"]?.map (.mapSchema (Table.relabel (follow "houses" "homes"))) ∧
      ∀ (n : String) (t : StoredTable), db'.tables[n]? = some t →
        t.schema.name ≠ "houses" ∧ ∀ i ∈ t.schema.interleave, i.parent ≠ "houses" := by
  obtain ⟨⟨⟩, db', hok, -⟩ := exists_of_seen seen_village
  have hcommand : Command.ofText? "ALTER TABLE houses RENAME TO homes"
      = some (.alterTable "houses" (some (.renameTo "homes"))) := by decide +kernel
  obtain ⟨-, -, -, -, hfollow, htrace, -, -⟩ := renameTo_passes_over rfl hcommand hok
  exact ⟨db', hok, hfollow "houses" (by decide), hfollow "rooms" (by decide),
    fun n t ht ↦ ⟨(htrace n t ht).1, (htrace n t ht).2.2⟩⟩

/-- The rooms follow the houses as their parent, while their foreign key and their index still name
what is not there any more. -/
theorem rooms_keep_old_name :
    ∃ db' t, updateDdl ["ALTER TABLE houses RENAME TO homes"] village = .ok ⟨⟩ db' ∧
      db'.tables["houses"]? = none ∧ db'.tables["rooms"]? = some t ∧
      t.schema.interleave.map (·.parent) = some "homes" ∧
      t.schema.foreignKeys.map (·.referencedTable) = ["houses"] ∧
      t.schema.indices.map (·.interleaveIn) = [some "houses"] := by
  obtain ⟨⟨⟩, db', hok, hseen⟩ := exists_of_seen seen_village
  obtain ⟨hhouses, hrooms⟩ := Prod.mk.inj hseen
  obtain ⟨t, ht, hnames⟩ := Option.map_eq_some_iff.1 hrooms
  obtain ⟨hparent, hrest⟩ := Prod.mk.inj hnames
  obtain ⟨hkeys, hindices⟩ := Prod.mk.inj hrest
  exact ⟨db', t, hok, Option.not_isSome_iff_eq_none.1 (Bool.eq_false_iff.1 hhouses), ht,
    hparent, hkeys, hindices⟩

end Database

end SchemaLedger
