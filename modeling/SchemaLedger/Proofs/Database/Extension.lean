import Mathlib
import SchemaLedger.Proofs.Database.Removal
import SchemaLedger.Proofs.Database.Rows

/-!
# What statements leave of a table

A statement that is not about a table leaves it its columns, its key and its rows. It may add to it
all the same: an index is dropped by its name alone, and a name with a backtick makes a statement
one about another table.
-/

namespace SchemaLedger

/-- The table has the columns, the key and the rows of another. -/
structure StoredTable.Extends (u t : StoredTable) : Prop where
  columns : ∀ c ∈ t.schema.columnNames, c ∈ u.schema.columnNames
  primaryKey : u.schema.primaryKey = t.schema.primaryKey
  rows : u.rows = t.rows

namespace StoredTable.Extends

theorem refl (t : StoredTable) : t.Extends t := ⟨fun _ hc ↦ hc, rfl, rfl⟩

theorem trans {t u v : StoredTable} (h : v.Extends u) (h' : u.Extends t) : v.Extends t :=
  ⟨fun c hc ↦ h.columns c (h'.columns c hc), h.primaryKey.trans h'.primaryKey, h.rows.trans h'.rows⟩

end StoredTable.Extends

namespace Database

/-- A table of a database is still there, with what it had. -/
def Extends (db' db : Database) (n : String) : Prop :=
  ∀ t, db.tables[n]? = some t → ∃ u, db'.tables[n]? = some u ∧ u.Extends t

namespace Extends

theorem refl (db : Database) (n : String) : db.Extends db n := fun t ht ↦ ⟨t, ht, .refl t⟩

theorem trans {db db' db'' : Database} {n : String} (h : db''.Extends db' n)
    (h' : db'.Extends db n) :
    db''.Extends db n := by
  intro t ht
  obtain ⟨u, hu, hut⟩ := h' t ht
  obtain ⟨v, hv, hvu⟩ := h u hu
  exact ⟨v, hv, hvu.trans hut⟩

theorem store {db : Database} {m : String} {t u : StoredTable} (ht : db.tables[m]? = some t)
    (hu : u.Extends t) (n : String) : (db.store m u).Extends db n := by
  intro v hv
  rw [getElem?_store]
  by_cases hmn : m = n
  · subst hmn
    obtain rfl : t = v := Option.some.inj (ht.symm.trans hv)
    exact ⟨u, if_pos rfl, hu⟩
  · exact ⟨v, (if_neg hmn).trans hv, .refl v⟩

theorem store_new {db : Database} {m : String} (hm : db.tables[m]? = none) (u : StoredTable)
    (n : String) : (db.store m u).Extends db n := by
  intro v hv
  rw [getElem?_store, if_neg]
  · exact ⟨v, hv, .refl v⟩
  · rintro rfl
    exact absurd (hm.symm.trans hv) (by simp)

end Extends

/-! ## Commands -/

variable {db db' : Database}

theorem extends_of_createTable {statement name : String} {ifNotExists : Bool}
    (hok : db.createTable statement name ifNotExists = .ok db') (n : String) :
    db'.Extends db n := by
  rcases createTable_eq_ok hok with ⟨-, -, rfl⟩ | ⟨parsed, t, hnew, -, -, -, rfl⟩
  · exact .refl db' n
  · exact .store_new hnew _ n

theorem extends_of_dropTable {name : String} {ifExists : Bool}
    (hok : db.dropTable name ifExists = .ok db') {n : String} (hn : n ≠ name) :
    db'.Extends db n := by
  rcases dropTable_eq_ok hok with ⟨-, rfl⟩ | ⟨t, -, -, rfl⟩
  · exact .refl db' n
  · refine fun t ht ↦ ⟨t, ?_, .refl t⟩
    dsimp only
    rw [Std.ExtTreeMap.getElem?_erase,
      if_neg fun e ↦ hn (Std.LawfulEqOrd.compare_eq_iff_eq.1 e).symm, ht]

theorem extends_of_renameTable {old new : String} (hok : db.renameTable old new = .ok db')
    {n : String} (hn : n ≠ old) : db'.Extends db n := by
  obtain ⟨t, -, hnew, rfl⟩ := renameTable_eq_ok hok
  intro u hu
  have hne : new ≠ n := by
    rintro rfl
    exact absurd (hnew.symm.trans hu) (by simp)
  exact ⟨u.renameParent old new, by rw [getElem?_renamed, if_neg hne, if_neg hn.symm, hu]; rfl,
    fun _ hc ↦ hc, rfl, rfl⟩

theorem Sound.extends_of_createIndex (h : db.Sound) {statement index table : String}
    (hok : db.createIndex statement index table = .ok db') (n : String) : db'.Extends db n := by
  obtain ⟨t, own, parsed, u, -, ht, hown, hparsed, hu, rfl⟩ := createIndex_eq_ok hok
  obtain ⟨v, hv, -, -, hcolumns, hkey⟩ := (h.tables table t ht).schema.reread hown hparsed
  rw [h.named table t ht] at hv
  obtain rfl : u = v := Option.some.inj (hu.symm.trans hv)
  refine .store ht ?_ n
  exact ⟨fun c hc ↦ hcolumns.symm ▸ hc, hkey, rfl⟩

theorem extends_of_dropIndex {index : String} (hok : db.dropIndex index = .ok db') (n : String) :
    db'.Extends db n := by
  obtain ⟨owner, t, -, ht, rfl⟩ := dropIndex_eq_ok hok
  refine .store ht ?_ n
  exact ⟨fun c hc ↦ (Table.columnNames_dropIndex t.schema index).symm ▸ hc, rfl, rfl⟩

theorem extends_of_addColumn {table : String} {text : List Char}
    (hok : db.addColumn table text = .ok db') (n : String) : db'.Extends db n := by
  obtain ⟨c, t, -, ht, -, rfl⟩ := addColumn_eq_ok hok
  refine .store ht ?_ n
  exact ⟨fun d hd ↦ (Table.columnNames_appendColumn t.schema c).symm ▸ List.mem_append_left _ hd,
    rfl, rfl⟩

theorem extends_of_dropColumn {table column : String} (hok : db.dropColumn table column = .ok db')
    {n : String} (hn : n ≠ table) : db'.Extends db n := by
  obtain ⟨t, -, -, -, -, rfl⟩ := dropColumn_eq_ok hok
  intro u hu
  exact ⟨u, by rw [getElem?_store, if_neg hn.symm, hu], .refl u⟩

theorem Extends.modifyColumn {table : String} {t : StoredTable} (ht : db.tables[table]? = some t)
    (column : String) {f : Column → Column} (hf : ∀ c, (f c).name = c.name) (n : String) :
    (db.store table { t with schema := t.schema.modifyColumn column f }).Extends db n := by
  refine .store ht ?_ n
  exact ⟨fun c hc ↦ (Table.columnNames_modifyColumn t.schema column hf).symm ▸ hc, rfl, rfl⟩

theorem extends_of_allowCommitTimestamp {table column : String} {allowed : Bool}
    (hok : db.allowCommitTimestamp table column allowed = .ok db') (n : String) :
    db'.Extends db n := by
  obtain ⟨t, ht, -, rfl⟩ := allowCommitTimestamp_eq_ok hok
  exact .modifyColumn ht column (Column.name_permit allowed) n

theorem extends_of_alterColumn {table : String} {text : List Char}
    (hok : db.alterColumn table text = .ok db') (n : String) : db'.Extends db n := by
  obtain ⟨c, t, -, ht, -, rfl⟩ := alterColumn_eq_ok hok
  exact .modifyColumn ht c.name (Column.name_alter c) n

/-- A table keeps what it has unless the command of a statement takes it away. -/
theorem Sound.extends_of_run (h : db.Sound) {statement : String} (hok : db.run statement = .ok db')
    {n : String} (hkeep : ∀ c, Command.ofText? statement = some c → n ∉ c.removes) :
    db'.Extends db n := by
  rw [Database.run] at hok
  split at hok
  case h_1 => exact extends_of_createTable hok n
  case h_2 => exact h.extends_of_createIndex hok n
  case h_3 hcommand =>
    exact extends_of_dropTable hok fun e ↦ hkeep _ hcommand (List.mem_singleton.2 e)
  case h_4 => exact extends_of_dropIndex hok n
  case h_5 table action hcommand =>
    cases action with
    | addColumn text => exact extends_of_addColumn hok n
    | dropColumn column =>
      exact extends_of_dropColumn hok fun e ↦ hkeep _ hcommand (List.mem_singleton.2 e)
    | allowCommitTimestamp column allowed => exact extends_of_allowCommitTimestamp hok n
    | alterColumn text => exact extends_of_alterColumn hok n
    | renameTo new =>
      exact extends_of_renameTable hok fun e ↦ hkeep _ hcommand (List.mem_singleton.2 e)
  all_goals contradiction

end Database

end SchemaLedger
