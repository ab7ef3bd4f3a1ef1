import Mathlib
import SchemaLedger.Proofs.Database.Rows

/-!
# Rows fit their tables

A row names no column that its table does not have: a column is dropped together with its values, an
index leaves the columns of its table, and what is written to a row has been checked. Together with
the soundness of databases this says what can be found in a row, whatever has been called.
-/

namespace SchemaLedger

/-- Its rows name no columns but its own. -/
def StoredTable.Fitted (t : StoredTable) : Prop :=
  ∀ (k : String) (row : Row), t.rows[k]? = some row →
    ∀ c : String, (row[c]?).isSome = true → c ∈ t.schema.columnNames

namespace StoredTable.Fitted

variable {t : StoredTable} (h : t.Fitted)

theorem empty (u : Table) : StoredTable.Fitted { schema := u } := by
  intro k row hrow
  have hnone : (∅ : Std.ExtTreeMap String Row)[k]? = none := Std.ExtTreeMap.getElem?_empty
  rw [show ({ schema := u } : StoredTable).rows = ∅ from rfl, hnone] at hrow
  contradiction

include h

/-- Rows stay where columns are added. -/
theorem withSchema {u : Table} (hu : t.schema.columnNames ⊆ u.columnNames) :
    StoredTable.Fitted { t with schema := u } :=
  fun k row hrow c hc ↦ hu (h k row hrow c hc)

/-- A column is dropped from the rows as well. -/
theorem eraseColumn (column : String) : StoredTable.Fitted
    { schema := t.schema.eraseColumn column, rows := t.rows.map fun _ row ↦ row.erase column } := by
  intro k row hrow c hc
  dsimp only at hrow
  rw [Std.ExtTreeMap.getElem?_map] at hrow
  obtain ⟨old, hold, rfl⟩ := Option.map_eq_some_iff.1 hrow
  rw [Std.ExtTreeMap.getElem?_erase] at hc
  split at hc
  · contradiction
  · rename_i hne
    refine Table.mem_columnNames_eraseColumn.2 ⟨h k old hold c hc, fun e ↦ hne ?_⟩
    rw [e, Std.ReflOrd.compare_self]

/-- Fields are put over a row. -/
theorem upsert {columns : List String} {values : List Json} (htakes : t.schema.Takes columns values)
    (key : String) : StoredTable.Fitted { t with
      rows := t.rows.alter key fun old ↦ some (Database.mergeRow old (columns.zip values)) } := by
  intro k row hrow c hc
  dsimp only at hrow
  rw [Std.ExtTreeMap.getElem?_alter] at hrow
  split at hrow
  · obtain rfl := Option.some.inj hrow
    rw [Database.getElem?_mergeRow, Option.isSome_or, Bool.or_eq_true] at hc
    rcases hc with hc | hc
    · refine htakes.declared c ?_
      rw [← List.map_fst_zip (le_of_eq htakes.length_eq)]
      exact Database.isSome_mergeRow_none.1 hc
    · cases hold : t.rows[key]? with
      | none =>
        rw [hold, Option.getD_none, Std.ExtTreeMap.getElem?_empty] at hc
        contradiction
      | some old =>
        rw [hold] at hc
        exact h key old hold c hc
  · exact h k row hrow c hc

theorem erase (key : String) : StoredTable.Fitted { t with rows := t.rows.erase key } := by
  intro k row hrow c hc
  dsimp only at hrow
  rw [Std.ExtTreeMap.getElem?_erase] at hrow
  split at hrow
  · contradiction
  · exact h k row hrow c hc

end StoredTable.Fitted

namespace Database

/-- The rows of all tables fit. -/
def Fitted (db : Database) : Prop :=
  ∀ (n : String) (t : StoredTable), db.tables[n]? = some t → t.Fitted

namespace Fitted

variable {db db' : Database}

theorem store (h : db.Fitted) {t : StoredTable} (ht : t.Fitted) (n : String) :
    (db.store n t).Fitted := by
  intro m u hu
  rw [getElem?_store] at hu
  split at hu
  · exact Option.some.inj hu ▸ ht
  · exact h m u hu

theorem modifyRows (h : db.Fitted) {n : String}
    {f : Std.ExtTreeMap String Row → Std.ExtTreeMap String Row}
    (hf : ∀ t, db.tables[n]? = some t → StoredTable.Fitted { t with rows := f t.rows }) :
    (Database.modifyRows n f db).Fitted := by
  intro k u hu
  rw [getElem?_modifyRows] at hu
  split at hu
  · obtain ⟨t, ht, rfl⟩ := Option.map_eq_some_iff.1 hu
    exact hf t ht
  · exact h k u hu

/-! ## Commands -/

section

variable (h : db.Fitted)

include h

theorem createTable {statement name : String} {ifNotExists : Bool}
    (hok : db.createTable statement name ifNotExists = .ok db') : db'.Fitted := by
  rcases createTable_eq_ok hok with ⟨-, -, rfl⟩ | ⟨parsed, t, -, -, -, -, rfl⟩
  · exact h
  · exact h.store (.empty t) name

theorem dropTable {name : String} {ifExists : Bool} (hok : db.dropTable name ifExists = .ok db') :
    db'.Fitted := by
  rcases dropTable_eq_ok hok with ⟨-, rfl⟩ | ⟨t, -, -, rfl⟩
  · exact h
  · intro n u hu
    dsimp only at hu
    rw [Std.ExtTreeMap.getElem?_erase] at hu
    split at hu
    · contradiction
    · exact h n u hu

/-- Rows go with their table, and another parent is nothing to them. -/
theorem renameTable {old new : String} (hok : db.renameTable old new = .ok db') : db'.Fitted := by
  obtain ⟨t, ht, -, rfl⟩ := renameTable_eq_ok hok
  intro n u hu
  rcases renamed_cases hu with ⟨-, rfl⟩ | ⟨-, -, v, hv, rfl⟩
  · exact (h old t ht).withSchema (List.Subset.refl _)
  · exact (h n v hv).withSchema (List.Subset.refl _)

/-- An index is created by reading its table again, which gives back the columns. -/
theorem createIndex (hsound : db.Sound) {statement index table : String}
    (hok : db.createIndex statement index table = .ok db') : db'.Fitted := by
  obtain ⟨t, own, parsed, u, -, ht, hown, hparsed, hu, rfl⟩ := createIndex_eq_ok hok
  obtain ⟨v, hv, -, -, hcolumns, -⟩ := (hsound.tables table t ht).schema.reread hown hparsed
  rw [hsound.named table t ht] at hv
  obtain rfl : u = v := Option.some.inj (hu.symm.trans hv)
  exact h.store ((h table t ht).withSchema (hcolumns ▸ List.Subset.refl _)) table

theorem dropIndex {index : String} (hok : db.dropIndex index = .ok db') : db'.Fitted := by
  obtain ⟨owner, t, -, ht, rfl⟩ := dropIndex_eq_ok hok
  refine h.store ((h _ t ht).withSchema ?_) owner.name
  rw [Table.columnNames_dropIndex]
  exact List.Subset.refl _

theorem addColumn {table : String} {text : List Char} (hok : db.addColumn table text = .ok db') :
    db'.Fitted := by
  obtain ⟨c, t, -, ht, -, rfl⟩ := addColumn_eq_ok hok
  refine h.store ((h _ t ht).withSchema ?_) table
  rw [Table.columnNames_appendColumn]
  exact List.subset_append_left _ _

theorem dropColumn {table column : String} (hok : db.dropColumn table column = .ok db') :
    db'.Fitted := by
  obtain ⟨t, ht, -, -, -, rfl⟩ := dropColumn_eq_ok hok
  exact h.store ((h _ t ht).eraseColumn column) table

/-- Rows stay where a column changes and keeps its name. -/
theorem modifyColumn {table column : String} {t : StoredTable} (ht : db.tables[table]? = some t)
    {f : Column → Column} (hf : ∀ c, (f c).name = c.name) :
    (db.store table { t with schema := t.schema.modifyColumn column f }).Fitted := by
  refine h.store ((h _ t ht).withSchema ?_) table
  rw [Table.columnNames_modifyColumn _ _ hf]
  exact List.Subset.refl _

theorem alterTable {table : String} {action : TableAction}
    (hok : db.alterTable table action = .ok db') : db'.Fitted := by
  cases action with
  | addColumn text => exact h.addColumn hok
  | dropColumn column => exact h.dropColumn hok
  | allowCommitTimestamp column allowed =>
    obtain ⟨t, ht, -, rfl⟩ := allowCommitTimestamp_eq_ok hok
    exact h.modifyColumn ht (Column.name_permit allowed)
  | alterColumn text =>
    obtain ⟨c, t, -, ht, -, rfl⟩ := alterColumn_eq_ok hok
    exact h.modifyColumn ht (Column.name_alter c)
  | renameTo new => exact h.renameTable hok

/-- Any text whatever is run to a database whose rows fit or refused. -/
theorem run (hsound : db.Sound) {statement : String} (hok : db.run statement = .ok db') :
    db'.Fitted := by
  rw [Database.run] at hok
  split at hok
  case h_1 => exact h.createTable hok
  case h_2 => exact h.createIndex hsound hok
  case h_3 => exact h.dropTable hok
  case h_4 => exact h.dropIndex hok
  case h_5 => exact h.alterTable hok
  all_goals contradiction

end

end Fitted

/-! ## Calls -/

theorem keeps_fitted_upsertRow (table : String) (columns : List String) (values : List Json) :
    Keeps Fitted (upsertRow table columns values) := by
  refine keeps_upsertRow fun db t key h ht htakes _ ↦ ?_
  have hcounted : db.counted.Fitted := h
  refine hcounted.modifyRows fun u hu ↦ ?_
  obtain rfl : t = u := Option.some.inj (ht.symm.trans hu)
  exact (h table t ht).upsert htakes _

theorem keeps_fitted_deleteRow (table : String) (key : List Json) :
    Keeps Fitted (deleteRow table key) := by
  refine keeps_deleteRow fun db h ↦ ?_
  have hcounted : db.counted.Fitted := h
  exact hcounted.modifyRows fun u hu ↦ (h table u hu).erase _

theorem Fitted.call {db : Database} (hsound : db.Sound) (h : db.Fitted) (c : Call) :
    (c.apply db).Fitted := by
  cases c with
  | updateDdl statements =>
    have hkeeps :=
      keeps_updateDdl (p := Fitted) (fun _ h ↦ h) (fun hsound h hok ↦ h.run hsound hok) statements
    exact (hkeeps db ⟨hsound, h⟩).2
  | upsertRow table columns values => exact keeps_fitted_upsertRow table columns values db h
  | deleteRow table key => exact keeps_fitted_deleteRow table key db h
  | refuseAfter n => exact h
  | refuseNone => exact h

theorem fitted_empty : Fitted {} := by
  intro n t ht
  rw [getElem?_empty] at ht
  contradiction

theorem fitted_ofDump {dump : String} {db : Database} (h : ofDump dump = .ok db) : db.Fitted := by
  obtain ⟨s, hs, rfl⟩ := map_eq_ok h
  intro n t ht
  obtain ⟨u, hu, rfl⟩ := exists_of_ofSchema ht
  exact .empty u

theorem Reachable.fitted {db : Database} (h : db.Reachable) : db.Fitted := by
  induction h with
  | empty => exact fitted_empty
  | ofDump h => exact fitted_ofDump h
  | call c hdb ih => exact ih.call hdb.sound c

end Database

end SchemaLedger
