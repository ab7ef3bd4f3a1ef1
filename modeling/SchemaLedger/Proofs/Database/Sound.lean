import Mathlib
import SchemaLedger.Proofs.Database.Command
import SchemaLedger.Proofs.Database.Step
import SchemaLedger.Proofs.Dump.Again
import SchemaLedger.Proofs.FiniteMap

/-!
# Databases keep their order

A database holds sound tables under their names, and rows under the texts of their keys. No call
changes that, whatever its arguments are. Behind it stands that an index is created by reading the
table again: that gives back the columns and the key of the table or fails.
-/

namespace SchemaLedger

open Text Text.Scanner Identifier

/-- Its table is sound, and its rows are kept under the texts of their keys. -/
structure StoredTable.Sound (t : StoredTable) : Prop where
  schema : t.schema.Sound
  keyed : ∀ (k : String) (row : Row), t.rows[k]? = some row →
    ∃ values, Database.keyValues t.schema.primaryKey row = .ok values ∧ k = Database.keyText values

/-- Its tables are sound and kept under their names. -/
structure Database.Sound (db : Database) : Prop where
  named : ∀ (n : String) (t : StoredTable), db.tables[n]? = some t → t.schema.name = n
  tables : ∀ (n : String) (t : StoredTable), db.tables[n]? = some t → t.Sound

/-! ## Changed tables -/

namespace Table.Sound

variable {t : Table} (h : t.Sound)

include h

theorem dropIndex (index : String) : (t.dropIndex index).Sound := by
  have hnames := columnNames_dropIndex t index
  have hindices {i : Index} (hi : i ∈ (t.dropIndex index).indices) : i ∈ t.indices :=
    (List.mem_filter.1 hi).1
  exact ⟨h.legible, hnames ▸ h.columns, hnames ▸ h.distinct, hnames ▸ h.declaresKey, h.parents,
    fun i hi ↦ h.named i (hindices hi), fun i hi ↦ h.indices i (hindices hi),
    fun i hi ↦ hnames ▸ h.declaresIndexed i (hindices hi)⟩

theorem appendColumn {c : Column} (hc : Legible c.name) (hnew : c.name ∉ t.columnNames) :
    (t.appendColumn c).Sound := by
  have hnames := columnNames_appendColumn t c
  constructor
  case legible => exact h.legible
  case columns =>
    rw [hnames]
    intro n hn
    rcases List.mem_append.1 hn with hn | hn
    · exact h.columns n hn
    · exact List.mem_singleton.1 hn ▸ hc
  case distinct =>
    rw [hnames]
    refine List.nodup_append.2 ⟨h.distinct, List.nodup_singleton _, ?_⟩
    rintro n hn m hm rfl
    exact hnew (List.mem_singleton.1 hm ▸ hn)
  case declaresKey =>
    rw [hnames]
    exact fun n hn ↦ List.mem_append_left _ (h.declaresKey n hn)
  case parents => exact h.parents
  case named => exact h.named
  case indices => exact h.indices
  case declaresIndexed =>
    rw [hnames]
    exact fun i hi n hn ↦ List.mem_append_left _ (h.declaresIndexed i hi n hn)

theorem eraseColumn {column : String} (hkey : column ∉ t.primaryKey)
    (hindexed : ∀ i ∈ t.indices, column ∉ i.referenced) : (t.eraseColumn column).Sound := by
  constructor
  case legible => exact h.legible
  case columns => exact fun n hn ↦ h.columns n (mem_columnNames_eraseColumn.1 hn).1
  case distinct => exact (List.filter_sublist.map _).nodup h.distinct
  case declaresKey =>
    refine fun n hn ↦ mem_columnNames_eraseColumn.2 ⟨h.declaresKey n hn, ?_⟩
    rintro rfl
    exact hkey hn
  case parents => exact h.parents
  case named => exact h.named
  case indices => exact h.indices
  case declaresIndexed =>
    refine fun i hi n hn ↦ mem_columnNames_eraseColumn.2 ⟨h.declaresIndexed i hi n hn, ?_⟩
    rintro rfl
    exact hindexed i hi hn

theorem modifyColumn (column : String) {f : Column → Column} (hf : ∀ c, (f c).name = c.name) :
    (t.modifyColumn column f).Sound := by
  have hnames := columnNames_modifyColumn t column hf
  exact ⟨h.legible, hnames ▸ h.columns, hnames ▸ h.distinct, hnames ▸ h.declaresKey, h.parents,
    h.named, h.indices, fun i hi ↦ hnames ▸ h.declaresIndexed i hi⟩

/-- A table that is read again has its own indices before those that are read behind its
statements. -/
theorem lookup_of_parse {own : List String} (hsql : t.sql = .ok own) {more : List String}
    {s : Schema} (hparse : Dump.parse (own ++ more) = .ok s) :
    ∃ items, Dump.readItems more = .ok items ∧ s[t.name]? = some
      ((t.indices ++ (Dump.indices items).filter (·.table == t.name)).foldl registerIndex
        t.bare) := by
  have hts : ∀ u ∈ [t], u.Sound := fun u hu ↦ List.mem_singleton.1 hu ▸ h
  have howns : [t].mapM Table.sql = .ok [own] := by
    rw [List.mapM_cons, hsql]
    rfl
  have hflatten : [own].flatten = own := List.append_nil own
  rw [← hflatten] at hparse
  obtain ⟨items, us, hitems, hreading⟩ := Dump.exists_of_parse_append hts howns hparse
  exact ⟨items, hitems, hreading.lookup_of_mem hts List.mem_cons_self⟩

/-- Reading a table again leaves its columns and its key. -/
theorem reread {own : List String} (hsql : t.sql = .ok own) {more : List String} {s : Schema}
    (hparse : Dump.parse (own ++ more) = .ok s) :
    ∃ u, s[t.name]? = some u ∧ u.Sound ∧ u.name = t.name ∧ u.columnNames = t.columnNames ∧
      u.primaryKey = t.primaryKey := by
  obtain ⟨items, -, hlookup⟩ := h.lookup_of_parse hsql hparse
  obtain ⟨hsound, hname⟩ := Dump.sound_of_parse hparse hlookup
  refine ⟨_, hlookup, hsound, hname, ?_, ?_⟩
  · rw [columnNames_registerIndices, columnNames_bare]
  · rw [foldl_registerIndex]
    exact primaryKey_bare t

end Table.Sound

/-- A table without rows is sound if what describes it is. -/
theorem Table.Sound.stored {t : Table} (h : t.Sound) : StoredTable.Sound { schema := t } := by
  refine ⟨h, fun k row hrow ↦ ?_⟩
  have hnone : (∅ : Std.ExtTreeMap String Row)[k]? = none := Std.ExtTreeMap.getElem?_empty
  rw [show ({ schema := t } : StoredTable).rows = ∅ from rfl, hnone] at hrow
  contradiction

namespace StoredTable.Sound

variable {t : StoredTable} (h : t.Sound)

include h

/-- Rows keep their place where the key stays. -/
theorem withSchema {u : Table} (hu : u.Sound) (hkey : u.primaryKey = t.schema.primaryKey) :
    { t with schema := u }.Sound :=
  ⟨hu, hkey ▸ h.keyed⟩

theorem rename {new : String} (hnew : Legible new) : (t.rename new).Sound := by
  refine h.withSchema ⟨hnew, h.schema.columns, h.schema.distinct, h.schema.declaresKey,
    h.schema.parents, ?_, ?_, ?_⟩ rfl
  all_goals
    intro i hi
    obtain ⟨j, hj, rfl⟩ := List.mem_map.1 hi
  · rfl
  · exact h.schema.indices j hj
  · exact h.schema.declaresIndexed j hj

theorem renameParent {new : String} (hnew : Legible new) (old : String) :
    (t.renameParent old new).Sound := by
  refine h.withSchema ⟨h.schema.legible, h.schema.columns, h.schema.distinct,
    h.schema.declaresKey, ?_, h.schema.named, h.schema.indices, h.schema.declaresIndexed⟩ rfl
  intro i hi
  obtain ⟨j, hj, rfl⟩ := Option.map_eq_some_iff.1 hi
  split
  · exact hnew
  · exact h.schema.parents j hj

theorem eraseColumn {column : String} (hkey : column ∉ t.schema.primaryKey)
    (hindexed : ∀ i ∈ t.schema.indices, column ∉ i.referenced) :
    StoredTable.Sound
      { schema := t.schema.eraseColumn column,
        rows := t.rows.map fun _ row ↦ row.erase column } := by
  refine ⟨h.schema.eraseColumn hkey hindexed, fun k row hrow ↦ ?_⟩
  dsimp only at hrow
  rw [Std.ExtTreeMap.getElem?_map] at hrow
  obtain ⟨old, hold, rfl⟩ := Option.map_eq_some_iff.1 hrow
  obtain ⟨values, hvalues, hk⟩ := h.keyed k old hold
  refine ⟨values, mapM_mono (fun c hc v hv ↦ ?_) hvalues, hk⟩
  have hne : ¬compare column c = .eq := by
    intro e
    rw [Std.LawfulEqOrd.compare_eq_iff_eq.1 e] at hkey
    exact hkey hc
  rw [Std.ExtTreeMap.getElem?_erase, if_neg hne]
  exact hv

end StoredTable.Sound

/-! ## Commands -/

/-- The name that a change gives can be read back. -/
def TableAction.Legible : TableAction → Prop
  | renameTo name => Identifier.Legible name
  | _ => True

theorem TableAction.legible_of_ofText? {cs : List Char} {action : TableAction}
    (h : ofText? cs = some action) : action.Legible := by
  rcases of_ofText? h with h | h | h | h | h
  · obtain ⟨cs, rfl⟩ := yields_addColumnText.of_value? h
    trivial
  · obtain ⟨n, rfl⟩ := yields_dropColumnText.of_value? h
    trivial
  · obtain ⟨n, allowed, rfl⟩ := yields_allowText.of_value? h
    trivial
  · obtain ⟨cs, rfl⟩ := yields_alterColumnText.of_value? h
    trivial
  · obtain ⟨n, hn, rfl⟩ := yields_renameText.of_value? h
    exact hn

/-- The name that a command gives a table can be read back. -/
def Command.Legible : Command → Prop
  | alterTable _ (some action) => action.Legible
  | _ => True

theorem Command.legible_of_ofText? {s : String} {c : Command} (h : ofText? s = some c) :
    c.Legible := by
  rcases of_ofText? h with h | h | h | h | h
  · obtain ⟨table, ine, rfl⟩ := yields_createTableText.of_value? h
    trivial
  · obtain ⟨index, table, rfl⟩ := yields_createIndexText.of_value? h
    trivial
  · obtain ⟨table, ifExists, rfl⟩ := yields_dropTableText.of_value? h
    trivial
  · obtain ⟨index, rfl⟩ := yields_dropIndexText.of_value? h
    trivial
  · obtain ⟨table, cs, rfl⟩ := yields_alterTableText.of_value? h
    cases haction : TableAction.ofText? cs with
    | none => trivial
    | some action => exact TableAction.legible_of_ofText? haction

namespace Database

namespace Sound

variable {db : Database} (h : db.Sound)

include h

theorem store {n : String} {t : StoredTable} (hname : t.schema.name = n) (ht : t.Sound) :
    (db.store n t).Sound := by
  refine ⟨fun m u hu ↦ ?_, fun m u hu ↦ ?_⟩
  all_goals
    rw [getElem?_store] at hu
    split at hu
  · rename_i hn
    rw [← Option.some.inj hu, hname, hn]
  · exact h.named m u hu
  · exact Option.some.inj hu ▸ ht
  · exact h.tables m u hu

theorem createTable {statement name : String} {ifNotExists : Bool} {db' : Database}
    (hok : db.createTable statement name ifNotExists = .ok db') : db'.Sound := by
  rcases createTable_eq_ok hok with ⟨-, -, rfl⟩ | ⟨parsed, t, -, hparse, ht, -, rfl⟩
  · exact h
  · obtain ⟨hsound, hname⟩ := Dump.sound_of_parse hparse ht
    exact h.store hname hsound.stored

theorem dropTable {name : String} {ifExists : Bool} {db' : Database}
    (hok : db.dropTable name ifExists = .ok db') : db'.Sound := by
  rcases dropTable_eq_ok hok with ⟨-, rfl⟩ | ⟨t, -, -, rfl⟩
  · exact h
  · have hold {n : String} {t : StoredTable} (ht : (db.tables.erase name)[n]? = some t) :
        db.tables[n]? = some t := by
      rw [Std.ExtTreeMap.getElem?_erase] at ht
      split at ht
      · contradiction
      · exact ht
    exact ⟨fun n t ht ↦ h.named n t (hold ht), fun n t ht ↦ h.tables n t (hold ht)⟩

theorem renameTable {old new : String} (hnew : Legible new) {db' : Database}
    (hok : db.renameTable old new = .ok db') : db'.Sound := by
  obtain ⟨t, ht, -, rfl⟩ := renameTable_eq_ok hok
  refine ⟨fun n u hu ↦ ?_, fun n u hu ↦ ?_⟩
  · rcases renamed_cases hu with ⟨rfl, rfl⟩ | ⟨-, -, v, hv, rfl⟩
    · rfl
    · exact h.named n v hv
  · rcases renamed_cases hu with ⟨rfl, rfl⟩ | ⟨-, -, v, hv, rfl⟩
    · exact (h.tables old t ht).rename hnew
    · exact (h.tables n v hv).renameParent hnew old

theorem createIndex {statement index table : String} {db' : Database}
    (hok : db.createIndex statement index table = .ok db') : db'.Sound := by
  obtain ⟨t, own, parsed, u, -, ht, hown, hparsed, hu, rfl⟩ := createIndex_eq_ok hok
  obtain ⟨v, hv, hsound, hname, -, hkey⟩ := (h.tables table t ht).schema.reread hown hparsed
  rw [h.named table t ht] at hv hname
  obtain rfl : u = v := Option.some.inj (hu.symm.trans hv)
  exact h.store hname ((h.tables table t ht).withSchema hsound hkey)

/-- Rows and key stay where a table gets another description. -/
theorem withSchema {n : String} {t : StoredTable} (ht : db.tables[n]? = some t) {u : Table}
    (hu : u.Sound) (hname : u.name = t.schema.name) (hkey : u.primaryKey = t.schema.primaryKey) :
    (db.store n { t with schema := u }).Sound :=
  h.store (hname.trans (h.named n t ht)) ((h.tables n t ht).withSchema hu hkey)

theorem dropIndex {index : String} {db' : Database} (hok : db.dropIndex index = .ok db') :
    db'.Sound := by
  obtain ⟨owner, t, -, ht, rfl⟩ := dropIndex_eq_ok hok
  exact h.withSchema ht ((h.tables _ t ht).schema.dropIndex index) rfl rfl

theorem addColumn {table : String} {text : List Char} {db' : Database}
    (hok : db.addColumn table text = .ok db') : db'.Sound := by
  obtain ⟨c, t, hc, ht, hnew, rfl⟩ := addColumn_eq_ok hok
  exact h.withSchema ht
    ((h.tables _ t ht).schema.appendColumn (Dump.legible_of_columnOfText hc) hnew) rfl rfl

theorem dropColumn {table column : String} {db' : Database}
    (hok : db.dropColumn table column = .ok db') : db'.Sound := by
  obtain ⟨t, ht, -, hkey, hindexed, rfl⟩ := dropColumn_eq_ok hok
  exact h.store (h.named _ t ht) ((h.tables _ t ht).eraseColumn hkey hindexed)

theorem allowCommitTimestamp {table column : String} {allowed : Bool} {db' : Database}
    (hok : db.allowCommitTimestamp table column allowed = .ok db') : db'.Sound := by
  obtain ⟨t, ht, -, rfl⟩ := allowCommitTimestamp_eq_ok hok
  exact h.withSchema ht
    ((h.tables _ t ht).schema.modifyColumn column (Column.name_permit allowed)) rfl rfl

theorem alterColumn {table : String} {text : List Char} {db' : Database}
    (hok : db.alterColumn table text = .ok db') : db'.Sound := by
  obtain ⟨c, t, -, ht, -, rfl⟩ := alterColumn_eq_ok hok
  exact h.withSchema ht ((h.tables _ t ht).schema.modifyColumn c.name (Column.name_alter c)) rfl rfl

theorem alterTable {table : String} {action : TableAction} (haction : action.Legible)
    {db' : Database} (hok : db.alterTable table action = .ok db') : db'.Sound := by
  cases action with
  | addColumn text => exact h.addColumn hok
  | dropColumn column => exact h.dropColumn hok
  | allowCommitTimestamp column allowed => exact h.allowCommitTimestamp hok
  | alterColumn text => exact h.alterColumn hok
  | renameTo new => exact h.renameTable haction hok

/-- Any text whatever is run to a sound database or refused. -/
theorem run {statement : String} {db' : Database} (hok : db.run statement = .ok db') :
    db'.Sound := by
  rw [Database.run] at hok
  split at hok
  case h_1 => exact h.createTable hok
  case h_2 => exact h.createIndex hok
  case h_3 => exact h.dropTable hok
  case h_4 => exact h.dropIndex hok
  case h_5 table action hcommand => exact h.alterTable (Command.legible_of_ofText? hcommand) hok
  all_goals contradiction

/-- A table that is there is not created again, if the statement permits that. -/
theorem run_createTable {n : String} {t : StoredTable} (ht : db.tables[n]? = some t)
    (columns : List ColumnClause) (key : List KeyPart) (is : List Interleave) :
    db.run (Ddl.createTable n true columns key is).text = .ok db := by
  have hlegible : Legible n := h.named n t ht ▸ (h.tables n t ht).schema.legible
  have hcontains : db.tables.contains n = true := by
    rw [Std.ExtTreeMap.contains_eq_isSome_getElem?, ht]
    rfl
  rw [Database.run, Command.ofText?_createTable hlegible.noBacktick, if_neg hlegible.ne_empty]
  dsimp only
  rw [Database.createTable, if_pos hcontains, if_pos rfl]

end Sound

end Database

end SchemaLedger
