import Mathlib
import SchemaLedger.Proofs.Database.Described
import SchemaLedger.Proofs.Database.Rows
import SchemaLedger.Proofs.Dump.Coherent

/-!
# Databases stay coherent

Commands change a table by different routes: some read it again, some change its columns or its
indices where they are, and some give it another name. Whatever the texts of the statements are, and
whether they are accepted or refused, what a table says twice agrees afterwards.
-/

namespace SchemaLedger

/-! ## Changed tables -/

namespace Table.Regular

variable {t : Table} (h : t.Regular)

include h

/-- A column that is left without a unique index over it is not unique any more. -/
theorem dropIndex (index : String) : (t.dropIndex index).Regular := by
  have huniques : t.uniques.filter (·.name != index)
      = ((t.indices.filter (·.name != index)).filter (·.unique)).map Index.constraint := by
    rw [h.uniques, List.filter_map, List.filter_filter, List.filter_filter]
    refine congrArg (List.map Index.constraint) (List.filter_congr fun i _ ↦ ?_)
    exact Bool.and_comm _ _
  constructor
  case uniques => exact huniques
  all_goals
    intro c hc
    obtain ⟨d, hd, rfl⟩ := List.mem_map.1 hc
  case isPrimary => exact h.isPrimary d hd
  case measured => exact (h.measured d hd).congr rfl rfl
  case isUnique =>
    change (t.uniques.filter (·.name != index)).any (·.columns.contains d.name)
      = (t.indices.filter (·.name != index)).any (·.covers d.name)
    rw [huniques, List.any_map, List.any_filter]
    rfl

/-- A new column is in no key and in no index. -/
theorem appendColumn (hsound : t.Sound) {c : Column} (hc : Dump.Plain c)
    (hnew : c.name ∉ t.columnNames) : (t.appendColumn c).Regular := by
  have hkey : t.isKeyColumn c.name = false :=
    Bool.eq_false_iff.2 fun e ↦ hnew (hsound.declaresKey _ (List.contains_iff_mem.1 e))
  have hcovers : t.indices.any (·.covers c.name) = false := by
    refine List.any_eq_false.2 fun i hi e ↦ hnew (hsound.declaresIndexed i hi _ ?_)
    rw [Index.covers, Bool.and_eq_true] at e
    exact List.mem_append_left _ (List.contains_iff_mem.1 e.2)
  constructor
  case uniques => exact h.uniques
  all_goals
    intro d hd
    rcases List.mem_append.1 hd with hd | hd
  case isPrimary.inl => exact h.isPrimary d hd
  case isUnique.inl => exact h.isUnique d hd
  case measured.inl => exact h.measured d hd
  all_goals obtain rfl := List.mem_singleton.1 hd
  case isPrimary.inr => exact hc.isPrimary.trans hkey.symm
  case isUnique.inr => exact hc.isUnique.trans hcovers.symm
  case measured.inr => exact hc.toMeasured

theorem eraseColumn (column : String) : (t.eraseColumn column).Regular :=
  ⟨fun c hc ↦ h.isPrimary c (List.mem_filter.1 hc).1,
   fun c hc ↦ h.isUnique c (List.mem_filter.1 hc).1,
    h.uniques, fun c hc ↦ h.measured c (List.mem_filter.1 hc).1⟩

/-- A change of a column that leaves its name and its flags. -/
theorem modifyColumn (hsound : t.Sound) (column : String) {f : Column → Column}
    (hname : ∀ c, (f c).name = c.name) (hprimary : ∀ c, (f c).isPrimary = c.isPrimary)
    (hunique : ∀ c, (f c).isUnique = c.isUnique) (hmeasured : ∀ c ∈ t.columns, (f c).Measured) :
    (t.modifyColumn column f).Regular := by
  have hcolumns : (t.modifyColumn column f).columns
      = t.columns.map fun c ↦ if c.name = column then f c else c :=
    modifyFirst_eq_map hsound.distinct column f
  constructor
  case uniques => exact h.uniques
  all_goals
    rw [hcolumns]
    intro c hc
    obtain ⟨d, hd, rfl⟩ := List.mem_map.1 hc
    split
  case isPrimary.isTrue => rw [hname, hprimary]; exact h.isPrimary d hd
  case isUnique.isTrue => rw [hname, hunique]; exact h.isUnique d hd
  case measured.isTrue => exact hmeasured d hd
  case isPrimary.isFalse => exact h.isPrimary d hd
  case isUnique.isFalse => exact h.isUnique d hd
  case measured.isFalse => exact h.measured d hd

end Table.Regular

namespace StoredTable

theorem regular_rename {t : StoredTable} (h : t.schema.Regular) (new : String) :
    (t.rename new).schema.Regular := by
  have hcovers (n : String) :
      (t.rename new).schema.indices.any (·.covers n) = t.schema.indices.any (·.covers n) := by
    rw [StoredTable.rename, List.any_map]
    rfl
  refine ⟨h.isPrimary, fun c hc ↦ (h.isUnique c hc).trans (hcovers c.name).symm, ?_, h.measured⟩
  change t.schema.uniques = _
  rw [h.uniques, StoredTable.rename, List.filter_map, List.map_map]
  rfl

theorem regular_renameParent {t : StoredTable} (h : t.schema.Regular) (old new : String) :
    (t.renameParent old new).schema.Regular :=
  ⟨h.isPrimary, h.isUnique, h.uniques, h.measured⟩

end StoredTable

/-! ## Commands -/

namespace Database

/-- All tables are regular. -/
def Regular (db : Database) : Prop :=
  ∀ (n : String) (t : StoredTable), db.tables[n]? = some t → t.schema.Regular

theorem regular_of_schema {db db' : Database} (h : db.Regular) (hschema : db'.schema = db.schema) :
    db'.Regular := by
  intro n t ht
  obtain ⟨u, hu, hsame⟩ := exists_of_schema_eq hschema ht
  exact hsame ▸ h n u hu

namespace Regular

variable {db db' : Database} (h : db.Regular)

include h

theorem store {t : StoredTable} (ht : t.schema.Regular) (n : String) : (db.store n t).Regular := by
  intro m u hu
  rw [getElem?_store] at hu
  split at hu
  · exact Option.some.inj hu ▸ ht
  · exact h m u hu

theorem createTable {statement name : String} {ifNotExists : Bool}
    (hok : db.createTable statement name ifNotExists = .ok db') : db'.Regular := by
  rcases createTable_eq_ok hok with ⟨-, -, rfl⟩ | ⟨parsed, t, -, hparse, ht, -, rfl⟩
  · exact h
  · exact h.store (t := { schema := t }) (Dump.regular_of_parse hparse ht).1 name

theorem dropTable {name : String} {ifExists : Bool} (hok : db.dropTable name ifExists = .ok db') :
    db'.Regular := by
  rcases dropTable_eq_ok hok with ⟨-, rfl⟩ | ⟨t, -, -, rfl⟩
  · exact h
  · intro n u hu
    dsimp only at hu
    rw [Std.ExtTreeMap.getElem?_erase] at hu
    split at hu
    · contradiction
    · exact h n u hu

theorem renameTable {old new : String} (hok : db.renameTable old new = .ok db') : db'.Regular := by
  obtain ⟨t, ht, -, rfl⟩ := renameTable_eq_ok hok
  intro n u hu
  rcases renamed_cases hu with ⟨-, rfl⟩ | ⟨-, -, v, hv, rfl⟩
  · exact StoredTable.regular_rename (h old t ht) new
  · exact StoredTable.regular_renameParent (h n v hv) old new

theorem createIndex {statement index table : String}
    (hok : db.createIndex statement index table = .ok db') : db'.Regular := by
  obtain ⟨t, own, parsed, u, -, -, -, hparsed, hu, rfl⟩ := createIndex_eq_ok hok
  exact h.store (t := { t with schema := u }) (Dump.regular_of_parse hparsed hu).1 table

theorem dropIndex {index : String} (hok : db.dropIndex index = .ok db') : db'.Regular := by
  obtain ⟨owner, t, -, ht, rfl⟩ := dropIndex_eq_ok hok
  exact h.store (t := { t with schema := t.schema.dropIndex index }) ((h _ t ht).dropIndex index) _

theorem dropColumn {table column : String} (hok : db.dropColumn table column = .ok db') :
    db'.Regular := by
  obtain ⟨t, ht, -, -, -, rfl⟩ := dropColumn_eq_ok hok
  exact h.store (t := ⟨t.schema.eraseColumn column, _⟩) ((h _ t ht).eraseColumn column) table

section

variable (hsound : db.Sound)

include hsound

theorem addColumn {table : String} {text : List Char} (hok : db.addColumn table text = .ok db') :
    db'.Regular := by
  obtain ⟨c, t, hc, ht, hnew, rfl⟩ := addColumn_eq_ok hok
  exact h.store (t := { t with schema := t.schema.appendColumn c }) ((h _ t ht).appendColumn
    (hsound.tables _ t ht).schema (Dump.plain_of_columnOfText hc) hnew) table

theorem allowCommitTimestamp {table column : String} {allowed : Bool}
    (hok : db.allowCommitTimestamp table column allowed = .ok db') : db'.Regular := by
  obtain ⟨t, ht, -, rfl⟩ := allowCommitTimestamp_eq_ok hok
  have hpermit (c : Column) : (c.permit allowed).isPrimary = c.isPrimary ∧
      (c.permit allowed).isUnique = c.isUnique ∧ (c.permit allowed).type = c.type ∧
      (c.permit allowed).length = c.length := by
    rw [Column.permit]
    split
    · exact ⟨rfl, rfl, rfl, rfl⟩
    · split <;> exact ⟨rfl, rfl, rfl, rfl⟩
  refine h.store (t := { t with schema := t.schema.modifyColumn column (Column.permit allowed) })
    ?_ table
  exact (h _ t ht).modifyColumn (hsound.tables _ t ht).schema column (Column.name_permit allowed)
    (fun c ↦ (hpermit c).1) (fun c ↦ (hpermit c).2.1)
    fun c hc ↦ ((h _ t ht).measured c hc).congr (hpermit c).2.2.1 (hpermit c).2.2.2

theorem alterColumn {table : String} {text : List Char}
    (hok : db.alterColumn table text = .ok db') :
    db'.Regular := by
  obtain ⟨c, t, hc, ht, -, rfl⟩ := alterColumn_eq_ok hok
  refine h.store (t := { t with schema := t.schema.modifyColumn c.name (Column.alter c) }) ?_ table
  exact (h _ t ht).modifyColumn (hsound.tables _ t ht).schema c.name (Column.name_alter c)
    (fun _ ↦ rfl) (fun _ ↦ rfl)
    fun _ _ ↦ (Dump.plain_of_columnOfText hc).toMeasured.congr rfl rfl

/-- Any text whatever is run to a database with regular tables or refused. -/
theorem run {statement : String} (hok : db.run statement = .ok db') : db'.Regular := by
  rw [Database.run] at hok
  split at hok
  case h_1 => exact h.createTable hok
  case h_2 => exact h.createIndex hok
  case h_3 => exact h.dropTable hok
  case h_4 => exact h.dropIndex hok
  case h_5 table action _ =>
    cases action with
    | addColumn text => exact h.addColumn hsound hok
    | dropColumn column => exact h.dropColumn hok
    | allowCommitTimestamp column allowed => exact h.allowCommitTimestamp hsound hok
    | alterColumn text => exact h.alterColumn hsound hok
    | renameTo new => exact h.renameTable hok
  all_goals contradiction

end

end Regular

/-! ## Calls -/

theorem regular_empty : Regular {} := by
  intro n t ht
  rw [getElem?_empty] at ht
  contradiction

theorem regular_ofDump {dump : String} {db : Database} (h : ofDump dump = .ok db) : db.Regular := by
  obtain ⟨s, hs, rfl⟩ := map_eq_ok h
  intro n t ht
  obtain ⟨u, hu, rfl⟩ := exists_of_ofSchema ht
  exact (Dump.regular_of_parse hs hu).1

theorem Regular.call {db : Database} (hsound : db.Sound) (h : db.Regular) (c : Call) :
    (c.apply db).Regular :=
  of_call (fun hschema h ↦ regular_of_schema h hschema) (fun hsound h hok ↦ h.run hsound hok)
    hsound h c

theorem Reachable.regular {db : Database} (h : db.Reachable) : db.Regular := by
  induction h with
  | empty => exact regular_empty
  | ofDump h => exact regular_ofDump h
  | call c hdb ih => exact ih.call hdb.sound c

/-- In a database that comes about by calls, whatever their statements say, every table is kept
under its name, and what it says twice agrees. -/
theorem coherent_of_reachable {db : Database} (h : db.Reachable) {n : String} {t : StoredTable}
    (ht : db.tables[n]? = some t) : t.schema.name = n ∧ t.schema.Coherent :=
  ⟨h.sound.named n t ht, (h.regular n t ht).coherent (h.sound.tables n t ht).schema⟩

/-- Of two unique indices one is dropped, the table gets another name, and the last statement is
refused. -/
def guests : Database :=
  Call.apply (.updateDdl
    ["CREATE TABLE visitors (id int64, mail string(80), born date, PRIMARY KEY (id))",
      "CREATE UNIQUE INDEX mails ON visitors (mail, id)",
      "CREATE UNIQUE INDEX births ON visitors (born, mail)", "DROP INDEX mails",
      "ALTER TABLE visitors ADD COLUMN note string(255)", "ALTER TABLE visitors RENAME TO guests",
      "ALTER TABLE guests DROP COLUMN mail"]) {}

theorem guests_coherent :
    ∃ t, guests.tables["guests"]? = some t ∧
      t.schema.columns.map (fun c ↦ (c.name, c.isUnique))
        = [("id", false), ("mail", true), ("born", true), ("note", false)] ∧
      t.schema.name = "guests" ∧ t.schema.Coherent := by
  have hcolumns : guests.tables["guests"]?.map (fun t ↦ t.schema.columns.map fun c ↦
      (c.name, c.isUnique)) = some [("id", false), ("mail", true), ("born", true),
      ("note", false)] := by
    decide +kernel
  obtain ⟨t, ht, hunique⟩ := Option.map_eq_some_iff.1 hcolumns
  exact ⟨t, ht, hunique, coherent_of_reachable (.call _ .empty) ht⟩

end Database

end SchemaLedger
