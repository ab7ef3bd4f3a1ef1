import Mathlib
import SchemaLedger.Proofs.Database.Grounded
import SchemaLedger.Proofs.Database.IndexStatement
import SchemaLedger.Proofs.Database.Restorable

/-!
# What a new index changes

An index is created by writing its table down and reading it back with the index behind it.
Statements do not say all of a table, so more comes of it than one index: defaults that are
expressions are gone, and the foreign key is made anew from the parent.
-/

namespace SchemaLedger

/-! ## Columns as they are read -/

/-- Nothing is said of where the values of the column come from, and its default is one that is
read. -/
def Column.AsRead (c : Column) : Prop := c.generation = none ∧ ∀ d ∈ c.defaultValue, d.Normal

theorem Column.AsRead.congr {c d : Column} (h : c.AsRead)
    (hgeneration : d.generation = c.generation)
    (hdefault : d.defaultValue = c.defaultValue) : d.AsRead :=
  ⟨hgeneration.trans h.1, hdefault ▸ h.2⟩

theorem Column.AsRead.permit {c : Column} (h : c.AsRead) (allowed : Bool) :
    (c.permit allowed).AsRead := by
  rw [Column.permit]
  split
  · exact ⟨h.1, fun d hd ↦ Option.some.inj hd ▸ ColumnDefault.normal_commitTimestamp⟩
  · split
    · exact ⟨h.1, fun d hd ↦ absurd hd (Option.not_mem_none d)⟩
    · exact h

namespace Table

/-- All columns are as they are read. -/
def AsRead (t : Table) : Prop := ∀ c ∈ t.columns, c.AsRead

theorem AsRead.modifyColumn {t : Table} (h : t.AsRead) (hsound : t.Sound) (column : String)
    {f : Column → Column}
    (hf : ∀ c ∈ t.columns, (f c).AsRead) : (t.modifyColumn column f).AsRead := by
  have hcolumns : (t.modifyColumn column f).columns
      = t.columns.map fun c ↦ if c.name = column then f c else c :=
    modifyFirst_eq_map hsound.distinct column f
  intro c hc
  rw [hcolumns] at hc
  obtain ⟨d, hd, rfl⟩ := List.mem_map.1 hc
  split
  · exact hf d hd
  · exact h d hd

end Table

namespace Database

/-- All columns of all tables are as they are read. -/
def AsRead (db : Database) : Prop :=
  ∀ (n : String) (t : StoredTable), db.tables[n]? = some t → t.schema.AsRead

variable {db db' : Database}

namespace AsRead

theorem of_schema (h : db.AsRead) (hschema : db'.schema = db.schema) : db'.AsRead := by
  intro n t ht
  obtain ⟨u, hu, hsame⟩ := exists_of_schema_eq hschema ht
  exact hsame ▸ h n u hu

theorem store (h : db.AsRead) {t : StoredTable} (ht : t.schema.AsRead) (n : String) :
    (db.store n t).AsRead := by
  intro m u hu
  rw [getElem?_store] at hu
  split at hu
  · exact Option.some.inj hu ▸ ht
  · exact h m u hu

theorem alterTable (h : db.AsRead) (hsound : db.Sound) {table : String} {action : TableAction}
    (hok : db.alterTable table action = .ok db') : db'.AsRead := by
  cases action with
  | addColumn text =>
    obtain ⟨c, t, hc, ht, -, rfl⟩ := addColumn_eq_ok hok
    refine h.store (fun d hd ↦ ?_) table
    rcases List.mem_append.1 hd with hd | hd
    · exact h table t ht d hd
    · exact List.mem_singleton.1 hd ▸ Dump.normal_of_columnOfText hc
  | dropColumn column =>
    obtain ⟨t, ht, -, -, -, rfl⟩ := dropColumn_eq_ok hok
    exact h.store (fun c hc ↦ h table t ht c (List.mem_filter.1 hc).1) table
  | allowCommitTimestamp column allowed =>
    obtain ⟨t, ht, -, rfl⟩ := allowCommitTimestamp_eq_ok hok
    exact h.store ((h table t ht).modifyColumn (hsound.tables table t ht).schema column
      fun c hc ↦ (h table t ht c hc).permit allowed) table
  | alterColumn text =>
    obtain ⟨c, t, hc, ht, -, rfl⟩ := alterColumn_eq_ok hok
    have haltered (d : Column) (hd : d ∈ t.schema.columns) : (c.alter d).AsRead :=
      ⟨(h table t ht d hd).1, (Dump.normal_of_columnOfText hc).2⟩
    exact h.store ((h table t ht).modifyColumn (hsound.tables table t ht).schema c.name haltered)
      table
  | renameTo new =>
    obtain ⟨t, ht, -, rfl⟩ := renameTable_eq_ok hok
    intro n u hu
    rcases renamed_cases hu with ⟨-, rfl⟩ | ⟨-, -, v, hv, rfl⟩
    · exact h table t ht
    · exact h n v hv

theorem run (h : db.AsRead) (hsound : db.Sound) {statement : String}
    (hok : db.run statement = .ok db') :
    db'.AsRead := by
  rw [Database.run] at hok
  split at hok
  case h_1 name ifNotExists _ =>
    rcases createTable_eq_ok hok with ⟨-, -, rfl⟩ | ⟨parsed, t, -, hparse, ht, -, rfl⟩
    · exact h
    · exact h.store (fun c hc ↦ Dump.normal_of_parse hparse ht hc) name
  case h_2 name table _ =>
    obtain ⟨t, own, parsed, u, -, -, -, hparse, hu, rfl⟩ := createIndex_eq_ok hok
    exact h.store (fun c hc ↦ Dump.normal_of_parse hparse hu hc) table
  case h_3 name ifExists _ =>
    rcases dropTable_eq_ok hok with ⟨-, rfl⟩ | ⟨t, -, -, rfl⟩
    · exact h
    · intro n u hu
      dsimp only at hu
      rw [Std.ExtTreeMap.getElem?_erase] at hu
      split at hu
      · contradiction
      · exact h n u hu
  case h_4 name _ =>
    obtain ⟨owner, t, -, ht, rfl⟩ := dropIndex_eq_ok hok
    refine h.store (fun c hc ↦ ?_) owner.name
    obtain ⟨d, hd, rfl⟩ := List.mem_map.1 hc
    exact (h owner.name t ht d hd).congr rfl rfl
  case h_5 table action _ => exact h.alterTable hsound hok
  all_goals contradiction

end AsRead

/-- In a database that comes about by calls, whatever their statements say, columns are as they are
read. -/
theorem Reachable.asRead (h : db.Reachable) : db.AsRead := by
  induction h with
  | empty =>
    intro n t ht
    rw [getElem?_empty] at ht
    contradiction
  | ofDump h =>
    obtain ⟨s, hs, rfl⟩ := map_eq_ok h
    intro n t ht
    obtain ⟨u, hu, rfl⟩ := exists_of_ofSchema ht
    exact fun c hc ↦ Dump.normal_of_parse hs hu hc
  | call c hdb ih =>
    exact of_call (fun hschema h ↦ h.of_schema hschema) (fun hsound h hok ↦ h.run hsound hok)
      hdb.sound ih c

end Database

/-! ## Tables that are written down and read back -/

/-- The column with the index: a key column of a unique index is unique. -/
def Index.mark (i : Index) (c : Column) : Column :=
  { c with isUnique := c.isUnique || (i.unique && i.columnNames.contains c.name) }

namespace Table

/-- The table with one more index and nothing else changed: a unique index is listed among the
constraints as well, and its key columns are unique. -/
def withIndex (i : Index) (t : Table) : Table :=
  { t with
    columns := t.columns.map i.mark
    uniques := t.uniques ++ if i.unique then [⟨i.name, i.columnNames⟩] else []
    indices := t.indices ++ [i] }

/-- What is left of a table that is written down and read back: no defaults that are expressions,
and a foreign key that is made anew. -/
def readBack (t : Table) : Table := t.withoutExpressions.restored

/-- No default is an expression, and the foreign key is the one that would be made anew. -/
structure SaidInFull (t : Table) : Prop where
  defaults : ∀ c ∈ t.columns, ∀ d ∈ c.defaultValue, d = .commitTimestamp
  foreignKeys : t.foreignKeys = (t.interleave.map (Dump.parentKey t.name)).toList

theorem registerIndex_eq_withIndex (t : Table) (i : Index) : t.registerIndex i = t.withIndex i :=
  t.registerIndex_eq i

theorem Regular.stated_eq {t : Table} (h : t.Regular) (hread : t.AsRead) :
    t.stated = t.readBack := by
  have hshown : t.stated = t.shown := foldl_registerIndex_declared (KeyPart.map_name_asc _)
    (fun c hc ↦ (h.measured c hc).normal) h.isPrimary h.isUnique h.uniques
  have hcolumns : t.columns.map Column.shown = t.columns.map Column.withoutExpression :=
    List.map_congr_left fun c hc ↦ Column.shown_eq_withoutExpression (hread c hc).1 (hread c hc).2
  rw [hshown, shown, hcolumns]
  rfl

theorem columnNames_withIndex_readBack (t : Table) (i : Index) :
    (t.readBack.withIndex i).columnNames = t.columnNames := by
  change ((t.columns.map Column.withoutExpression).map _).map Column.name =
    t.columns.map Column.name
  rw [List.map_map, List.map_map]
  rfl

theorem filter_commitTimestamp_eq_iff {o : Option ColumnDefault} :
    o.filter (· == .commitTimestamp) = o ↔ ∀ d ∈ o, d = .commitTimestamp := by
  cases o with
  | none => simp
  | some d => simp [Option.filter]

/-- Nothing but the index is new exactly if statements say all of the table. -/
theorem withIndex_readBack_eq_iff {t : Table} {i : Index} :
    t.readBack.withIndex i = t.withIndex i ↔ t.SaidInFull := by
  have hcolumns : (t.columns.map Column.withoutExpression).map i.mark = t.columns.map i.mark ↔
      ∀ c ∈ t.columns, ∀ d ∈ c.defaultValue, d = .commitTimestamp := by
    rw [List.map_map, List.map_inj_left]
    refine forall₂_congr fun c _ ↦ ?_
    rw [← filter_commitTimestamp_eq_iff]
    constructor
    · exact congrArg Column.defaultValue
    · intro hdefault
      rw [Function.comp_apply, Column.withoutExpression, hdefault]
  constructor
  · intro h
    exact ⟨hcolumns.1 (congrArg Table.columns h), (congrArg Table.foreignKeys h).symm⟩
  · intro h
    have hmarked : (t.readBack.withIndex i).columns = (t.withIndex i).columns :=
      hcolumns.2 h.defaults
    have hkeys : (t.readBack.withIndex i).foreignKeys = (t.withIndex i).foreignKeys :=
      h.foreignKeys.symm
    rw [withIndex, withIndex, Table.mk.injEq] at *
    exact ⟨rfl, hmarked, rfl, rfl, hkeys, rfl, rfl⟩

end Table

namespace Database

variable {db db' : Database}

theorem store_inj {n : String} {t u : StoredTable}
    (h : (db.store n t).tables = (db.store n u).tables) :
    t = u := by
  have hlookup := getElem?_store db n t n
  rw [h, getElem?_store, if_pos rfl, if_pos rfl] at hlookup
  exact (Option.some.inj hlookup).symm

/-- Whatever calls a database comes about by, and whatever the text of a statement is that creates
an index: if it is accepted, its index is read off it and was not there, and the table gets it. No
other table changes, and no rows. But the table itself is read back, so nothing else of it changes
exactly if none of its defaults is an expression and its foreign key is the one of its parent. -/
theorem createIndex_reads_back (h : db.Reachable) {statement index table : String}
    (hcommand : Command.ofText? statement = some (.createIndex index table))
    (hok : updateDdl [statement] db = .ok ⟨⟩ db') :
    ∃ t i, db.tables[table]? = some t ∧ db.indexOwner? index = none ∧
      Dump.readIndex statement.toList = .ok i ∧ i.name = index ∧ i.table = table ∧
      (∀ c ∈ i.referenced, c ∈ t.schema.columnNames) ∧
      db' = (db.store table { t with schema := t.schema.readBack.withIndex i }).log [statement] ∧
      (db' = (db.store table { t with schema := t.schema.withIndex i }).log [statement] ↔
        t.schema.SaidInFull) := by
  obtain ⟨m, hrun, rfl⟩ := exists_of_updateDdl_singleton hok
  have hcreate : db.createIndex statement index table = .ok m := by
    rw [run, hcommand] at hrun
    exact hrun
  obtain ⟨t, own, parsed, u, howner, ht, hown, hparse, hu, rfl⟩ := createIndex_eq_ok hcreate
  have hsound := (h.sound.tables table t ht).schema
  have hname := h.sound.named table t ht
  obtain ⟨items, hitems, hlookup⟩ := hsound.lookup_of_parse hown hparse
  obtain ⟨i, rfl, hread, hindex, htable⟩ := Dump.exists_index_of_readItems hcommand hitems
  have hindices : (Dump.indices [.index i]).filter (·.table == table) = [i] := by
    rw [show Dump.indices [.index i] = [i] from rfl, List.filter_singleton, htable,
      beq_self_eq_true]
    rfl
  -- The table is what its own statements say, and the index behind them.
  have hback : u = t.schema.readBack.withIndex i := by
    rw [hname, hu, hindices, List.foldl_append] at hlookup
    rw [Option.some.inj hlookup, ← Table.registerIndex_eq_withIndex,
      ← (h.regular table t ht).stated_eq (h.asRead table t ht)]
    rfl
  subst hback
  refine ⟨t, i, ht, howner, hread, hindex, htable, fun c hc ↦ ?_, rfl, ?_⟩
  · have hdeclared := (Dump.sound_of_parse hparse hu).1.declaresIndexed i
      (List.mem_append_right _ (List.mem_singleton_self i)) c hc
    rwa [Table.columnNames_withIndex_readBack] at hdeclared
  · rw [← Table.withIndex_readBack_eq_iff (i := i)]
    constructor
    · intro hsame
      have hlogged := congrArg Database.tables hsame
      have htables : (db.store table { t with schema := t.schema.readBack.withIndex i }).tables
          = (db.store table { t with schema := t.schema.withIndex i }).tables := hlogged
      exact congrArg StoredTable.schema (store_inj htables)
    · intro hsame
      rw [hsame]
      rfl

/-- A table with a default that is an expression. -/
def defaulted : Database :=
  (Call.updateDdl ["CREATE TABLE t (a INT64, b BOOL DEFAULT (true)) PRIMARY KEY (a)"]).apply {}

/-- What the defaults are with one more index, and what they were. -/
theorem seen_defaulted :
    defaulted.tables["t"]?.map (·.schema.columns.map (·.defaultValue))
        = some [none, some (.expression "true")] ∧
      seen (fun _ db ↦ db.tables["t"]?.map (·.schema.columns.map (·.defaultValue)))
        (updateDdl ["CREATE INDEX i ON t (a)"]) defaulted = some (some [none, none]) := by
  decide +kernel

theorem defaulted_createIndex :
    ∃ db' t i, updateDdl ["CREATE INDEX i ON t (a)"] defaulted = .ok ⟨⟩ db' ∧
      defaulted.tables["t"]? = some t ∧ i.name = "i" ∧ i.table = "t" ∧
      db' = (defaulted.store "t" { t with schema := t.schema.readBack.withIndex i }).log
        ["CREATE INDEX i ON t (a)"] := by
  obtain ⟨⟨⟩, db', hok, -⟩ := exists_of_seen seen_defaulted.2
  have hreachable : defaulted.Reachable := .call _ .empty
  have hcommand : Command.ofText? "CREATE INDEX i ON t (a)" = some (.createIndex "i" "t") := by
    decide +kernel
  obtain ⟨t, i, ht, -, -, hname, htable, -, hstore, -⟩ :=
    createIndex_reads_back hreachable hcommand hok
  exact ⟨db', t, i, hok, ht, hname, htable, hstore⟩

/-- An index on one column takes the default from another. -/
theorem defaulted_loses_default :
    ∃ db' t t', updateDdl ["CREATE INDEX i ON t (a)"] defaulted = .ok ⟨⟩ db' ∧
      defaulted.tables["t"]? = some t ∧ db'.tables["t"]? = some t' ∧
      t.schema.columns.map (·.defaultValue) = [none, some (.expression "true")] ∧
      t'.schema.columns.map (·.defaultValue) = [none, none] := by
  obtain ⟨hbefore, hafter⟩ := seen_defaulted
  obtain ⟨⟨⟩, db', hok, hafter⟩ := exists_of_seen hafter
  obtain ⟨t, ht, hdefaults⟩ := Option.map_eq_some_iff.1 hbefore
  obtain ⟨t', ht', hdefaults'⟩ := Option.map_eq_some_iff.1 hafter
  exact ⟨db', t, t', hok, ht, ht', hdefaults, hdefaults'⟩

end Database

end SchemaLedger
