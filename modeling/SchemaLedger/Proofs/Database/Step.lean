import Mathlib
import SchemaLedger.Database.Update
import SchemaLedger.Proofs.Failing

/-!
# What a command does

For each command, everything that holds when it succeeds: what was there before, and what the
database is afterwards. All that is shown of commands is shown from this.
-/

namespace SchemaLedger

/-- A column with the permission to hold the commit timestamp, or without it. -/
def Column.permit (allowed : Bool) (c : Column) : Column :=
  if allowed then { c with defaultValue := some .commitTimestamp }
  else if c.defaultValue = some .commitTimestamp then { c with defaultValue := none }
  else c

@[simp]
theorem Column.name_permit (allowed : Bool) (c : Column) : (c.permit allowed).name = c.name := by
  rw [permit]
  split
  · rfl
  · split <;> rfl

/-- A column with the type, the nullability and the default of another. -/
def Column.alter (altered c : Column) : Column :=
  { c with
    type := altered.type
    nullable := altered.nullable
    length := altered.length
    isArray := altered.isArray
    defaultValue := altered.defaultValue }

@[simp]
theorem Column.name_alter (altered c : Column) : (altered.alter c).name = c.name := rfl

/-- The table with a column behind the others. -/
def Table.appendColumn (t : Table) (c : Column) : Table := { t with columns := t.columns ++ [c] }

/-- The table without a column. -/
def Table.eraseColumn (t : Table) (column : String) : Table :=
  { t with columns := t.columns.filter (·.name != column) }

theorem Table.columnNames_appendColumn (t : Table) (c : Column) :
    (t.appendColumn c).columnNames = t.columnNames ++ [c.name] :=
  List.map_append

theorem Table.mem_columnNames_eraseColumn {t : Table} {column n : String} :
    n ∈ (t.eraseColumn column).columnNames ↔ n ∈ t.columnNames ∧ n ≠ column := by
  simp only [columnNames, eraseColumn, List.mem_map, List.mem_filter, bne_iff_ne]
  constructor
  · rintro ⟨c, ⟨hc, hne⟩, rfl⟩
    exact ⟨⟨c, hc, rfl⟩, hne⟩
  · rintro ⟨⟨c, hc, rfl⟩, hne⟩
    exact ⟨c, ⟨hc, hne⟩, rfl⟩

theorem Table.columnNames_dropIndex (t : Table) (index : String) :
    (t.dropIndex index).columnNames = t.columnNames := by
  rw [columnNames, dropIndex, List.map_map]
  rfl

namespace Database

variable {db db' : Database}

theorem getElem?_schema (db : Database) (n : String) :
    db.schema[n]? = db.tables[n]?.map (·.schema) := by
  rw [schema, Std.ExtTreeMap.getElem?_map]

theorem getElem?_empty (n : String) : ({} : Database).tables[n]? = none :=
  Std.ExtTreeMap.getElem?_empty

/-- Databases with the same schema have the same tables but for the rows. -/
theorem exists_of_schema_eq (h : db'.schema = db.schema) {n : String} {t : StoredTable}
    (ht : db'.tables[n]? = some t) : ∃ u, db.tables[n]? = some u ∧ u.schema = t.schema := by
  have hlookup := getElem?_schema db' n
  rw [h, getElem?_schema, ht] at hlookup
  exact Option.map_eq_some_iff.1 hlookup

theorem exists_of_ofSchema {s : Schema} {n : String} {t : StoredTable}
    (h : (ofSchema s).tables[n]? = some t) :
    ∃ u, s[n]? = some u ∧ t = { schema := u } := by
  rw [ofSchema, Std.ExtTreeMap.getElem?_map] at h
  obtain ⟨u, hu, rfl⟩ := Option.map_eq_some_iff.1 h
  exact ⟨u, hu, rfl⟩

theorem getElem?_store (db : Database) (n : String) (t : StoredTable) (k : String) :
    (db.store n t).tables[k]? = if n = k then some t else db.tables[k]? := by
  rw [store, Std.ExtTreeMap.getElem?_insert]
  simp only [Std.LawfulEqOrd.compare_eq_iff_eq]

theorem contains_eq_false {n : String} (h : ¬db.tables.contains n = true) :
    db.tables[n]? = none := by
  rw [Std.ExtTreeMap.contains_eq_isSome_getElem?] at h
  simpa using h

theorem exists_of_contains {n : String} (h : db.tables.contains n = true) :
    ∃ t, db.tables[n]? = some t := by
  rw [Std.ExtTreeMap.contains_eq_isSome_getElem?] at h
  exact Option.isSome_iff_exists.1 h

theorem demand_eq_ok {n : String} {t : StoredTable} (h : db.demand n = .ok t) :
    db.tables[n]? = some t := by
  rw [demand] at h
  split at h
  · rename_i ht
    exact Except.ok.inj h ▸ ht
  · contradiction

/-- A table is created unless there is one of its name; its parent has to be there. -/
theorem createTable_eq_ok {statement name : String} {ifNotExists : Bool}
    (h : db.createTable statement name ifNotExists = .ok db') :
    (ifNotExists = true ∧ db.tables.contains name = true ∧ db' = db) ∨
      ∃ parsed table, db.tables[name]? = none ∧ Dump.parse [statement] = .ok parsed ∧
        parsed[name]? = some table ∧ (∀ i ∈ table.interleave, ∃ p, db.tables[i.parent]? = some p) ∧
        db' = db.store name { schema := table } := by
  rw [createTable] at h
  split at h
  · rename_i hcontains
    split at h
    · exact Or.inl ⟨‹_›, hcontains, (Except.ok.inj h).symm⟩
    · contradiction
  · rename_i hnew
    obtain ⟨parsed, hparse, h⟩ := bind_eq_ok h
    refine Or.inr ?_
    split at h
    · contradiction
    · rename_i table htable
      refine ⟨parsed, table, contains_eq_false hnew, mapError_eq_ok hparse, htable, ?_⟩
      split at h
      · rename_i hinterleave
        exact ⟨fun i hi ↦ absurd (hinterleave ▸ hi) (Option.not_mem_none i), (Except.ok.inj h).symm⟩
      · rename_i i hinterleave
        split at h
        · rename_i hparent
          refine ⟨fun j hj ↦ ?_, (Except.ok.inj h).symm⟩
          obtain rfl : i = j := Option.some.inj (hinterleave.symm.trans hj)
          exact exists_of_contains hparent
        · contradiction

theorem dropTable_eq_ok {name : String} {ifExists : Bool}
    (h : db.dropTable name ifExists = .ok db') :
    (db.tables[name]? = none ∧ db' = db) ∨
      ∃ t, db.tables[name]? = some t ∧ db.child? name = none ∧
        db' = { db with tables := db.tables.erase name } := by
  rw [dropTable] at h
  split at h
  · rename_i hcontains
    obtain ⟨t, ht⟩ := exists_of_contains hcontains
    split at h
    · contradiction
    · rename_i hchild
      exact Or.inr ⟨t, ht, hchild, (Except.ok.inj h).symm⟩
  · rename_i hnew
    split at h
    · exact Or.inl ⟨contains_eq_false hnew, (Except.ok.inj h).symm⟩
    · contradiction

/-- The tables after one has been given another name. -/
def renamed (db : Database) (old new : String) (t : StoredTable) : Database :=
  { db with
    tables := ((db.tables.erase old).map fun _ ↦ StoredTable.renameParent old new).insert new
      (t.rename new) }

theorem getElem?_renamed (db : Database) (old new : String) (t : StoredTable) (k : String) :
    (db.renamed old new t).tables[k]?
      = if new = k then some (t.rename new)
        else if old = k then none
        else db.tables[k]?.map (StoredTable.renameParent old new) := by
  rw [renamed, Std.ExtTreeMap.getElem?_insert, Std.ExtTreeMap.getElem?_map,
    Std.ExtTreeMap.getElem?_erase]
  simp only [Std.LawfulEqOrd.compare_eq_iff_eq]
  split
  · rfl
  · split <;> rfl

/-- A table that is there after a renaming has the new name, or it was there under its own. -/
theorem renamed_cases {old new n : String} {t u : StoredTable}
    (hu : (db.renamed old new t).tables[n]? = some u) :
    n = new ∧ u = t.rename new ∨
      n ≠ new ∧ n ≠ old ∧ ∃ v, db.tables[n]? = some v ∧ u = v.renameParent old new := by
  rw [getElem?_renamed] at hu
  split at hu
  · rename_i hn
    exact Or.inl ⟨hn.symm, (Option.some.inj hu).symm⟩
  · rename_i hnew
    split at hu
    · contradiction
    · rename_i hold
      obtain ⟨v, hv, rfl⟩ := Option.map_eq_some_iff.1 hu
      exact Or.inr ⟨Ne.symm hnew, Ne.symm hold, v, hv, rfl⟩

/-- The name that a table had before one was given another name. -/
def formerName (old new n : String) : String := if new = n then old else n

theorem formerName_self (old new : String) : formerName old new new = old := if_pos rfl

theorem formerName_of_ne {old new n : String} (h : n ≠ new) : formerName old new n = n :=
  if_neg h.symm

theorem renameTable_eq_ok {old new : String} (h : db.renameTable old new = .ok db') :
    ∃ t, db.tables[old]? = some t ∧ db.tables[new]? = none ∧ db' = db.renamed old new t := by
  rw [renameTable] at h
  split at h
  · contradiction
  · rename_i hnew
    obtain ⟨t, ht, h⟩ := bind_eq_ok h
    exact ⟨t, demand_eq_ok ht, contains_eq_false hnew, (Except.ok.inj h).symm⟩

/-- An index is created by reading its table again. -/
theorem createIndex_eq_ok {statement index table : String}
    (h : db.createIndex statement index table = .ok db') :
    ∃ t own parsed u, db.indexOwner? index = none ∧ db.tables[table]? = some t ∧
      t.schema.sql = .ok own ∧ Dump.parse (own ++ [statement]) = .ok parsed ∧
      parsed[table]? = some u ∧ db' = db.store table { t with schema := u } := by
  rw [createIndex] at h
  split at h
  · contradiction
  · rename_i howner
    obtain ⟨t, ht, h⟩ := bind_eq_ok h
    obtain ⟨own, hown, h⟩ := bind_eq_ok h
    obtain ⟨parsed, hparsed, h⟩ := bind_eq_ok h
    split at h
    · contradiction
    · rename_i u hu
      exact ⟨t, own, parsed, u, by simpa using howner, demand_eq_ok ht, mapError_eq_ok hown,
        mapError_eq_ok hparsed, hu, (Except.ok.inj h).symm⟩

theorem dropIndex_eq_ok {index : String} (h : db.dropIndex index = .ok db') :
    ∃ owner t, db.indexOwner? index = some owner ∧ db.tables[owner.name]? = some t ∧
      db' = db.store owner.name { t with schema := t.schema.dropIndex index } := by
  rw [dropIndex] at h
  split at h
  · contradiction
  · rename_i owner howner
    obtain ⟨t, ht, h⟩ := bind_eq_ok h
    exact ⟨owner, t, howner, demand_eq_ok ht, (Except.ok.inj h).symm⟩

theorem addColumn_eq_ok {table : String} {text : List Char}
    (h : db.addColumn table text = .ok db') :
    ∃ c t, Dump.columnOfText text = .ok c ∧ db.tables[table]? = some t ∧
      c.name ∉ t.schema.columnNames ∧
      db' = db.store table { t with schema := t.schema.appendColumn c } := by
  rw [addColumn] at h
  obtain ⟨c, hc, h⟩ := bind_eq_ok h
  obtain ⟨t, ht, h⟩ := bind_eq_ok h
  split at h
  · contradiction
  · rename_i hnew
    exact ⟨c, t, mapError_eq_ok hc, demand_eq_ok ht, fun hmem ↦ hnew (Table.hasColumn_iff.2 hmem),
      (Except.ok.inj h).symm⟩

theorem dropColumn_eq_ok {table column : String} (h : db.dropColumn table column = .ok db') :
    ∃ t, db.tables[table]? = some t ∧ column ∈ t.schema.columnNames ∧ column ∉ t.schema.primaryKey ∧
      (∀ i ∈ t.schema.indices, column ∉ i.referenced) ∧
      db' = db.store table
        { schema := t.schema.eraseColumn column,
          rows := t.rows.map fun _ row ↦ row.erase column } := by
  rw [dropColumn] at h
  obtain ⟨t, ht, h⟩ := bind_eq_ok h
  split at h
  · contradiction
  · rename_i hcolumn
    split at h
    · contradiction
    · rename_i hkey
      split at h
      · contradiction
      · rename_i hindexed
        refine ⟨t, demand_eq_ok ht, Table.hasColumn_iff.1 (by simpa using hcolumn),
          fun hmem ↦ hkey (List.contains_iff_mem.2 hmem), fun i hi hmem ↦ hindexed ?_,
          (Except.ok.inj h).symm⟩
        exact List.any_eq_true.2 ⟨i, hi, List.contains_iff_mem.2 hmem⟩

theorem allowCommitTimestamp_eq_ok {table column : String} {allowed : Bool}
    (h : db.allowCommitTimestamp table column allowed = .ok db') :
    ∃ t, db.tables[table]? = some t ∧ column ∈ t.schema.columnNames ∧
      db' = db.store table
        { t with schema := t.schema.modifyColumn column (Column.permit allowed) } := by
  rw [allowCommitTimestamp] at h
  obtain ⟨t, ht, h⟩ := bind_eq_ok h
  split at h
  · contradiction
  · rename_i hcolumn
    exact ⟨t, demand_eq_ok ht, Table.hasColumn_iff.1 (by simpa using hcolumn),
      (Except.ok.inj h).symm⟩

theorem alterColumn_eq_ok {table : String} {text : List Char}
    (h : db.alterColumn table text = .ok db') :
    ∃ c t, Dump.columnOfText text = .ok c ∧ db.tables[table]? = some t ∧
      c.name ∈ t.schema.columnNames ∧
      db' = db.store table { t with schema := t.schema.modifyColumn c.name (Column.alter c) } := by
  rw [alterColumn] at h
  obtain ⟨c, hc, h⟩ := bind_eq_ok h
  obtain ⟨t, ht, h⟩ := bind_eq_ok h
  split at h
  · contradiction
  · rename_i hcolumn
    exact ⟨c, t, mapError_eq_ok hc, demand_eq_ok ht, Table.hasColumn_iff.1 (by simpa using hcolumn),
      (Except.ok.inj h).symm⟩

end Database

end SchemaLedger
