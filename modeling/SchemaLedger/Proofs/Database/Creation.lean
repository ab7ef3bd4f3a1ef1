import Mathlib
import SchemaLedger.Proofs.Database.Described
import SchemaLedger.Proofs.Database.Extension

/-!
# What creating statements do

A table that comes about by a written statement is the one that the statement declares, unless the
statement is refused. It has no rows. The statements of indices that follow leave all tables their
columns, keys and rows, and leave the columns what the database knows of the origin of their values.
-/

namespace SchemaLedger

open Text Text.Scanner Identifier

/-! ## Written tables -/

namespace Dump

/-- The statement of a table, if it can be read by itself, is read as what it declares. -/
theorem declared_of_parse {table : String} {ine : Bool} {columns : List ColumnClause}
    {key : List KeyPart} {is : List Interleave} (htable : Legible table)
    (hcolumns : ∀ c ∈ columns, '\x60' ∉ c.name.toList)
    (hkey : ∀ p ∈ key, p.name ∈ columns.map (·.name)) (his : ∀ i ∈ is, '\x60' ∉ i.parent.toList)
    {s : Schema} (hparse : parse [(Ddl.createTable table ine columns key is).text] = .ok s)
    {t : Table} (ht : s[table]? = some t) :
    ∃ parent : Option Interleave, is = parent.toList ∧ Table.Declarable table columns key parent ∧
      t = Table.declared table columns key parent := by
  obtain ⟨items, ts, hitems, hreading⟩ := exists_of_parse hparse
  obtain ⟨item, rest, hread, hrest, rfl⟩ := exists_of_readItems_cons
    (stops_createTable _ _ _ _ _) (toList_createTable_ne_nil _ _ _ _ _) hitems
  obtain rfl := Except.ok.inj hrest
  obtain ⟨text, rfl, -⟩ := exists_text_of_readItem htable hread
  obtain ⟨u, us, hu, hus, rfl⟩ := mapM_cons_eq_ok hreading.built
  obtain rfl := Except.ok.inj hus
  obtain ⟨parent, hparent, hdeclarable, rfl⟩ :=
    declarable_of_build htable hcolumns hkey his hread rfl hu
  refine ⟨parent, hparent, hdeclarable, ?_⟩
  rw [hreading.lookup] at ht
  obtain ⟨v, hv, rfl⟩ := Option.map_eq_some_iff.1 ht
  rw [List.mem_singleton.1 (List.mem_of_find?_eq_some hv)]
  rfl

end Dump

/-- A table is created as its statement declares it, or is there already. -/
theorem Database.of_run_createTable {db db' : Database} {table : String} {ine : Bool}
    {columns : List ColumnClause} {key : List KeyPart} {is : List Interleave}
    (htable : '\x60' ∉ table.toList) (hcolumns : ∀ c ∈ columns, '\x60' ∉ c.name.toList)
    (hkey : ∀ p ∈ key, p.name ∈ columns.map (·.name)) (his : ∀ i ∈ is, '\x60' ∉ i.parent.toList)
    (hok : db.run (Ddl.createTable table ine columns key is).text = .ok db') :
    (ine = true ∧ (∃ t, db.tables[table]? = some t) ∧ db' = db) ∨
      db.tables[table]? = none ∧ ∃ parent : Option Interleave, is = parent.toList ∧
        Table.Declarable table columns key parent ∧
        (∀ i ∈ parent, ∃ p, db.tables[i.parent]? = some p) ∧
        db' = db.store table { schema := Table.declared table columns key parent } := by
  have hlegible : Legible table :=
    legible_of_run (d := .createTable table ine columns key is)
      (fun n hn ↦ List.mem_singleton.1 hn ▸ htable) hcolumns hok table List.mem_cons_self
  rw [run, Command.ofText?_createTable htable, if_neg hlegible.ne_empty] at hok
  rcases createTable_eq_ok hok with
    ⟨hine, hcontains, rfl⟩ | ⟨parsed, t, hnew, hparse, ht, hparents, rfl⟩
  · exact .inl ⟨hine, exists_of_contains hcontains, rfl⟩
  · obtain ⟨parent, his, hdeclarable, rfl⟩ :=
      Dump.declared_of_parse hlegible hcolumns hkey his hparse ht
    exact .inr ⟨hnew, parent, his, hdeclarable, hparents, rfl⟩

/-! ## Where values come from -/

namespace Table

/-- What is known of where the values of the columns come from. -/
def sources (t : Table) : List (String × Option Generation × Option ColumnDefault) :=
  t.columns.map fun c ↦ (c.name, c.generation, c.defaultValue)

/-- Of its values no more is known than a statement of the database can say. -/
def Unsourced (t : Table) : Prop :=
  ∀ c ∈ t.columns, c.generation = none ∧ ∀ d ∈ c.defaultValue, d = .commitTimestamp

theorem Unsourced.congr {t u : Table} (h : t.Unsourced) (hsources : u.sources = t.sources) :
    u.Unsourced := by
  intro c hc
  have hmem : (c.name, c.generation, c.defaultValue) ∈ t.sources := by
    rw [← hsources]
    exact List.mem_map_of_mem hc
  obtain ⟨c', hc', he⟩ := List.mem_map.1 hmem
  obtain ⟨-, hgeneration, hdefault⟩ := (Prod.mk.injEq ..).mp he |>.imp_right (Prod.mk.injEq ..).mp
  rw [← hgeneration, ← hdefault]
  exact h c' hc'

theorem sources_foldl_registerIndex (t : Table) (is : List Index) :
    (is.foldl registerIndex t).sources = t.sources := by
  rw [foldl_registerIndex, sources, sources, List.map_map]
  rfl

theorem sources_declared (name : String) (columns : List ColumnClause) (key : List KeyPart)
    (parent : Option Interleave) :
    (declared name columns key parent).sources = columns.map fun c ↦
      (c.name, none, if c.commitTimestamp then some .commitTimestamp else none) := by
  rw [sources, declared, syncPrimary, List.map_map, List.map_map]
  rfl

theorem unsourced_declared (name : String) (columns : List ColumnClause) (key : List KeyPart)
    (parent : Option Interleave) : (declared name columns key parent).Unsourced := by
  intro c hc
  obtain ⟨c', hc', rfl⟩ := List.mem_map.1 hc
  obtain ⟨clause, -, rfl⟩ := List.mem_map.1 hc'
  refine ⟨rfl, fun d hd ↦ ?_⟩
  change (if clause.commitTimestamp then some ColumnDefault.commitTimestamp else none) =
    some d at hd
  split at hd
  · exact (Option.some.inj hd).symm
  · contradiction

/-- Nothing is lost of a table of which statements say all. -/
theorem Unsourced.sources_bare {t : Table} (h : t.Unsourced) : t.bare.sources = t.sources := by
  rw [bare, sources_declared, sources, List.map_map]
  refine List.map_congr_left fun c hc ↦ ?_
  obtain ⟨hgeneration, hdefault⟩ := h c hc
  change (c.name, none, if (c.stated == some .commitTimestamp) = true then _ else _) = _
  cases hd : c.defaultValue with
  | none =>
    have hstated : c.stated = none := by rw [Column.stated, hd]; rfl
    rw [hstated, hgeneration]
    rfl
  | some d =>
    obtain rfl := hdefault d hd
    have hstated : c.stated = some .commitTimestamp := by rw [Column.stated, hd]; rfl
    rw [hstated, hgeneration]
    rfl

theorem Unsourced.sources_stated {t : Table} (h : t.Unsourced) : t.stated.sources = t.sources := by
  rw [stated, sources_foldl_registerIndex, h.sources_bare]

end Table

/-! ## Indices -/

/-- A statement that is written for an index creates an index, whatever its names are. -/
theorem Command.exists_of_ofText?_index {i : Index} {c : Command} (h : ofText? i.sql = some c) :
    ∃ index table, c = .createIndex index table := by
  rw [ofText?_create (create_prefix_createIndex i), value?_of_none (run_createTableText_sql i),
    Option.none_or] at h
  exact yields_createIndexText.of_value? h

/-- A table differs from another in indices, and in what they say of its columns. -/
structure StoredTable.Reindexed (u t : StoredTable) : Prop where
  columns : u.schema.columnNames = t.schema.columnNames
  primaryKey : u.schema.primaryKey = t.schema.primaryKey
  rows : u.rows = t.rows
  sources : t.schema.Unsourced → u.schema.sources = t.schema.sources

namespace StoredTable.Reindexed

theorem refl (t : StoredTable) : t.Reindexed t := ⟨rfl, rfl, rfl, fun _ ↦ rfl⟩

theorem trans {t u v : StoredTable} (h : v.Reindexed u) (h' : u.Reindexed t) : v.Reindexed t :=
  ⟨h.columns.trans h'.columns, h.primaryKey.trans h'.primaryKey, h.rows.trans h'.rows, fun ht ↦
    (h.sources (ht.congr (h'.sources ht))).trans (h'.sources ht)⟩

end StoredTable.Reindexed

namespace Database

variable {db db' : Database}

/-- The tables of a database are those of another, indices apart. -/
def Reindexed (db' db : Database) : Prop :=
  ∀ n : String, Option.Rel StoredTable.Reindexed db'.tables[n]? db.tables[n]?

namespace Reindexed

theorem refl (db : Database) : db.Reindexed db := by
  intro n
  cases db.tables[n]? with
  | none => exact .none
  | some t => exact .some (.refl t)

theorem trans {db'' : Database} (h : db''.Reindexed db') (h' : db'.Reindexed db) :
    db''.Reindexed db := by
  intro n
  have hn := h n
  have hn' := h' n
  generalize db''.tables[n]? = x at hn ⊢
  generalize db'.tables[n]? = y at hn hn'
  generalize db.tables[n]? = z at hn' ⊢
  cases hn' with
  | none => exact hn
  | some hut =>
    cases hn with
    | some hvu => exact .some (hvu.trans hut)

theorem exists_new (h : db'.Reindexed db) {n : String} {t : StoredTable}
    (ht : db.tables[n]? = some t) : ∃ u, db'.tables[n]? = some u ∧ u.Reindexed t := by
  have hn := h n
  rw [ht] at hn
  generalize db'.tables[n]? = y at hn ⊢
  cases hn with
  | some hut => exact ⟨_, rfl, hut⟩

theorem exists_old (h : db'.Reindexed db) {n : String} {u : StoredTable}
    (hu : db'.tables[n]? = some u) : ∃ t, db.tables[n]? = some t ∧ u.Reindexed t := by
  have hn := h n
  rw [hu] at hn
  generalize db.tables[n]? = y at hn ⊢
  cases hn with
  | some hut => exact ⟨_, rfl, hut⟩

end Reindexed

/-- A table is read again with its own columns, whatever the statement behind its own is. -/
theorem Sound.reindexed_of_createIndex (h : db.Sound) {statement index table : String}
    (hok : db.createIndex statement index table = .ok db') : db'.Reindexed db := by
  obtain ⟨t, own, parsed, u, -, ht, hsql, hparse, hu, rfl⟩ := createIndex_eq_ok hok
  intro n
  rw [getElem?_store]
  split
  · rename_i hn
    subst hn
    obtain ⟨items, -, hlookup⟩ := (h.tables table t ht).schema.lookup_of_parse hsql hparse
    rw [h.named table t ht, hu] at hlookup
    obtain rfl := Option.some.inj hlookup
    rw [ht]
    refine .some ⟨?_, ?_, rfl, fun hsources ↦ ?_⟩
    · exact (Table.columnNames_registerIndices _ _).trans (Table.columnNames_bare _)
    · change (List.foldl Table.registerIndex t.schema.bare _).primaryKey = _
      rw [Table.foldl_registerIndex]
      exact Table.primaryKey_bare _
    · exact (Table.sources_foldl_registerIndex _ _).trans hsources.sources_bare
  · exact Reindexed.refl db n

theorem Sound.reindexed_of_run (h : db.Sound) {i : Index} (hok : db.run i.sql = .ok db') :
    db'.Reindexed db := by
  rw [Database.run] at hok
  cases hc : Command.ofText? i.sql with
  | none =>
    rw [hc] at hok
    contradiction
  | some c =>
    obtain ⟨index, table, rfl⟩ := Command.exists_of_ofText?_index hc
    rw [hc] at hok
    exact h.reindexed_of_createIndex hok

/-- Tables stay what they were, indices apart, whether or not one of the creations is refused. -/
theorem keeps_reindexed_updateDdl (start : Database) (is : List Index) :
    Keeps (fun db ↦ db.Sound ∧ db.Reindexed start) (updateDdl (is.map Index.sql)) := by
  refine .forM fun x hx db ⟨hdb, hstart⟩ ↦ ⟨keeps_sound_execute x db hdb, ?_⟩
  obtain ⟨i, -, rfl⟩ := List.mem_map.1 hx
  rcases execute_cases i.sql db with ⟨e, he⟩ | ⟨m, hrun, hok⟩
  · rwa [ending_of_error he]
  · rw [ending_of_ok hok]
    exact (show Reindexed m db from hdb.reindexed_of_run hrun).trans hstart

/-! ## Creations of indices from the same tables -/

/-- Whether an index can be created depends on the tables alone, and so does what becomes of
them. -/
theorem createIndex_congr (h : db'.tables = db.tables) (statement index table : String) :
    (db'.createIndex statement index table).map (·.tables)
      = (db.createIndex statement index table).map (·.tables) := by
  have hschema : db'.schema = db.schema := by rw [schema, schema, h]
  rw [createIndex, createIndex, indexOwner?, indexOwner?, hschema, demand, demand, h]
  by_cases howner : (db.schema.values.find? fun t ↦ (t.index? index).isSome).isSome = true
  · rw [if_pos howner, if_pos howner]
  · rw [if_neg howner, if_neg howner]
    cases db.tables[table]? with
    | none => rfl
    | some t =>
      dsimp only
      rw [ok_bind, ok_bind]
      cases t.schema.sql.mapError Refusal.schema with
      | error e => rfl
      | ok own =>
        rw [ok_bind, ok_bind]
        cases (Dump.parse (own ++ [statement])).mapError Refusal.schema with
        | error e => rfl
        | ok parsed =>
          rw [ok_bind, ok_bind]
          cases parsed[table]? with
          | none => rfl
          | some u =>
            have hstore : (db'.store table { t with schema := u }).tables
                = (db.store table { t with schema := u }).tables := by rw [store, store, h]
            exact congrArg Except.ok hstore

theorem run_index_congr (h : db'.tables = db.tables) (i : Index) :
    (db'.run i.sql).map (·.tables) = (db.run i.sql).map (·.tables) := by
  rw [run, run]
  cases hc : Command.ofText? i.sql with
  | none => rfl
  | some c =>
    obtain ⟨index, table, rfl⟩ := Command.exists_of_ofText?_index hc
    exact createIndex_congr h i.sql index table

/-- Outcomes of statements that differ at most in what is remembered apart from the tables. -/
inductive SameOutcome :
    EStateM.Result PassError Database Unit → EStateM.Result PassError Database Unit → Prop
  | ok {m m' : Database} (h : m'.tables = m.tables) : SameOutcome (.ok () m') (.ok () m)
  | error {m m' : Database} (e : PassError) (h : m'.tables = m.tables) :
      SameOutcome (.error e m') (.error e m)

theorem execute_index_congr (h : db'.tables = db.tables) (i : Index) :
    SameOutcome (execute i.sql db') (execute i.sql db) := by
  have hsame := run_index_congr h i
  cases hrun' : db'.run i.sql with
  | ok m' =>
    rw [hrun'] at hsame
    cases hrun : db.run i.sql with
    | ok m =>
      rw [hrun] at hsame
      rw [execute_of_run hrun', execute_of_run hrun]
      exact .ok (Except.ok.inj hsame)
    | error e =>
      rw [hrun] at hsame
      cases hsame
  | error e' =>
    rw [hrun'] at hsame
    cases hrun : db.run i.sql with
    | ok m =>
      rw [hrun] at hsame
      cases hsame
    | error e =>
      rw [hrun] at hsame
      obtain rfl : e' = e := Except.error.inj hsame
      rw [execute_of_run_error hrun', execute_of_run_error hrun]
      exact .error _ h

/-- Creations of indices come to the same from the same tables. -/
theorem updateDdl_indices_congr (h : db'.tables = db.tables) (is : List Index) :
    SameOutcome (updateDdl (is.map Index.sql) db') (updateDdl (is.map Index.sql) db) := by
  induction is generalizing db db' with
  | nil => exact .ok h
  | cons i is ih =>
    have hfirst := execute_index_congr h i
    change SameOutcome ((do execute i.sql; updateDdl (is.map Index.sql)) db')
      ((do execute i.sql; updateDdl (is.map Index.sql)) db)
    generalize hx' : execute i.sql db' = x' at hfirst
    generalize hx : execute i.sql db = x at hfirst
    cases hfirst with
    | ok hm =>
      rw [run_bind_of_ok hx', run_bind_of_ok hx]
      exact ih hm
    | error e hm =>
      rw [run_bind_of_error hx', run_bind_of_error hx]
      exact .error e hm

namespace SameOutcome

variable {m m' : DatabaseM Unit} (h : SameOutcome (m' db') (m db))

include h

theorem tables_ending : (ending m' db').tables = (ending m db).tables := by
  rw [ending, ending]
  generalize m' db' = x' at h ⊢
  generalize m db = x at h ⊢
  cases h with
  | ok h => exact h
  | error e h => exact h

theorem exists_error {e : PassError} {u : Database} (he : m' db' = .error e u) :
    ∃ t, m db = .error e t := by
  rw [he] at h
  generalize m db = x at h ⊢
  cases h with
  | error e h => exact ⟨_, rfl⟩

end SameOutcome

end Database

end SchemaLedger
