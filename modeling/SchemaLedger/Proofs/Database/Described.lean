import Mathlib
import SchemaLedger.Proofs.Database.Sound

/-!
# What a database describes

The dump of a sound database holds every table once, and where it is read again each table comes
back as its statements say. They say nothing of where values come from, and of the defaults only
which columns hold the commit timestamp.
-/

namespace SchemaLedger

namespace Table

/-- The table as its statements say. -/
def stated (t : Table) : Table := t.indices.foldl registerIndex t.bare

theorem columnNames_stated (t : Table) : t.stated.columnNames = t.columnNames := by
  rw [stated, columnNames_registerIndices, columnNames_bare]

theorem generation_of_mem_stated {t : Table} {c : Column} (h : c ∈ t.stated.columns) :
    c.generation = none := by
  rw [stated, foldl_registerIndex] at h
  obtain ⟨c', hc', rfl⟩ := List.mem_map.1 h
  obtain ⟨c'', hc'', rfl⟩ := List.mem_map.1 hc'
  obtain ⟨clause, -, rfl⟩ := List.mem_map.1 hc''
  rfl

/-- The statements that create a table and its indices. -/
def creation (t : Table) : List String := t.toDdl.text :: t.indices.map Index.sql

/-- A sound table is written down if no other type is to hold the commit timestamp. -/
theorem Sound.sql_of_timed {t : Table} (h : t.Sound) (htimed : t.Timed) :
    t.sql = .ok t.creation := by
  rw [sql, lowerAll_statements htimed h.declaresKey fun i hi ↦ (h.indices i hi).2.1]
  change Except.ok (t.toDdl.text :: (t.indices.map Ddl.createIndex).map Ddl.text) = _
  rw [List.map_map]
  rfl

end Table

namespace Database

/-! ## The order of a dump -/

theorem depthFrom_le (s : Schema) (limit : Nat) (parent : Option String) :
    depthFrom s limit parent ≤ limit := by
  induction limit generalizing parent with
  | zero => exact Nat.le_of_eq (by rw [depthFrom])
  | succ limit ih =>
    cases parent with
    | none => rw [depthFrom]; omega
    | some p =>
      rw [depthFrom]
      have := ih ((s[p]?).bind fun t ↦ t.interleave.map (·.parent))
      omega

/-- Every table is dumped. -/
theorem mem_dumpOrder {s : Schema} {t : Table} :
    t ∈ dumpOrder s ↔ ∃ n : String, s[n]? = some t := by
  rw [dumpOrder, List.mem_flatMap, ← mem_values]
  constructor
  · rintro ⟨d, -, ht⟩
    exact (List.mem_filter.1 ht).1
  · intro ht
    have hdepth : depth s t ≤ s.size + 1 := depthFrom_le s _ _
    exact ⟨depth s t, List.mem_range.2 (by omega), List.mem_filter.2 ⟨ht, beq_self_eq_true _⟩⟩

/-- No table is dumped twice. -/
theorem nodup_dumpOrder {s : Schema} (h : ∀ (n : String) (t : Table), s[n]? = some t → t.name = n) :
    ((dumpOrder s).map (·.name)).Nodup := by
  have hvalues : (s.values.map (·.name)).Nodup := nodup_map_values h
  refine List.pairwise_map.2 (List.pairwise_flatMap.2 ⟨fun d _ ↦ ?_, ?_⟩)
  · exact List.pairwise_map.1 (hvalues.sublist (List.filter_sublist.map _))
  · -- A table has one depth only.
    refine List.pairwise_lt_range.imp fun hlt t ht u hu hname ↦ ?_
    obtain ⟨htmem, htdepth⟩ := List.mem_filter.1 ht
    obtain ⟨humem, hudepth⟩ := List.mem_filter.1 hu
    obtain rfl := List.inj_on_of_nodup_map hvalues htmem humem hname
    exact hlt.ne ((beq_iff_eq.1 htdepth).symm.trans (beq_iff_eq.1 hudepth))

theorem dumpStatements_eq {s : Schema} (h : ∀ t ∈ dumpOrder s, t.sql = .ok t.creation) :
    dumpStatements s = .ok ((dumpOrder s).flatMap Table.creation) := by
  have hsql : ((dumpOrder s).map id).mapM Table.sql = .ok ((dumpOrder s).map Table.creation) :=
    mapM_ok h
  rw [List.map_id] at hsql
  rw [dumpStatements, hsql, List.flatMap_def]
  rfl

/-! ## Reading a dump -/

/-- The tables that the statements of a database describe. -/
def described (db : Database) : Except SchemaError Schema := do
  Dump.parse (← dumpStatements db.schema)

variable {db : Database} {r : Schema}

theorem described_congr {db' : Database} (h : db'.schema = db.schema) :
    db'.described = db.described := by
  rw [described, described, h]

/-- What a database describes is sound and kept by name. -/
theorem sound_of_described (h : db.described = .ok r) {n : String} {t : Table}
    (ht : r[n]? = some t) :
    t.Sound ∧ t.name = n := by
  obtain ⟨dump, -, hparse⟩ := bind_eq_ok h
  exact Dump.sound_of_parse hparse ht

/-- A sound database describes its tables as their statements say, and no others. -/
theorem getElem?_of_described (h : db.Sound) (hr : db.described = .ok r) (n : String) :
    r[n]? = db.tables[n]?.map fun t ↦ t.schema.stated := by
  have hmem {t : Table} : t ∈ dumpOrder db.schema ↔
      ∃ (k : String) (u : StoredTable), db.tables[k]? = some u ∧ u.schema = t := by
    rw [mem_dumpOrder]
    simp only [getElem?_schema, Option.map_eq_some_iff]
  have hsound : ∀ t ∈ dumpOrder db.schema, t.Sound := by
    intro t ht
    obtain ⟨k, u, hu, rfl⟩ := hmem.1 ht
    exact (h.tables k u hu).schema
  obtain ⟨dump, hdump, hparse⟩ := bind_eq_ok hr
  obtain ⟨owns, howns, rfl⟩ := map_eq_ok hdump
  rw [← List.append_nil owns.flatten] at hparse
  obtain ⟨items, us, hitems, hreading⟩ := Dump.exists_of_parse_append hsound howns hparse
  obtain rfl : items = [] := (Except.ok.inj hitems).symm
  obtain rfl : us = [] := (Except.ok.inj hreading.built).symm
  cases hn : db.tables[n]? with
  | some t =>
    have hlookup := hreading.lookup_of_mem hsound (hmem.2 ⟨n, t, hn, rfl⟩)
    rw [h.named n t hn] at hlookup
    rw [hlookup, show Dump.indices [] = [] from rfl, List.filter_nil, List.append_nil]
    rfl
  | none =>
    have hfind : ((dumpOrder db.schema).map Table.bare ++ []).find? (fun u : Table ↦ u.name == n) =
        none := by
      refine List.find?_eq_none.2 fun u hu hname ↦ ?_
      rw [List.append_nil] at hu
      obtain ⟨t, ht, rfl⟩ := List.mem_map.1 hu
      obtain ⟨k, v, hv, rfl⟩ := hmem.1 ht
      have hkn : k = n := (h.named k v hv).symm.trans (beq_iff_eq.1 hname)
      rw [← hkn, hv] at hn
      contradiction
    rw [hreading.lookup, hfind]
    rfl

end Database

end SchemaLedger
