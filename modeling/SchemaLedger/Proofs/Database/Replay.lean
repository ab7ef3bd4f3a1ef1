import Mathlib
import SchemaLedger.Proofs.Database.Meaning

/-!
# Dumps can be executed

The dump of a database is a list of statements, and the database that executes them, starting from
nothing, ends up with the same tables. This is shown of databases that have had nothing but batches
of statements with tame names, whatever was accepted of them: every table of such a database is
written down, and when the statements of a table come up in the dump, its parent has been created,
and neither its name nor that of any of its indices has been used.

What does not come back is the foreign key of a table whose parent has got another name: the foreign
key still has the old one.
-/

namespace SchemaLedger

open Identifier

/-! ## The statements of a table -/

namespace Table

@[simp] theorem restored_restored (t : Table) : t.restored.restored = t.restored := rfl

theorem restored_bare (t : Table) : t.bare.restored = t.bare := rfl

theorem restored_registerIndex (t : Table) (i : Index) :
    (t.registerIndex i).restored = t.restored.registerIndex i := by
  rw [registerIndex_eq, registerIndex_eq]
  rfl

variable {t : Table}

theorem Restorable.bare (h : t.Restorable) (hstorable : t.Storable) : t.bare.Restorable := by
  refine restorable_declared (hstorable.declarable (KeyPart.map_name_asc _)) fun c hc htimestamp ↦
    ?_
  obtain ⟨d, hd, rfl⟩ := List.mem_map.1 hc
  exact h.timed d hd (beq_iff_eq.1 htimestamp)

end Table

/-! ## Statements that are accepted -/

namespace Database

variable {db : Database}

theorem indexOwner?_eq_none {index : String}
    (h : ∀ (n : String) (t : StoredTable), db.tables[n]? = some t → index ∉ t.schema.indexNames) :
    db.indexOwner? index = none := by
  refine List.find?_eq_none.2 fun t ht hsome ↦ ?_
  obtain ⟨n, hn⟩ := mem_values.1 ht
  rw [getElem?_schema] at hn
  obtain ⟨u, hu, rfl⟩ := Option.map_eq_some_iff.1 hn
  obtain ⟨i, hi, hname⟩ := List.find?_isSome.1 hsome
  exact h n u hu (List.mem_map.2 ⟨i, hi, beq_iff_eq.1 hname⟩)

theorem readable_toDdl {t : Table} (h : t.Storable) : t.toDdl.Readable := by
  have hdeclarable : Table.Writable t := h.declarable (KeyPart.map_name_asc _)
  refine ⟨?_, ?_⟩
  · cases t.interleave <;> simp
  · rwa [Option.head?_toList]

/-- A table is created if its parent is there. -/
theorem run_toDdl {t : Table} (h : t.Storable) (hnew : db.tables[t.name]? = none)
    (hparent : ∀ i ∈ t.interleave, ∃ p, db.tables[i.parent]? = some p) :
    db.run t.toDdl.text = .ok (db.store t.name { schema := t.bare }) := by
  have hcontains : ¬db.tables.contains t.name = true := by
    intro hcontains
    obtain ⟨u, hu⟩ := exists_of_contains hcontains
    exact Option.some_ne_none u (hu.symm.trans hnew)
  have hrun : db.run t.toDdl.text = db.create t.name false t.bare := by
    refine (run_text (readable_toDdl h) fun i hi ↦ by contradiction).trans ?_
    rw [Table.bare, ← Option.head?_toList (o := t.interleave)]
    rfl
  rw [hrun, create, if_neg hcontains, Table.interleave_bare]
  cases hi : t.interleave with
  | none => rfl
  | some i =>
    obtain ⟨p, hp⟩ := hparent i hi
    have hcontains : db.tables.contains i.parent = true := by
      rw [Std.ExtTreeMap.contains_eq_isSome_getElem?, hp]
      rfl
    exact if_pos hcontains

namespace Orderly

variable (h : db.Orderly)

include h

/-- An index is created if its name is free. -/
theorem run_index {i : Index} {t : StoredTable} (ht : db.tables[i.table]? = some t)
    (howner : db.indexOwner? i.name = none) (hreadable : i.Readable)
    (hdeclared : ∀ c ∈ i.referenced, c ∈ t.schema.columnNames) :
    db.run i.sql =
      .ok (db.store i.table { t with schema := t.schema.restored.registerIndex i }) := by
  have hadd : t.schema.restored.addIndex i = .ok (t.schema.restored.registerIndex i) :=
    Table.addIndex_of_referenced hdeclared
  have hdemand : db.demand i.table = .ok t := by rw [demand, ht]
  rw [run_createIndex h hreadable, enact, howner, Option.isSome_none, if_neg Bool.false_ne_true,
    hdemand, ok_bind, hadd]
  rfl

/-- The indices of a table are created one after another. -/
theorem updateDdl_indices {is : List Index} {name : String} {t : Table}
    (ht : db.tables[name]? = some { schema := t }) (hrestored : t.restored = t)
    (hnamed : ∀ i ∈ is, i.table = name) (hreadable : ∀ i ∈ is, i.Readable)
    (hdeclared : ∀ i ∈ is, ∀ c ∈ i.referenced, c ∈ t.columnNames)
    (hdistinct : (is.map (·.name)).Nodup)
    (hfree : ∀ (n : String) (u : StoredTable), db.tables[n]? = some u →
      ∀ i ∈ is, i.name ∉ u.schema.indexNames) :
    ∃ db', updateDdl (is.map Index.sql) db = .ok () db' ∧ db'.Orderly ∧
      ∀ k, db'.tables[k]? = if name = k then some { schema := is.foldl Table.registerIndex t }
        else db.tables[k]? := by
  induction is generalizing db t with
  | nil =>
    refine ⟨db, rfl, h, fun k ↦ ?_⟩
    split
    · exact ‹name = k› ▸ ht
    · rfl
  | cons i is ih =>
    have hi : i.table = name := hnamed i List.mem_cons_self
    have howner : db.indexOwner? i.name = none :=
      indexOwner?_eq_none fun n u hu ↦ hfree n u hu i List.mem_cons_self
    have hok := h.run_index (i := i) (by rw [hi, ht]) howner (hreadable i List.mem_cons_self)
      (hdeclared i List.mem_cons_self)
    rw [hi] at hok
    dsimp only at hok
    rw [hrestored] at hok
    have hnames : (t.registerIndex i).indexNames = t.indexNames ++ [i.name] := by
      rw [Table.indexNames, Table.registerIndex_eq]
      exact List.map_append
    have hindexed : (t.registerIndex i).Restorable :=
      (h.restorable.tables name _ ht).registerIndex (hreadable i List.mem_cons_self)
    have horderly := (h.of_run hok (h.restorable.store_index ht hindexed howner hnames)).applied
      (db.appliedDdl ++ [i.sql])
    rw [List.map_cons, List.nodup_cons] at hdistinct
    -- One index further nothing has changed for the others: the table has the same columns, and its
    -- new index another name.
    obtain ⟨db', hrest, horderly', hlookup⟩ := ih horderly
      ((getElem?_store ..).trans (if_pos rfl))
      (by rw [Table.restored_registerIndex, hrestored])
      (fun j hj ↦ hnamed j (List.mem_cons_of_mem i hj))
      (fun j hj ↦ hreadable j (List.mem_cons_of_mem i hj))
      (fun j hj ↦ by
        rw [Table.columnNames_registerIndex]
        exact hdeclared j (List.mem_cons_of_mem i hj))
      hdistinct.2 fun n u hu j hj ↦ by
        have hne : j.name ≠ i.name := fun e ↦ hdistinct.1 (e ▸ List.mem_map_of_mem hj)
        have hu : (db.store name { schema := t.registerIndex i }).tables[n]? = some u := hu
        rw [getElem?_store] at hu
        split at hu
        · obtain rfl := Option.some.inj hu
          rw [hnames, List.mem_append, not_or, List.mem_singleton]
          exact ⟨hfree name _ ht j (List.mem_cons_of_mem i hj), hne⟩
        · exact hfree n u hu j (List.mem_cons_of_mem i hj)
    refine ⟨db', ?_, horderly', fun k ↦ ?_⟩
    · rw [List.map_cons]
      exact (run_bind_of_ok (execute_of_run hok)).trans hrest
    · rw [hlookup, List.foldl_cons]
      split
      · rfl
      · exact (getElem?_store ..).trans (if_neg ‹_›)

end Orderly

/-! ## Tables one after another -/

theorem updateDdl_append {m : Database} {xs : List String} (h : updateDdl xs db = .ok () m)
    (ys : List String) :
    updateDdl (xs ++ ys) db = updateDdl ys m := by
  have happend : updateDdl (xs ++ ys) = (do updateDdl xs; updateDdl ys) := List.forM_append
  rw [happend]
  exact run_bind_of_ok h

/-- It has the tables of a list, created again, and no others. -/
structure Replica (ts : List Table) (db : Database) : Prop where
  orderly : db.Orderly
  lookup : ∀ n : String, db.tables[n]? = (ts.find? (·.name == n)).map fun t ↦
    { schema := t.restored }

namespace Replica

theorem nil : Replica [] {} := ⟨orderly_empty, fun _ ↦ Std.ExtTreeMap.getElem?_empty⟩

variable {xs : List Table} (h : Replica xs db)

include h

theorem exists_mem {n : String} {u : StoredTable} (hu : db.tables[n]? = some u) :
    ∃ t ∈ xs, t.name = n ∧ u = { schema := t.restored } := by
  rw [h.lookup] at hu
  obtain ⟨t, hfind, rfl⟩ := Option.map_eq_some_iff.1 hu
  exact ⟨t, List.mem_of_find?_eq_some hfind, by simpa using List.find?_some hfind, rfl⟩

theorem exists_table {t : Table} (ht : t ∈ xs) : ∃ u, db.tables[t.name]? = some u := by
  obtain ⟨u, hu⟩ := Option.isSome_iff_exists.1
    (List.find?_isSome (p := (·.name == t.name)).2 ⟨t, ht, beq_self_eq_true _⟩)
  exact ⟨_, by rw [h.lookup, hu]; rfl⟩

theorem getElem?_eq_none {n : String} (hn : ∀ t ∈ xs, t.name ≠ n) : db.tables[n]? = none := by
  refine Option.eq_none_iff_forall_ne_some.2 fun u hu ↦ ?_
  obtain ⟨t, ht, hname, -⟩ := h.exists_mem hu
  exact hn t ht hname

/-- A table is created again if its parent has been, and if its names are free. -/
theorem extend {t : Table} (hstorable : t.Storable) (hrestorable : t.Restorable)
    (hnew : ∀ u ∈ xs, u.name ≠ t.name) (hparent : ∀ i ∈ t.interleave, ∃ p ∈ xs, p.name = i.parent)
    (hdistinct : t.indexNames.Nodup) (hapart : ∀ u ∈ xs, ∀ i ∈ t.indexNames, i ∉ u.indexNames) :
    ∃ db', updateDdl t.creation db = .ok () db' ∧ Replica (xs ++ [t]) db' := by
  have hnone := h.getElem?_eq_none hnew
  have hok : db.run t.toDdl.text = .ok (db.store t.name { schema := t.bare }) := by
    refine run_toDdl hstorable hnone fun i hi ↦ ?_
    obtain ⟨p, hp, hname⟩ := hparent i hi
    exact hname ▸ h.exists_table hp
  -- Right after its own statement the table is there without its indices.
  have hcreated := (h.orderly.of_run hok (h.orderly.restorable.store (hrestorable.bare hstorable)
    List.nodup_nil fun _ _ _ _ _ hi ↦
      absurd hi List.not_mem_nil)).applied (db.appliedDdl ++ [t.toDdl.text])
  obtain ⟨db', hindices, horderly, hlookup⟩ := hcreated.updateDdl_indices
    ((getElem?_store ..).trans (if_pos rfl)) t.restored_bare hstorable.named hstorable.readable
    (by rw [Table.columnNames_bare]; exact hstorable.declaresIndexed) hdistinct fun n u hu i hi ↦ by
      have hu : (db.store t.name { schema := t.bare }).tables[n]? = some u := hu
      rw [getElem?_store] at hu
      split at hu
      · obtain rfl := Option.some.inj hu
        exact List.not_mem_nil
      · obtain ⟨v, hv, -, rfl⟩ := h.exists_mem hu
        exact hapart v hv i.name (List.mem_map_of_mem hi)
  refine ⟨db', (run_bind_of_ok (execute_of_run hok)).trans hindices, horderly, fun n ↦ ?_⟩
  rw [hlookup, List.find?_append]
  by_cases hn : t.name = n
  · have hfind : xs.find? (·.name == n) = none :=
      List.find?_eq_none.2 fun u hu hname ↦ hnew u hu ((beq_iff_eq.1 hname).trans hn.symm)
    rw [if_pos hn, hfind, Option.none_or, List.find?_cons_of_pos (by simpa using hn),
      Option.map_some]
    exact congrArg (fun u : Table ↦ some ({ schema := u } : StoredTable))
      (hrestorable.stated_eq hstorable)
  · have hfind : [t].find? (·.name == n) = none :=
      List.find?_eq_none.2 fun u hu hname ↦ hn (List.mem_singleton.1 hu ▸ beq_iff_eq.1 hname)
    rw [if_neg hn, hfind, Option.or_none, ← h.lookup]
    exact (getElem?_store ..).trans (if_neg hn)

end Replica

namespace Orderly

variable (h : db.Orderly)

include h

/-- When a table comes up in the dump, those before it have left its names free and its parent is
one of them. -/
theorem replicate {xs ys : List Table} (hdump : dumpOrder db.schema = xs ++ ys) {m : Database}
    (hm : Replica xs m) :
    ∃ db', updateDdl (ys.flatMap Table.creation) m = .ok () db' ∧
      Replica (dumpOrder db.schema) db' := by
  induction ys generalizing xs m with
  | nil =>
    rw [List.append_nil] at hdump
    exact ⟨m, rfl, hdump ▸ hm⟩
  | cons t ys ih =>
    have hmem {u : Table} (hu : u ∈ xs ++ t :: ys) := h.exists_of_mem_dumpOrder (hdump ▸ hu)
    obtain ⟨s, hs, rfl⟩ := hmem (List.mem_append_right xs List.mem_cons_self)
    have hnames := h.nodup_dumpOrder
    rw [hdump, List.map_append, List.nodup_append] at hnames
    have hnew : ∀ u ∈ xs, u.name ≠ s.schema.name := fun u hu ↦
      hnames.2.2 u.name (List.mem_map_of_mem hu) _ List.mem_cons_self
    obtain ⟨m', htable, hm'⟩ := hm.extend (h.storable hs) (h.restorable.tables _ s hs) hnew
      (fun i hi ↦ by
        obtain ⟨p, hp, hlookup⟩ := h.rooted.exists_before hdump hi
        rw [getElem?_schema] at hlookup
        obtain ⟨v, hv, rfl⟩ := Option.map_eq_some_iff.1 hlookup
        exact ⟨v.schema, hp, h.sound.named i.parent v hv⟩)
      (h.restorable.distinct _ s hs) fun u hu i hi hi' ↦ by
        obtain ⟨v, hv, rfl⟩ := hmem (List.mem_append_left _ hu)
        exact hnew _ hu (h.restorable.apart _ _ s v hs hv i hi hi').symm
    obtain ⟨db', hrest, hdb'⟩ := ih (hdump.trans (List.append_cons ..)) hm'
    exact ⟨db', (updateDdl_append htable _).trans hrest, hdb'⟩

end Orderly

/-- Whatever has been accepted of batches that were written for statements with tame names, the
database can be dumped, every parent is there and is created ahead of its children, and the dump is
accepted by an empty database and gives the same tables. -/
theorem Migrated.replay (h : db.Migrated) :
    ∃ statements db', schemaDdl db = .ok statements db ∧
      (∀ (n : String) (t : StoredTable), db.tables[n]? = some t → ∀ i ∈ t.schema.interleave,
        ∃ p xs ys, db.tables[i.parent]? = some p ∧ statements = xs ++ t.schema.toDdl.text :: ys ∧
          p.schema.toDdl.text ∈ xs) ∧
      updateDdl statements {} = .ok () db' ∧ db'.schema = db.schema.map fun _ t ↦ t.restored := by
  have horderly := h.orderly
  obtain ⟨db', hrun, hreplica⟩ := horderly.replicate (List.nil_append _).symm .nil
  refine ⟨_, db', ?_, fun n t ht i hi ↦ ?_, hrun, ?_⟩
  · exact schemaDdl_eq_ok.2 ⟨horderly.dumpStatements_eq, rfl⟩
  · have hmem : t.schema ∈ dumpOrder db.schema :=
      mem_dumpOrder.2 ⟨n, by rw [getElem?_schema, ht]; rfl⟩
    obtain ⟨xs, ys, hdump⟩ := List.append_of_mem hmem
    obtain ⟨p, hp, hlookup⟩ := horderly.rooted.exists_before hdump hi
    rw [getElem?_schema] at hlookup
    obtain ⟨q, hq, rfl⟩ := Option.map_eq_some_iff.1 hlookup
    refine ⟨q, xs.flatMap Table.creation,
      t.schema.indices.map Index.sql ++ ys.flatMap Table.creation, hq, ?_,
      List.mem_flatMap.2 ⟨q.schema, hp, List.mem_cons_self⟩⟩
    rw [hdump, List.flatMap_append, List.flatMap_cons]
    rfl
  · refine Std.ExtTreeMap.ext_getElem? fun n ↦ ?_
    rw [getElem?_schema, Std.ExtTreeMap.getElem?_map, getElem?_schema]
    cases hn : db.tables[n]? with
    | none =>
      have hnone : db'.tables[n]? = none := hreplica.getElem?_eq_none fun t ht hname ↦ by
        obtain ⟨u, hu, -⟩ := horderly.exists_of_mem_dumpOrder ht
        rw [hname, hn] at hu
        contradiction
      rw [hnone]
      rfl
    | some t =>
      have hmem : t.schema ∈ dumpOrder db.schema :=
        mem_dumpOrder.2 ⟨n, by rw [getElem?_schema, hn]; rfl⟩
      -- The replica has the tables by the names they have in themselves, which are those under
      -- which they are kept.
      obtain ⟨u, hu⟩ := hreplica.exists_table hmem
      rw [horderly.sound.named n t hn] at hu
      obtain ⟨t', ht', hname, rfl⟩ := hreplica.exists_mem hu
      obtain ⟨v, hv, rfl⟩ := horderly.exists_of_mem_dumpOrder ht'
      rw [hname, hn] at hv
      obtain rfl := Option.some.inj hv
      rw [hu]
      rfl

/-- A table in another that gets a new name, an index, and then a statement that is refused and one
that is therefore not run. -/
def moorings : List Statement :=
  [.createTable { table := "pier", definitions := [.primaryKey []] },
    .createTable
      { table := "berth"
        definitions := [.column { name := "no", dataType := ⟨"int", none, false⟩, notNull := true }]
        options := [.interleave ⟨"pier", true⟩] },
    .createIndex
      { table := "berth", kind := .unique,
        index := { name := some "i", columns := [⟨"no", .desc⟩] } },
    .renameTable [⟨"pier", "quay"⟩], .dropTable ["quay"] false, .dropTable ["berth"] false]

theorem moored :
    (Statement.lowerAll moorings).toOption.map (fun l ↦
        (ending (updateDdl l.sql) {}).tables["berth"]?.map (·.schema.interleave))
      = some (some (some ⟨"quay", true⟩)) := by
  have hplain : Statement.Plain moorings := by decide +kernel
  have hseen : (Statement.lowerAll moorings).toOption.map (fun l ↦
      (ending (l.ddl.forM carryOut) {}).tables["berth"]?.map (·.schema.interleave))
        = some (some (some ⟨"quay", true⟩)) := by decide +kernel
  rw [← hseen]
  refine Option.map_congr fun l hl ↦ ?_
  rw [(hplain.agree_updateDdl (eq_ok_of_toOption hl)).ending_eq orderly_empty]

theorem moorings_replay :
    ∃ lowered db, Statement.lowerAll moorings = .ok lowered ∧
      db = ending (updateDdl lowered.sql) {} ∧
      db.tables["berth"]?.map (·.schema.interleave) = some (some ⟨"quay", true⟩) ∧
      ∃ statements db', schemaDdl db = .ok statements db ∧
        (∀ (n : String) (t : StoredTable), db.tables[n]? = some t → ∀ i ∈ t.schema.interleave,
          ∃ p xs ys, db.tables[i.parent]? = some p ∧ statements = xs ++ t.schema.toDdl.text :: ys ∧
            p.schema.toDdl.text ∈ xs) ∧
        updateDdl statements {} = .ok () db' ∧ db'.schema = db.schema.map fun _ t ↦ t.restored := by
  obtain ⟨lowered, hlower, hberth⟩ := Option.map_eq_some_iff.1 moored
  have hlower := eq_ok_of_toOption hlower
  have htame : ∀ s ∈ moorings, ∀ n ∈ s.names, Tame n := by decide
  exact ⟨lowered, _, hlower, rfl, hberth, Migrated.replay (.batch .empty htame hlower)⟩

end Database

end SchemaLedger
