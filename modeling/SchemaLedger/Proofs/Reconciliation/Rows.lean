import Mathlib
import SchemaLedger.Proofs.Json
import SchemaLedger.Proofs.Reconciliation.Diff
import SchemaLedger.Proofs.Reconciliation.Program

/-!
# Writes to the side table

A side table with the usual key holds a fact exactly when the row under the text of the fact's key
has the fact's cells. So writing and deleting rows does to the side table what writes do to a
ledger, and a difference that has been carried out is what is loaded afterwards.
-/

namespace SchemaLedger

/-- The columns that make up the key of the side table. -/
def SideTable.keyColumns : List String := ["table", "column", "type"]

/-- The table has the columns and the key of a side table. -/
structure Table.IsSideTable (t : Table) : Prop where
  columns : ∀ c ∈ SideTable.columns, c ∈ t.columnNames
  primaryKey : t.primaryKey = SideTable.keyColumns

namespace SideTable

/-! ## Facts and rows -/

theorem text_of_ofText? {s : String} {p : Property} (h : Property.ofText? s = .ok p) :
    p.text = s := by
  rw [Property.ofText?] at h
  split at h
  · rename_i q hq
    have htext : (q.text == s) = true := List.find?_some (p := fun q : Property ↦ q.text == s) hq
    rw [← Except.ok.inj h]
    exact beq_iff_eq.1 htext
  · contradiction

theorem exists_of_textCell {sideTable column : String} {j : Json} {s : String}
    (h : textCell sideTable column j = .ok s) : j = .string s := by
  rw [textCell.eq_def] at h
  split at h
  · rw [Except.ok.inj h]
  · contradiction

/-- A row that holds a fact has the cells of the fact. -/
theorem eq_cells_of_readRow {sideTable : String} {row : List Json} {f : Fact}
    (h : readRow sideTable row = .ok (some f)) : row = cells f := by
  rw [readRow.eq_def] at h
  split at h
  · rename_i table column type value
    obtain ⟨name, hname, h⟩ := bind_eq_ok h
    obtain ⟨property, hproperty, h⟩ := bind_eq_ok h
    have htext := text_of_ofText? (mapError_eq_ok hproperty)
    split at h
    · cases Except.ok.inj h
    · obtain ⟨v, hv, h⟩ := bind_eq_ok h
      obtain ⟨t, ht, h⟩ := bind_eq_ok h
      obtain ⟨c, hc, h⟩ := bind_eq_ok h
      obtain rfl := Option.some.inj (Except.ok.inj h)
      rw [cells, htext, exists_of_textCell hname, exists_of_textCell hv, exists_of_textCell ht,
        exists_of_textCell hc]
  · cases Except.ok.inj h

theorem keyCells_eq (f : Fact) :
    keyCells f = [f.table, f.column, f.property.text].map Json.string := rfl

theorem key_of_keyText {f g : Fact}
    (h : Database.keyText (keyCells f) = Database.keyText (keyCells g)) : f.key = g.key := by
  rw [keyCells_eq, keyCells_eq] at h
  have hlist := Database.keyText_strings_injective h
  simp only [List.cons.injEq] at hlist
  obtain ⟨htable, hcolumn, htext, -⟩ := hlist
  have hproperty : f.property = g.property := by
    revert htext
    cases f.property <;> cases g.property <;> decide
  rw [Fact.key, Fact.key, htable, hcolumn, hproperty]

theorem keyCells_congr {f g : Fact} (h : f.key = g.key) : keyCells f = keyCells g := by
  obtain ⟨htable, hcolumn, hproperty⟩ := (FactKey.mk.injEq ..).mp h
  rw [keyCells, keyCells, htable, hcolumn, hproperty]

theorem cells_eq_iff {f g : Fact} (h : f.key = g.key) : cells f = cells g ↔ f.value = g.value := by
  obtain ⟨htable, hcolumn, hproperty⟩ := (FactKey.mk.injEq ..).mp h
  simp [cells, htable, hcolumn, hproperty]

/-- The key of a row with the cells of a fact. -/
theorem keyValues_of_cells {row : Row} {f : Fact} (h : cellsOf row = cells f) :
    Database.keyValues keyColumns row = .ok (keyCells f) := by
  simp only [cellsOf, columns, cells, List.map_cons, List.map_nil, List.cons.injEq, and_true] at h
  have hcell {c : String} {s : String} (hc : (row[c]?).getD .null = .string s) :
      row[c]? = some (.string s) := by
    cases hrow : row[c]? with
    | none =>
      rw [hrow] at hc
      contradiction
    | some j =>
      rw [hrow] at hc
      exact congrArg some hc
  rw [Database.keyValues, keyColumns, List.mapM_cons, List.mapM_cons, List.mapM_cons, hcell h.1,
    hcell h.2.1, hcell h.2.2.1]
  rfl

section

variable {sideTable : String} {t : StoredTable} (ht : t.Sound) (hside : t.schema.IsSideTable)

include ht hside

theorem key_of_cells {k : String} {row : Row} {f : Fact} (hrow : t.rows[k]? = some row)
    (h : cellsOf row = cells f) : k = Database.keyText (keyCells f) := by
  obtain ⟨values, hvalues, hk⟩ := ht.keyed k row hrow
  rw [hside.primaryKey, keyValues_of_cells h] at hvalues
  rw [hk, Except.ok.inj hvalues]

/-- A fact is held by the row under the text of its key. -/
theorem get?_of_readRows {l : Ledger} (h : readRows sideTable (t.rows.values.map cellsOf) = .ok l)
    (f : Fact) :
    l.get? f.key = some f.value ↔
      ∃ row, t.rows[Database.keyText (keyCells f)]? = some row ∧ cellsOf row = cells f := by
  obtain ⟨facts, hfacts, rfl⟩ := map_eq_ok h
  have hmem (g : Fact) : g ∈ facts.filterMap id ↔
      ∃ row, t.rows[Database.keyText (keyCells g)]? = some row ∧ cellsOf row = cells g := by
    rw [List.mem_filterMap]
    constructor
    · rintro ⟨_, hg, rfl⟩
      obtain ⟨cs, hcs, hread⟩ := exists_of_mem_mapM hfacts hg
      obtain ⟨row, hrow, rfl⟩ := List.mem_map.1 hcs
      obtain ⟨k, hk⟩ := mem_values.1 hrow
      have hcells := eq_cells_of_readRow hread
      exact ⟨row, key_of_cells ht hside hk hcells ▸ hk, hcells⟩
    · rintro ⟨row, hrow, hcells⟩
      obtain ⟨x, hx, hread⟩ := exists_of_mapM hfacts
        (List.mem_map_of_mem (f := cellsOf) (mem_values.2 ⟨_, hrow⟩))
      rw [hcells, readRow_cells] at hread
      exact ⟨some g, (Except.ok.inj hread).symm ▸ hx, rfl⟩
  have hagree : Ledger.Agreeing (facts.filterMap id) := by
    intro f hf g hg hkey
    obtain ⟨row, hrow, hcells⟩ := (hmem f).1 hf
    obtain ⟨row', hrow', hcells'⟩ := (hmem g).1 hg
    rw [keyCells_congr hkey, hrow'] at hrow
    obtain rfl := Option.some.inj hrow
    exact (cells_eq_iff hkey).1 (hcells.symm.trans hcells')
  rw [Ledger.get?_key_ofList hagree, hmem]

end

/-! ## Rows that are written -/

/-- The side table is there, with its columns and its key. -/
def Standard (sideTable : String) (db : Database) : Prop :=
  ∃ t, db.tables[sideTable]? = some t ∧ t.schema.IsSideTable

theorem keyValues_cells (f : Fact) :
    Database.keyValues keyColumns (Database.mergeRow none (columns.zip (cells f))) =
      .ok (keyCells f) :=
  keyValues_of_cells (cellsOf_mergeRow none f)

variable {sideTable : String} {db db' : Database} {l : Ledger}

/-- Facts that are found by the same rows make the same ledger. -/
theorem ext_of_rows {t : StoredTable} (ht : t.Sound) (hside : t.schema.IsSideTable) {m l' : Ledger}
    (hl' : readRows sideTable (t.rows.values.map cellsOf) = .ok l')
    (h : ∀ f : Fact, m.get? f.key = some f.value ↔
      ∃ row, t.rows[Database.keyText (keyCells f)]? = some row ∧ cellsOf row = cells f) :
          l' = m := by
  refine Ledger.ext fun k ↦ Option.ext fun v ↦ ?_
  exact (get?_of_readRows ht hside hl' (Fact.ofKey k v)).trans (h (Fact.ofKey k v)).symm

theorem stored_modifyRows (hdb : db.Sound) (hstandard : Standard sideTable db)
    (hl : stored sideTable db = .ok l) {g : Std.ExtTreeMap String Row → Std.ExtTreeMap String Row}
    (hdb' : (Database.modifyRows sideTable g db.counted).Sound)
    (hreadable : Readable sideTable (Database.modifyRows sideTable g db.counted)) {m : Ledger}
    (hm : ∀ rows : Std.ExtTreeMap String Row, (∀ f : Fact, l.get? f.key = some f.value ↔
        ∃ row, rows[Database.keyText (keyCells f)]? = some row ∧ cellsOf row = cells f) →
      ∀ f : Fact, m.get? f.key = some f.value ↔
        ∃ row, (g rows)[Database.keyText (keyCells f)]? = some row ∧ cellsOf row = cells f) :
    stored sideTable (Database.modifyRows sideTable g db.counted) = .ok m := by
  obtain ⟨t, ht, hcolumns, hrows⟩ := stored_eq_ok.1 hl
  obtain ⟨u, hu, hside⟩ := hstandard
  obtain rfl : t = u := Option.some.inj (ht.symm.trans hu)
  obtain ⟨l', hl'⟩ := hreadable
  obtain ⟨t', ht', -, hrows'⟩ := stored_eq_ok.1 hl'
  have hlookup := Database.getElem?_modifyRows db.counted sideTable g sideTable
  rw [if_pos rfl, ht'] at hlookup
  obtain ⟨u, hu, rfl⟩ := Option.map_eq_some_iff.1 hlookup.symm
  obtain rfl : t = u := Option.some.inj (ht.symm.trans hu)
  rw [hl', ext_of_rows (hdb'.tables _ _ ht') hside hrows'
    (hm t.rows (get?_of_readRows (hdb.tables _ _ ht) hside hrows))]

/-- A fact that is written is stored. -/
theorem stored_of_upsertRow (hdb : db.Sound) (hstandard : Standard sideTable db)
    (hl : stored sideTable db = .ok l) {f : Fact}
    (hok : Database.upsertRow sideTable columns (cells f) db = .ok () db') :
    stored sideTable db' = .ok (l.insert f) := by
  have hsound := Database.keeps_sound_upsertRow sideTable columns (cells f) db hdb
  have hreadable := keeps_readable_upsertRow sideTable f db ⟨l, hl⟩
  rw [ending_of_ok hok] at hsound hreadable
  rcases Database.upsertRow_cases sideTable columns (cells f) db with
    ⟨e, he⟩ | ⟨t, key, ht, hkey, hwritten⟩
  · rw [he] at hok
    contradiction
  · obtain ⟨-, rfl⟩ := EStateM.Result.ok.inj (hok.symm.trans hwritten)
    obtain ⟨u, hu, hside⟩ := hstandard
    obtain rfl : t = u := Option.some.inj (ht.symm.trans hu)
    rw [hside.primaryKey, keyValues_cells] at hkey
    obtain rfl := Except.ok.inj hkey
    refine stored_modifyRows hdb ⟨t, ht, hside⟩ hl hsound hreadable fun rows hrows g ↦ ?_
    rw [Ledger.get?_insert, Std.ExtTreeMap.getElem?_alter]
    simp only [Std.LawfulEqOrd.compare_eq_iff_eq]
    by_cases hfg : f.key = g.key
    · rw [if_pos hfg, if_pos (congrArg Database.keyText (keyCells_congr hfg)), Option.some_inj,
        ← cells_eq_iff hfg]
      constructor
      · exact fun hcells ↦ ⟨_, rfl, (cellsOf_mergeRow _ f).trans hcells⟩
      · rintro ⟨row, hrow, hcells⟩
        obtain rfl := Option.some.inj hrow
        exact (cellsOf_mergeRow _ f).symm.trans hcells
    · rw [if_neg hfg, if_neg fun e ↦ hfg (key_of_keyText e)]
      exact hrows g

/-- A fact that is deleted is not stored. -/
theorem stored_of_deleteRow (hdb : db.Sound) (hstandard : Standard sideTable db)
    (hl : stored sideTable db = .ok l) {f : Fact}
    (hok : Database.deleteRow sideTable (keyCells f) db = .ok () db') :
    stored sideTable db' = .ok (l.erase f.key) := by
  have hsound := Database.keeps_sound_deleteRow sideTable (keyCells f) db hdb
  have hreadable := keeps_readable_deleteRow sideTable f db ⟨l, hl⟩
  rw [ending_of_ok hok] at hsound hreadable
  rcases Database.deleteRow_cases sideTable (keyCells f) db with ⟨e, he⟩ | ⟨t, ht, hdeleted⟩
  · rw [he] at hok
    contradiction
  · obtain ⟨-, rfl⟩ := EStateM.Result.ok.inj (hok.symm.trans hdeleted)
    refine stored_modifyRows hdb hstandard hl hsound hreadable fun rows hrows g ↦ ?_
    rw [Ledger.get?_erase, Std.ExtTreeMap.getElem?_erase]
    simp only [Std.LawfulEqOrd.compare_eq_iff_eq]
    by_cases hfg : f.key = g.key
    · rw [if_pos hfg, if_pos (congrArg Database.keyText (keyCells_congr hfg))]
      simp
    · rw [if_neg hfg, if_neg fun e ↦ hfg (key_of_keyText e)]
      exact hrows g

theorem standard_modifyRows (h : Standard sideTable db) (n : String)
    (g : Std.ExtTreeMap String Row → Std.ExtTreeMap String Row) :
    Standard sideTable (Database.modifyRows n g db.counted) := by
  obtain ⟨t, ht, hside⟩ := h
  have hlookup := Database.getElem?_modifyRows db.counted n g sideTable
  split at hlookup
  · rename_i hn
    subst hn
    exact ⟨_, hlookup.trans (congrArg (Option.map _) ht), hside⟩
  · exact ⟨t, hlookup.trans ht, hside⟩

theorem standard_of_extends (h : db'.Extends db sideTable) (hdb : Standard sideTable db) :
    Standard sideTable db' := by
  obtain ⟨t, ht, hside⟩ := hdb
  obtain ⟨u, hu, hut⟩ := h t ht
  exact ⟨u, hu, fun c hc ↦ hut.columns c (hside.columns c hc),
    hut.primaryKey.trans hside.primaryKey⟩

end SideTable

/-! ## Writes of a difference -/

/-- The side table is in order, and holds a ledger. -/
structure Database.Holds (sideTable : String) (db : Database) (l : Ledger) : Prop where
  sound : db.Sound
  standard : SideTable.Standard sideTable db
  stored : SideTable.stored sideTable db = .ok l

namespace Database.Holds

variable {sideTable : String} {db db' : Database} {l : Ledger}

theorem upsertRow (h : db.Holds sideTable l) {f : Fact}
    (hok : Database.upsertRow sideTable SideTable.columns (SideTable.cells f) db = .ok () db') :
    db'.Holds sideTable (l.insert f) ∧ db'.schema = db.schema := by
  have hsound := keeps_sound_upsertRow sideTable SideTable.columns (SideTable.cells f) db h.sound
  rw [ending_of_ok hok] at hsound
  have hstored := SideTable.stored_of_upsertRow h.sound h.standard h.stored hok
  rcases upsertRow_cases sideTable SideTable.columns (SideTable.cells f) db with
    ⟨e, he⟩ | ⟨t, key, -, -, hwritten⟩
  · rw [he] at hok
    contradiction
  · obtain ⟨-, rfl⟩ := EStateM.Result.ok.inj (hok.symm.trans hwritten)
    exact ⟨⟨hsound, SideTable.standard_modifyRows h.standard _ _, hstored⟩,
      schema_modifyRows db.counted _ _⟩

theorem deleteRow (h : db.Holds sideTable l) {f : Fact}
    (hok : Database.deleteRow sideTable (SideTable.keyCells f) db = .ok () db') :
    db'.Holds sideTable (l.erase f.key) ∧ db'.schema = db.schema := by
  have hsound := keeps_sound_deleteRow sideTable (SideTable.keyCells f) db h.sound
  rw [ending_of_ok hok] at hsound
  have hstored := SideTable.stored_of_deleteRow h.sound h.standard h.stored hok
  rcases deleteRow_cases sideTable (SideTable.keyCells f) db with ⟨e, he⟩ | ⟨t, -, hdeleted⟩
  · rw [he] at hok
    contradiction
  · obtain ⟨-, rfl⟩ := EStateM.Result.ok.inj (hok.symm.trans hdeleted)
    exact ⟨⟨hsound, SideTable.standard_modifyRows h.standard _ _, hstored⟩,
      schema_modifyRows db.counted _ _⟩

end Database.Holds

/-- Facts have been written on the way from one site to another, where the side table holds a
ledger. -/
structure Site.Written (sideTable : String) (s : Site) (l : Ledger) (t : Site) : Prop where
  holds : t.database.Holds sideTable l
  schema : t.database.schema = s.database.schema
  cache : t.cache = s.cache

namespace Pass

variable {o : PassOptions}

theorem exists_of_call {α : Type} {m : DatabaseM α} {s t : Site} {a : α} (h : call m s = .ok a t) :
    ∃ db, m s.database = .ok a db ∧ t = { s with database := db } := by
  rw [call] at h
  split at h
  · rename_i b db hm
    obtain ⟨rfl, rfl⟩ := EStateM.Result.ok.inj h
    exact ⟨db, hm, rfl⟩
  · contradiction

/-- Writes that succeed do to the side table what they do to a ledger. -/
theorem holds_of_writeFacts {d : Diff} {l : Ledger} {s t : Site}
    (h : s.database.Holds o.sideTable l) (hok : writeFacts o d s = .ok () t) :
    t.database.Holds o.sideTable (l.writeAll d.writes) ∧ t.database.schema = s.database.schema ∧
      t.cache = s.cache := by
  obtain ⟨_, u, hadd, hremove⟩ := exists_of_run_bind_ok hok
  have hadded : s.Written o.sideTable (d.additions.foldl Ledger.insert l) u := by
    refine of_forM_ok (p := s.Written o.sideTable) (fun f _ m v w hv hw ↦ ?_) ⟨h, rfl, rfl⟩ hadd
    obtain ⟨db, hdb, rfl⟩ := exists_of_call hw
    obtain ⟨hholds, hschema⟩ := hv.holds.upsertRow hdb
    exact ⟨hholds, hschema.trans hv.schema, hv.cache⟩
  have hremoved : s.Written o.sideTable
      (d.removals.foldl (fun m f ↦ m.erase f.key) (d.additions.foldl Ledger.insert l)) t := by
    refine of_forM_ok (p := s.Written o.sideTable) (fun f _ m v w hv hw ↦ ?_) hadded hremove
    obtain ⟨db, hdb, rfl⟩ := exists_of_call hw
    obtain ⟨hholds, hschema⟩ := hv.holds.deleteRow hdb
    exact ⟨hholds, hschema.trans hv.schema, hv.cache⟩
  have hledger : l.writeAll d.writes
      = d.removals.foldl (fun m f ↦ m.erase f.key) (d.additions.foldl Ledger.insert l) := by
    rw [Diff.writes, Ledger.writeAll, List.foldl_append, List.foldl_map, List.foldl_map]
    rfl
  rw [hledger]
  exact ⟨hremoved.holds, hremoved.schema, hremoved.cache⟩

/-- A difference that is carried out is what is cached and stored afterwards. -/
theorem holds_of_write (hdry : o.dryRun = false) {d : Diff} {l : Ledger} {s t : Site}
    (h : s.database.Holds o.sideTable l) (hl : s.cache.ledger = some l)
    (hok : write o d s = .ok () t) :
    t.database.Holds o.sideTable (l.writeAll d.writes) ∧
      t.cache.ledger = some (l.writeAll d.writes) ∧
      t.database.schema = s.database.schema ∧ t.cache.tables = s.cache.tables := by
  rw [write] at hok
  split at hok
  · rename_i hempty
    obtain ⟨-, rfl⟩ := EStateM.Result.ok.inj hok
    rw [Diff.writes_eq_nil_iff.2 hempty]
    exact ⟨h, hl, rfl, rfl⟩
  · rw [run_bind_of_ok (note_eq _ s), hdry, if_neg Bool.false_ne_true,
      run_bind_of_ok (outcome_eq _ _)] at hok
    cases hwrite : writeFacts o d (noted _ s) with
    | error e u =>
      rw [value, hwrite] at hok
      contradiction
    | ok a u =>
      obtain ⟨hholds, hschema, hcache⟩ := holds_of_writeFacts (s := noted _ s) h hwrite
      rw [value, hwrite, ending_of_ok hwrite] at hok
      change (load o >>= fun _ ↦ pure ()) u = _ at hok
      rw [run_bind_of_ok (load_of_stored hholds.stored)] at hok
      obtain ⟨-, rfl⟩ := EStateM.Result.ok.inj hok
      have htables : u.cache.tables = s.cache.tables := congrArg Cache.tables hcache
      exact ⟨hholds, rfl, hschema, htables⟩

end Pass

end SchemaLedger
