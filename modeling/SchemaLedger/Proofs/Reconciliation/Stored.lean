import Mathlib
import SchemaLedger.Proofs.Database.Extension
import SchemaLedger.Proofs.FiniteMap
import SchemaLedger.Reconciliation

/-!
# What the side table holds

What loading the side table gives depends on its columns and rows alone. Statements about other
tables leave it, and facts that are written can be read.
-/

namespace SchemaLedger

namespace SideTable

/-- The cells of a row in the order in which they are read. -/
def cellsOf (row : Row) : List Json := columns.map fun c ↦ (row[c]?).getD .null

/-- The ledger that a side table holds. -/
def stored (sideTable : String) (db : Database) : Except PassError Ledger :=
  match Database.readRows sideTable columns db with
  | .ok rows _ => readRows sideTable rows
  | .error e _ => .error e

theorem readRows_of_some {sideTable : String} {db : Database} {t : StoredTable}
    (ht : db.tables[sideTable]? = some t) (hcolumns : ∀ c ∈ columns, c ∈ t.schema.columnNames) :
    Database.readRows sideTable columns db = .ok (t.rows.values.map cellsOf) db := by
  have hfind : columns.find? (!t.schema.hasColumn ·) = none := by
    refine List.find?_eq_none.2 fun c hc ↦ ?_
    rw [Table.hasColumn_iff.2 (hcolumns c hc)]
    decide
  rw [Database.readRows, run_bind_of_ok (Database.tableFor_of_some ht "read_rows"), hfind]
  rfl

theorem readRows_cases (sideTable : String) (db : Database) :
    (∃ e, Database.readRows sideTable columns db = .error e db) ∨
      ∃ t, db.tables[sideTable]? = some t ∧ ∀ c ∈ columns, c ∈ t.schema.columnNames := by
  cases ht : db.tables[sideTable]? with
  | none =>
    obtain ⟨e, he⟩ := Database.tableFor_of_none ht "read_rows"
    exact Or.inl ⟨e, run_bind_of_error he⟩
  | some t =>
    cases hfind : columns.find? (!t.schema.hasColumn ·) with
    | some missing =>
      refine Or.inl
        ⟨.client "read_rows" ("column '" ++ sideTable ++ "." ++ missing ++ "' not found"), ?_⟩
      rw [Database.readRows, run_bind_of_ok (Database.tableFor_of_some ht "read_rows"), hfind]
      rfl
    | none =>
      exact Or.inr ⟨t, rfl, fun c hc ↦
        Table.hasColumn_iff.1 (by simpa using List.find?_eq_none.1 hfind c hc)⟩

theorem stored_eq_ok {sideTable : String} {db : Database} {l : Ledger} :
    stored sideTable db = .ok l ↔ ∃ t, db.tables[sideTable]? = some t ∧
      (∀ c ∈ columns, c ∈ t.schema.columnNames) ∧
        readRows sideTable (t.rows.values.map cellsOf) = .ok l := by
  constructor
  · intro h
    rw [stored] at h
    rcases readRows_cases sideTable db with ⟨e, he⟩ | ⟨t, ht, hcolumns⟩
    · rw [he] at h
      contradiction
    · rw [readRows_of_some ht hcolumns] at h
      exact ⟨t, ht, hcolumns, h⟩
  · rintro ⟨t, ht, hcolumns, h⟩
    rw [stored, readRows_of_some ht hcolumns]
    exact h

theorem stored_of_extends {sideTable : String} {db db' : Database} (h : db'.Extends db sideTable)
    {l : Ledger} (hl : stored sideTable db = .ok l) : stored sideTable db' = .ok l := by
  obtain ⟨t, ht, hcolumns, hrows⟩ := stored_eq_ok.1 hl
  obtain ⟨u, hu, hut⟩ := h t ht
  exact stored_eq_ok.2 ⟨u, hu, fun c hc ↦ hut.columns c (hcolumns c hc), hut.rows ▸ hrows⟩

/-! ## Facts as rows -/

theorem cellsOf_mergeRow (old : Option Row) (f : Fact) :
    cellsOf (Database.mergeRow old (columns.zip (cells f))) = cells f := by
  simp [cellsOf, columns, cells, Database.mergeRow, Std.ExtTreeMap.getElem?_insert]

theorem ofText?_text (p : Property) : Property.ofText? p.text = .ok p := by
  cases p <;> rfl

theorem readRow_cells (sideTable : String) (f : Fact) :
    readRow sideTable (cells f) = .ok (some f) := by
  simp only [cells, readRow, textCell, ok_bind, ofText?_text, Except.mapError]
  rfl

/-- A ledger can be read if every row can. -/
theorem exists_readRows {sideTable : String} {rows : Std.ExtTreeMap String Row} :
    (∃ l, readRows sideTable (rows.values.map cellsOf) = .ok l) ↔
      ∀ (k : String) (row : Row), rows[k]? = some row →
        ∃ f, readRow sideTable (cellsOf row) = .ok f := by
  constructor
  · rintro ⟨l, h⟩ k row hrow
    obtain ⟨facts, hfacts, -⟩ := map_eq_ok h
    obtain ⟨f, -, hf⟩ := exists_of_mapM hfacts (List.mem_map_of_mem (mem_values.2 ⟨k, hrow⟩))
    exact ⟨f, hf⟩
  · intro h
    obtain ⟨facts, hfacts⟩ : ∃ facts, (rows.values.map cellsOf).mapM (readRow sideTable) =
        .ok facts := by
      refine exists_mapM fun cells hcells ↦ ?_
      obtain ⟨row, hrow, rfl⟩ := List.mem_map.1 hcells
      obtain ⟨k, hk⟩ := mem_values.1 hrow
      exact h k row hk
    exact ⟨_, by rw [readRows, hfacts]; rfl⟩

/-- The side table is there and all of its rows can be read. -/
def Readable (sideTable : String) (db : Database) : Prop := ∃ l, stored sideTable db = .ok l

theorem readable_iff {sideTable : String} {db : Database} :
    Readable sideTable db ↔ ∃ t, db.tables[sideTable]? = some t ∧
      (∀ c ∈ columns, c ∈ t.schema.columnNames) ∧
        ∀ (k : String) (row : Row), t.rows[k]? = some row →
          ∃ f, readRow sideTable (cellsOf row) = .ok f := by
  constructor
  · rintro ⟨l, h⟩
    obtain ⟨t, ht, hcolumns, hrows⟩ := stored_eq_ok.1 h
    exact ⟨t, ht, hcolumns, exists_readRows.1 ⟨l, hrows⟩⟩
  · rintro ⟨t, ht, hcolumns, hrows⟩
    obtain ⟨l, hl⟩ := exists_readRows.2 hrows
    exact ⟨l, stored_eq_ok.2 ⟨t, ht, hcolumns, hl⟩⟩

theorem readable_modifyRows {sideTable : String} {db : Database} (h : Readable sideTable db)
    {g : Std.ExtTreeMap String Row → Std.ExtTreeMap String Row}
    (hg : ∀ (rows : Std.ExtTreeMap String Row) (k : String) (row : Row), (g rows)[k]? = some row →
      rows[k]? = some row ∨ ∃ f, cellsOf row = cells f) :
    Readable sideTable (Database.modifyRows sideTable g db.counted) := by
  obtain ⟨t, ht, hcolumns, hrows⟩ := readable_iff.1 h
  refine readable_iff.2 ⟨{ t with rows := g t.rows }, ?_, hcolumns, fun k row hrow ↦ ?_⟩
  · rw [Database.getElem?_modifyRows, if_pos rfl]
    exact congrArg (Option.map _) ht
  · rcases hg t.rows k row hrow with hold | ⟨f, hf⟩
    · exact hrows k row hold
    · exact ⟨some f, hf ▸ readRow_cells sideTable f⟩

theorem keeps_readable_upsertRow (sideTable : String) (f : Fact) :
    Keeps (Readable sideTable) (Database.upsertRow sideTable columns (cells f)) := by
  refine Database.keeps_upsertRow fun db t key h _ _ _ ↦
    readable_modifyRows h fun rows k row hrow ↦ ?_
  rw [Std.ExtTreeMap.getElem?_alter] at hrow
  split at hrow
  · obtain rfl := Option.some.inj hrow
    exact Or.inr ⟨f, cellsOf_mergeRow _ f⟩
  · exact Or.inl hrow

theorem keeps_readable_deleteRow (sideTable : String) (f : Fact) :
    Keeps (Readable sideTable) (Database.deleteRow sideTable (keyCells f)) := by
  refine Database.keeps_deleteRow fun db h ↦
    readable_modifyRows h fun rows k row hrow ↦ Or.inl ?_
  rw [Std.ExtTreeMap.getElem?_erase] at hrow
  split at hrow
  · contradiction
  · exact hrow

end SideTable

end SchemaLedger
