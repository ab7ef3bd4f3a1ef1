import Mathlib
import SchemaLedger.Lowering
import SchemaLedger.Proofs.Dump.Table

/-!
# Dumps of one table

The statements of a table and of its indices, read together, describe that table with its indices
and nothing else.
-/

namespace SchemaLedger

open Text Identifier

/-! ## Indices of a table -/

namespace Table

theorem columnNames_registerIndex (t : Table) (i : Index) :
    (t.registerIndex i).columnNames = t.columnNames := by
  rw [registerIndex]
  split
  · simp only [columnNames, markUnique, List.map_map, Function.comp_def]
  · rfl

theorem columnNames_registerIndices (t : Table) (is : List Index) :
    (is.foldl registerIndex t).columnNames = t.columnNames := by
  induction is generalizing t with
  | nil => rfl
  | cons i is ih => rw [List.foldl_cons, ih, columnNames_registerIndex]

theorem addIndex_of_referenced {t : Table} {i : Index} (h : ∀ c ∈ i.referenced, c ∈ t.columnNames) :
    t.addIndex i = .ok (t.registerIndex i) := by
  have hfind : i.referenced.find? (!t.hasColumn ·) = none :=
    List.find?_eq_none.2 fun c hc ↦ by simp [hasColumn_iff.2 (h c hc)]
  rw [addIndex, hfind]

end Table

namespace Dump

/-! ## Statements in a row -/

theorem readItems_cons {s : String} {ss : List String} {item : Item} {items : List Item}
    (hstops : Stops isBlank s.toList) (hne : s.toList ≠ []) (h : readItem s.toList = .ok item)
    (hs : readItems ss = .ok items) : readItems (s :: ss) = .ok (item :: items) := by
  obtain ⟨c, cs, hcs⟩ := List.exists_cons_of_ne_nil hne
  have hc : c ∈ strip s.toList := by
    rw [hcs] at hstops ⊢
    exact mem_strip List.mem_cons_self (stops_cons.1 hstops)
  have hstrip : (!(strip s.toList).isEmpty) = true := by
    simpa using List.ne_nil_of_mem hc
  rw [readItems] at hs ⊢
  rw [List.map_cons, List.filter_cons_of_pos (by exact hstrip), List.mapM_cons, reading, h, hs]
  rfl

theorem readItems_indices {indices : List Index} (h : ∀ i ∈ indices, i.Readable) :
    readItems (indices.map Index.sql) = .ok (indices.map .index) := by
  induction indices with
  | nil => rfl
  | cons i is ih =>
    have hread : readItem i.sql.toList = .ok (.index i) := by
      rw [readItem_index, readIndex_sql (h i List.mem_cons_self)]
      rfl
    have hhead : ∃ u, i.sql.toList = "CREATE".toList ++ u := by
      obtain ⟨u, hu, -⟩ := Index.exists_headText i.unique i.nullFiltered
      rw [Index.toList_sql, hu, List.append_assoc]
      exact ⟨_, rfl⟩
    obtain ⟨u, hu⟩ := hhead
    refine readItems_cons ?_ ?_ hread (ih fun j hj ↦ h j (List.mem_cons_of_mem i hj))
    · rw [hu]
      exact stops_append (by decide) u
    · rw [hu]
      exact List.append_ne_nil_of_left_ne_nil (by decide) u

/-- Indices are registered with their table one after another. -/
theorem foldlM_addIndex {name : String} {t : Table} {indices : List Index}
    (htable : ∀ i ∈ indices, i.table = name)
    (hcolumns : ∀ i ∈ indices, ∀ c ∈ i.referenced, c ∈ t.columnNames) :
    indices.foldlM addIndex ((∅ : Schema).insert name t)
      = .ok ((∅ : Schema).insert name (indices.foldl Table.registerIndex t)) := by
  induction indices generalizing t with
  | nil => rfl
  | cons i is ih =>
    have hlookup : ((∅ : Schema).insert name t)[i.table]? = some t := by
      rw [htable i List.mem_cons_self, Std.ExtTreeMap.getElem?_insert_self]
    have hinsert (u : Table) : ((∅ : Schema).insert name t).insert name u
        = (∅ : Schema).insert name u := by
      ext k
      simp only [Std.ExtTreeMap.getElem?_insert]
      split <;> rfl
    have hstep : addIndex ((∅ : Schema).insert name t) i
        = .ok ((∅ : Schema).insert name (t.registerIndex i)) := by
      rw [addIndex, hlookup]
      dsimp only
      rw [Table.addIndex_of_referenced (hcolumns i List.mem_cons_self),
        ← hinsert (t.registerIndex i), htable i List.mem_cons_self]
      rfl
    rw [List.foldlM_cons, hstep, List.foldl_cons]
    refine ih (fun j hj ↦ htable j (List.mem_cons_of_mem i hj)) fun j hj c hc ↦ ?_
    rw [Table.columnNames_registerIndex]
    exact hcolumns j (List.mem_cons_of_mem i hj) c hc

theorem tables_map_index (is : List Index) : tables (is.map .index) = [] := by
  rw [tables, List.filterMap_map]
  exact List.filterMap_eq_nil_iff.2 fun _ _ ↦ rfl

theorem indices_map_index (is : List Index) : indices (is.map .index) = is := by
  rw [indices, List.filterMap_map]
  exact List.filterMap_some

/-- The statements of a table and its indices are read as what they are. -/
theorem readItems_declared {name : String} (hname : Legible name) (ine : Bool)
    {columns : List ColumnClause}
    (hclosed : ∀ c ∈ columns, Closed c.name) (key : List KeyPart) (is : List Interleave)
    {indices : List Index} (hread : ∀ i ∈ indices, i.Readable) :
    readItems ((Ddl.createTable name ine columns key is).text :: indices.map Index.sql)
      = .ok (.table ⟨name, columns.map (·.text.toList),
        keyClauseSql key is⟩ :: indices.map .index) := by
  refine readItems_cons ?_ ?_
    (readItem_createTable hname ine (fun c hc ↦ sealed_quote (hclosed c hc)) key is)
    (readItems_indices hread)
  · rw [toList_createTable]
    exact stops_append (u := headText name ine) rfl _
  · rw [toList_createTable]
    exact List.append_ne_nil_of_left_ne_nil (List.cons_ne_nil _ _) _

/-- The statements of one table describe that table alone. -/
theorem parse_declared {name : String} {columns : List ColumnClause} {key : List KeyPart}
    {parent : Option Interleave} (h : Table.Declarable name columns key parent) (ine : Bool)
    {indices : List Index} (hread : ∀ i ∈ indices, i.Readable)
    (htable : ∀ i ∈ indices, i.table = name)
    (hcolumns : ∀ i ∈ indices, ∀ c ∈ i.referenced, c ∈ columns.map (·.name)) :
    parse ((Ddl.createTable name ine columns key parent.toList).text :: indices.map Index.sql)
      = .ok ((∅ : Schema).insert name
          (indices.foldl Table.registerIndex (Table.declared name columns key parent))) := by
  let text : TableText := ⟨name, columns.map (·.text.toList), keyClauseSql key parent.toList⟩
  have hitems := readItems_declared h.legible ine h.closed key parent.toList hread
  have hindices : Dump.indices (.table text :: indices.map .index) = indices :=
    indices_map_index indices
  have htables : tables (.table text :: indices.map .index) = [text] :=
    congrArg (text :: ·) (tables_map_index indices)
  have hadd : addTable ∅ text
      = .ok ((∅ : Schema).insert name (Table.declared name columns key parent)) := by
    have hcontains : (∅ : Schema).contains (Table.declared name columns key parent).name = false :=
      Std.ExtTreeMap.contains_empty
    rw [addTable, build_declared h]
    dsimp only [bind, Except.bind]
    rw [hcontains]
    rfl
  have hcolumns : ∀ i ∈ indices, ∀ c ∈ i.referenced,
      c ∈ (Table.declared name columns key parent).columnNames := by
    rw [Table.columnNames_declared]
    exact hcolumns
  rw [parse, hitems]
  dsimp only [bind, Except.bind]
  rw [htables, hindices, List.foldlM_cons, hadd]
  exact foldlM_addIndex htable hcolumns

end Dump

end SchemaLedger
