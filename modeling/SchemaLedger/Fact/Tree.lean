import SchemaLedger.Fact
import Std.Data.ExtTreeMap

/-!
# Facts in levels

Facts are filed by table, below that by column, and below that by property. What an operation takes
away is its answer. No operation leaves an empty level behind: a table is listed only as long as it
has columns with facts, and a column only as long as it has facts. So trees with the same facts are
the same tree.
-/

namespace SchemaLedger

/-- The facts of a column by property. -/
abbrev ColumnFacts := Std.ExtTreeMap Property Fact

/-- The facts of a table by column. -/
abbrev TableFacts := Std.ExtTreeMap String ColumnFacts

/-- Facts by table, column and property. -/
structure FactTree where
  tables : Std.ExtTreeMap String TableFacts := ∅

/-- The facts of a column in the order of properties. -/
def ColumnFacts.list (facts : ColumnFacts) : List Fact := facts.toList.map (·.2)

/-- The facts of a table, column by column. -/
def TableFacts.list (columns : TableFacts) : List Fact :=
  columns.toList.flatMap fun p ↦ ColumnFacts.list p.2

namespace FactTree

/-! ## Views -/

/-- The facts of a column by property. -/
def column? (t : FactTree) (table column : String) : Option ColumnFacts :=
  (t.tables[table]?).bind (·[column]?)

/-- The fact of a key. -/
def get? (t : FactTree) (k : FactKey) : Option Fact :=
  (t.column? k.table k.column).bind (·[k.property]?)

/-- All facts, table by table. -/
def entries (t : FactTree) : List Fact := t.tables.toList.flatMap fun p ↦ TableFacts.list p.2

/-- The number of facts. -/
def size (t : FactTree) : Nat := t.entries.length

/-- No table has facts. -/
def isEmpty (t : FactTree) : Bool := t.tables.isEmpty

/-- The facts of a table. -/
def ofTable (t : FactTree) (table : String) : List Fact :=
  ((t.tables[table]?).map TableFacts.list).getD []

/-- The facts of a column. -/
def ofColumn (t : FactTree) (table column : String) : List Fact :=
  ((t.column? table column).map ColumnFacts.list).getD []

/-- The columns of a table that have facts, in order. -/
def columns (t : FactTree) (table : String) : List String :=
  ((t.tables[table]?).map (·.keys)).getD []

/-! ## Operations -/

/-- Stores a fact, and answers the one that it replaces. -/
def insert (t : FactTree) (f : Fact) : Option Fact × FactTree :=
  let columns := (t.tables[f.table]?).getD ∅
  let facts := (columns[f.column]?).getD ∅
  (facts[f.property]?,
    ⟨t.tables.insert f.table (columns.insert f.column (facts.insert f.property f))⟩)

/-- Puts a level in its place, or takes the place away if the level is empty. -/
def setLevel {α β : Type} [Ord α] (levels : Std.ExtTreeMap String (Std.ExtTreeMap α β))
    (name : String) (level : Std.ExtTreeMap α β) : Std.ExtTreeMap String (Std.ExtTreeMap α β) :=
  if level.isEmpty then levels.erase name else levels.insert name level

/-- Takes away the fact of a key. -/
def remove (t : FactTree) (k : FactKey) : Option Fact × FactTree :=
  match t.tables[k.table]? with
  | none => (none, t)
  | some columns =>
    match columns[k.column]? with
    | none => (none, t)
    | some facts =>
      (facts[k.property]?,
        ⟨setLevel t.tables k.table (setLevel columns k.column (facts.erase k.property))⟩)

/-- Takes away the facts of a column. -/
def removeColumn (t : FactTree) (table column : String) : List Fact × FactTree :=
  match t.tables[table]? with
  | none => ([], t)
  | some columns =>
    (((columns[column]?).map ColumnFacts.list).getD [],
      ⟨setLevel t.tables table (columns.erase column)⟩)

/-- Takes away the facts of a table. -/
def removeTable (t : FactTree) (table : String) : List Fact × FactTree :=
  (((t.tables[table]?).map TableFacts.list).getD [], ⟨t.tables.erase table⟩)

/-- Stores facts one after another. -/
def insertAll (t : FactTree) (fs : List Fact) : FactTree := fs.foldl (fun t f ↦ (t.insert f).2) t

/-- Moves the facts of a table to another name, over those that are there. -/
def renameTable (t : FactTree) (old new : String) : FactTree :=
  (t.removeTable old).2.insertAll ((t.removeTable old).1.map fun f ↦ { f with table := new })

/-! ## Lookup after an operation -/

section

variable {α β : Type} [Ord α]

theorem getElem?_getD_empty [Std.TransOrd α] (o : Option (Std.ExtTreeMap α β)) (a : α) :
    (o.getD ∅)[a]? = o.bind (·[a]?) := by
  cases o with
  | none => exact Std.ExtTreeMap.getElem?_empty
  | some m => rfl

variable (levels : Std.ExtTreeMap String (Std.ExtTreeMap α β)) (name : String)
  (level : Std.ExtTreeMap α β) (n : String)

theorem getElem?_setLevel : (setLevel levels name level)[n]? =
    if name = n then (if level.isEmpty then none else some level) else levels[n]? := by
  rw [setLevel]
  split
  · rw [Std.ExtTreeMap.getElem?_erase]
    simp only [Std.LawfulEqOrd.compare_eq_iff_eq]
  · rw [Std.ExtTreeMap.getElem?_insert]
    simp only [Std.LawfulEqOrd.compare_eq_iff_eq]

/-- Below an empty level there is nothing to be found, whether it is in its place or not. -/
theorem bind_setLevel [Std.TransOrd α] (a : α) : ((setLevel levels name level)[n]?).bind (·[a]?) =
    if name = n then level[a]? else (levels[n]?).bind (·[a]?) := by
  rw [getElem?_setLevel]
  split
  · split
    · rename_i hempty
      rw [Std.ExtTreeMap.isEmpty_iff.1 hempty, Std.ExtTreeMap.getElem?_empty]
      rfl
    · rfl
  · rfl

theorem setLevel_ne_empty [Std.TransOrd α] {levels : Std.ExtTreeMap String (Std.ExtTreeMap α β)}
    (h : ∀ n : String, levels[n]? ≠ some ∅) : (setLevel levels name level)[n]? ≠ some ∅ := by
  rw [getElem?_setLevel]
  split
  · split
    · exact nofun
    · rename_i hempty
      exact fun e ↦ hempty (Std.ExtTreeMap.isEmpty_iff.2 (Option.some.inj e))
  · exact h n

end

theorem column?_empty (table column : String) : ({} : FactTree).column? table column = none := by
  rw [column?, show ({} : FactTree).tables[table]? = none from Std.ExtTreeMap.getElem?_empty]
  rfl

theorem get?_empty (k : FactKey) : ({} : FactTree).get? k = none := by
  rw [get?, column?_empty]
  rfl

variable (t : FactTree)

theorem column?_insert (f : Fact) (table column : String) :
    (t.insert f).2.column? table column =
      if f.table = table ∧ f.column = column then
        some (((t.column? f.table f.column).getD ∅).insert f.property f)
      else t.column? table column := by
  simp only [column?, insert, Std.ExtTreeMap.getElem?_insert, Std.LawfulEqOrd.compare_eq_iff_eq]
  by_cases htable : f.table = table
  · subst htable
    rw [if_pos rfl, Option.bind_some, Std.ExtTreeMap.getElem?_insert, getElem?_getD_empty,
      getElem?_getD_empty]
    simp only [Std.LawfulEqOrd.compare_eq_iff_eq, true_and]
  · rw [if_neg htable, if_neg fun h ↦ htable h.1]

theorem get?_insert (f : Fact) (k : FactKey) :
    (t.insert f).2.get? k = if f.key = k then some f else t.get? k := by
  obtain ⟨table, column, property⟩ := k
  rw [get?, get?, column?_insert]
  dsimp only
  by_cases hplace : f.table = table ∧ f.column = column
  · obtain ⟨rfl, rfl⟩ := hplace
    rw [if_pos ⟨rfl, rfl⟩, Option.bind_some, Std.ExtTreeMap.getElem?_insert, getElem?_getD_empty]
    simp only [Std.LawfulEqOrd.compare_eq_iff_eq, Fact.key, FactKey.mk.injEq, true_and]
  · have hkey : ¬f.key = ⟨table, column, property⟩ := by
      rintro h
      obtain ⟨htable, hcolumn, -⟩ := (FactKey.mk.injEq ..).mp h
      exact hplace ⟨htable, hcolumn⟩
    rw [if_neg hplace, if_neg hkey]

theorem column?_remove (k : FactKey) (table column : String) :
    (t.remove k).2.column? table column =
      if k.table = table ∧ k.column = column then
        ((t.column? table column).map (·.erase k.property)).filter (!·.isEmpty)
      else t.column? table column := by
  rw [remove]
  split
  case h_1 hnone =>
    split
    · rename_i hplace
      rw [column?, ← hplace.1, hnone]
      rfl
    · rfl
  case h_2 columns hcolumns =>
    split
    case h_1 hnone =>
      split
      · rename_i hplace
        rw [column?, ← hplace.1, hcolumns, Option.bind_some, ← hplace.2, hnone]
        rfl
      · rfl
    case h_2 facts hfacts =>
      rw [column?, bind_setLevel]
      by_cases htable : k.table = table
      · subst htable
        rw [if_pos rfl, getElem?_setLevel, column?, hcolumns, Option.bind_some]
        by_cases hcolumn : k.column = column
        · subst hcolumn
          rw [if_pos rfl, if_pos (And.intro rfl rfl : k.table = k.table ∧ k.column = k.column),
            hfacts, Option.map_some, Option.filter_some]
          cases (facts.erase k.property).isEmpty <;> rfl
        · rw [if_neg hcolumn, if_neg fun h ↦ hcolumn h.2]
      · rw [if_neg htable, if_neg fun h ↦ htable h.1]
        rfl

theorem get?_remove (k k' : FactKey) :
    (t.remove k).2.get? k' = if k = k' then none else t.get? k' := by
  obtain ⟨table, column, property⟩ := k'
  rw [get?, get?, column?_remove]
  dsimp only
  by_cases hplace : k.table = table ∧ k.column = column
  · rw [if_pos hplace]
    have hkey : k = ⟨table, column, property⟩ ↔ k.property = property := by
      rw [← hplace.1, ← hplace.2]
      exact ⟨fun h ↦ (FactKey.mk.injEq ..).mp h |>.2.2,
        fun h ↦ (FactKey.mk.injEq ..).mpr ⟨rfl, rfl, h⟩⟩
    simp only [hkey]
    cases t.column? table column with
    | none => simp
    | some facts =>
      rw [Option.map_some, Option.bind_some, Option.filter_some]
      have herase : (facts.erase k.property)[property]? =
          if k.property = property then none else facts[property]? := by
        simp only [Std.ExtTreeMap.getElem?_erase, Std.LawfulEqOrd.compare_eq_iff_eq]
      rw [← herase]
      cases hempty : (facts.erase k.property).isEmpty with
      | true =>
        rw [Std.ExtTreeMap.isEmpty_iff.1 hempty, Std.ExtTreeMap.getElem?_empty]
        rfl
      | false => rfl
  · have hkey : ¬k = ⟨table, column, property⟩ := fun h ↦ hplace ⟨h ▸ rfl, h ▸ rfl⟩
    rw [if_neg hplace, if_neg hkey]

theorem column?_removeColumn (table column n m : String) :
    (t.removeColumn table column).2.column? n m =
      if table = n ∧ column = m then none else t.column? n m := by
  rw [removeColumn]
  split
  case h_1 hnone =>
    split
    · rename_i hplace
      rw [column?, ← hplace.1, hnone]
      rfl
    · rfl
  case h_2 columns hcolumns =>
    rw [column?, bind_setLevel]
    by_cases htable : table = n
    · subst htable
      rw [if_pos rfl, column?, hcolumns, Option.bind_some, Std.ExtTreeMap.getElem?_erase]
      simp only [Std.LawfulEqOrd.compare_eq_iff_eq, true_and]
    · rw [if_neg htable, if_neg fun h ↦ htable h.1]
      rfl

theorem get?_removeColumn (table column : String) (k : FactKey) :
    (t.removeColumn table column).2.get? k =
      if table = k.table ∧ column = k.column then none else t.get? k := by
  rw [get?, column?_removeColumn]
  split <;> rfl

theorem column?_removeTable (table n m : String) :
    (t.removeTable table).2.column? n m = if table = n then none else t.column? n m := by
  simp only [column?, removeTable, Std.ExtTreeMap.getElem?_erase,
    Std.LawfulEqOrd.compare_eq_iff_eq]
  split <;> rfl

theorem get?_removeTable (table : String) (k : FactKey) :
    (t.removeTable table).2.get? k = if table = k.table then none else t.get? k := by
  rw [get?, column?_removeTable]
  split <;> rfl

/-! ## Filed facts -/

/-- Every fact is found under its own key, and no level is empty. -/
structure Filed (t : FactTree) : Prop where
  table_ne : ∀ table : String, t.tables[table]? ≠ some ∅
  column_ne : ∀ table column : String, t.column? table column ≠ some ∅
  key_eq : ∀ (k : FactKey) (f : Fact), t.get? k = some f → f.key = k

namespace Filed

theorem empty : Filed {} := by
  refine ⟨fun table ↦ ?_, fun table column ↦ ?_, fun k f h ↦ ?_⟩
  · rw [show ({} : FactTree).tables[table]? = none from Std.ExtTreeMap.getElem?_empty]
    exact nofun
  · rw [column?_empty]
    exact nofun
  · rw [get?_empty] at h
    contradiction

variable {t : FactTree} (h : t.Filed)

include h

theorem insert (f : Fact) : (t.insert f).2.Filed := by
  refine ⟨fun table ↦ ?_, fun table column ↦ ?_, fun k g hg ↦ ?_⟩
  · rw [FactTree.insert, Std.ExtTreeMap.getElem?_insert]
    split
    · exact fun e ↦ Std.ExtTreeMap.insert_ne_empty (Option.some.inj e)
    · exact h.table_ne table
  · rw [column?_insert]
    split
    · exact fun e ↦ Std.ExtTreeMap.insert_ne_empty (Option.some.inj e)
    · exact h.column_ne table column
  · rw [get?_insert] at hg
    split at hg
    · exact Option.some.inj hg ▸ ‹_›
    · exact h.key_eq k g hg

/-- Taking facts away leaves the others where they are. -/
theorem of_sublevels {t' : FactTree} (htable : ∀ table : String, t'.tables[table]? ≠ some ∅)
    (hcolumn : ∀ table column : String, t'.column? table column ≠ some ∅)
    (hget : ∀ (k : FactKey) (f : Fact), t'.get? k = some f → t.get? k = some f) : t'.Filed :=
  ⟨htable, hcolumn, fun k f hf ↦ h.key_eq k f (hget k f hf)⟩

theorem remove (k : FactKey) : (t.remove k).2.Filed := by
  refine h.of_sublevels (fun table ↦ ?_) (fun table column ↦ ?_) fun k' f hf ↦ ?_
  · rw [FactTree.remove]
    split
    · exact h.table_ne table
    · split
      · exact h.table_ne table
      · exact setLevel_ne_empty _ _ _ h.table_ne
  · rw [column?_remove]
    split
    · intro e
      have hempty := (Option.filter_eq_some_iff.1 e).2
      rw [Std.ExtTreeMap.isEmpty_empty] at hempty
      contradiction
    · exact h.column_ne table column
  · rw [get?_remove] at hf
    split at hf
    · contradiction
    · exact hf

theorem removeColumn (table column : String) : (t.removeColumn table column).2.Filed := by
  refine h.of_sublevels (fun n ↦ ?_) (fun n m ↦ ?_) fun k f hf ↦ ?_
  · rw [FactTree.removeColumn]
    split
    · exact h.table_ne n
    · exact setLevel_ne_empty _ _ _ h.table_ne
  · rw [column?_removeColumn]
    split
    · exact nofun
    · exact h.column_ne n m
  · rw [get?_removeColumn] at hf
    split at hf
    · contradiction
    · exact hf

theorem removeTable (table : String) : (t.removeTable table).2.Filed := by
  refine h.of_sublevels (fun n ↦ ?_) (fun n m ↦ ?_) fun k f hf ↦ ?_
  · rw [FactTree.removeTable, Std.ExtTreeMap.getElem?_erase]
    split
    · exact nofun
    · exact h.table_ne n
  · rw [column?_removeTable]
    split
    · exact nofun
    · exact h.column_ne n m
  · rw [get?_removeTable] at hf
    split at hf
    · contradiction
    · exact hf

theorem insertAll (fs : List Fact) : (t.insertAll fs).Filed := by
  induction fs generalizing t with
  | nil => exact h
  | cons f fs ih => exact ih (h.insert f)

theorem renameTable (old new : String) : (t.renameTable old new).Filed :=
  (h.removeTable old).insertAll _

/-- Trees with the same facts are the same: what a level holds is seen below it, as it is not
empty. -/
theorem ext {t' : FactTree} (h' : t'.Filed) (hget : ∀ k, t.get? k = t'.get? k) : t = t' := by
  have hlevel {α β : Type} [Ord α] [Std.TransOrd α] [Std.LawfulEqOrd α]
      {o o' : Option (Std.ExtTreeMap α β)} (hne : o ≠ some ∅) (hne' : o' ≠ some ∅)
      (h : ∀ a : α, o.bind (fun m ↦ m[a]?) = o'.bind (fun m ↦ m[a]?)) : o = o' := by
    have hempty {m : Std.ExtTreeMap α β} (hm : ∀ a : α, m[a]? = none) : m = ∅ :=
      Std.ExtTreeMap.ext_getElem? fun {a} ↦ (hm a).trans Std.ExtTreeMap.getElem?_empty.symm
    match o, o' with
    | none, none => rfl
    | some m, none => exact absurd (congrArg some (hempty h)) hne
    | none, some m => exact absurd (congrArg some (hempty fun a ↦ (h a).symm)) hne'
    | some m, some m' => exact congrArg some (Std.ExtTreeMap.ext_getElem? fun {a} ↦ h a)
  have htables : t.tables = t'.tables :=
    Std.ExtTreeMap.ext_getElem? fun {table} ↦ hlevel (h.table_ne table) (h'.table_ne table)
      fun column ↦ hlevel (h.column_ne table column) (h'.column_ne table column)
        fun property ↦ hget ⟨table, column, property⟩
  cases t
  cases t'
  exact congrArg FactTree.mk htables

/-- The columns of a table are those with facts. -/
theorem mem_columns {table column : String} :
    column ∈ t.columns table ↔ ∃ property f, t.get? ⟨table, column, property⟩ = some f := by
  simp only [columns, get?, Option.bind_eq_some_iff]
  constructor
  · intro hmem
    cases htable : t.tables[table]? with
    | none =>
      rw [htable] at hmem
      contradiction
    | some columns =>
      rw [htable] at hmem
      have hmem : column ∈ columns := Std.ExtTreeMap.mem_keys.1 hmem
      have hcolumn : t.column? table column = some columns[column] := by
        rw [column?, htable, Option.bind_some, Std.ExtTreeMap.getElem?_eq_some_getElem hmem]
      have hne : ¬∀ property, property ∉ columns[column] := fun hall ↦ h.column_ne table column
        (hcolumn.trans (congrArg some (Std.ExtTreeMap.eq_empty_iff_forall_not_mem.2 hall)))
      obtain ⟨property, hproperty⟩ := Classical.not_forall_not.1 hne
      exact ⟨property, _, _, hcolumn, Std.ExtTreeMap.getElem?_eq_some_getElem hproperty⟩
  · rintro ⟨property, f, facts, hfacts, -⟩
    obtain ⟨columns, hcolumns, hfacts⟩ := Option.bind_eq_some_iff.1 hfacts
    rw [hcolumns]
    exact Std.ExtTreeMap.mem_keys.2 (Std.ExtTreeMap.mem_iff_isSome_getElem?.2 (by rw [hfacts]; rfl))

end Filed

/-! ## Facts in order -/

theorem mem_list {columns : TableFacts} {f : Fact} :
    f ∈ columns.list ↔ ∃ (column : String) (property : Property),
      (columns[column]?).bind (·[property]?) = some f := by
  simp only [TableFacts.list, ColumnFacts.list, List.mem_flatMap, List.mem_map, Prod.exists,
    Std.ExtTreeMap.mem_toList_iff_getElem?_eq_some, Option.bind_eq_some_iff]
  constructor
  · rintro ⟨column, facts, hfacts, property, f, hf, rfl⟩
    exact ⟨column, property, facts, hfacts, hf⟩
  · rintro ⟨column, property, facts, hfacts, hf⟩
    exact ⟨column, facts, hfacts, property, f, hf, rfl⟩

theorem mem_ofTable {t : FactTree} {table : String} {f : Fact} :
    f ∈ t.ofTable table ↔ ∃ column property, t.get? ⟨table, column, property⟩ = some f := by
  simp only [ofTable, get?, column?]
  cases t.tables[table]? with
  | none => simp
  | some columns => exact mem_list

theorem mem_entries {t : FactTree} {f : Fact} : f ∈ t.entries ↔ ∃ k, t.get? k = some f := by
  simp only [entries, List.mem_flatMap, Prod.exists,
    Std.ExtTreeMap.mem_toList_iff_getElem?_eq_some]
  constructor
  · rintro ⟨table, columns, hcolumns, hf⟩
    obtain ⟨column, property, hf⟩ := mem_list.1 hf
    refine ⟨⟨table, column, property⟩, ?_⟩
    rw [get?, column?, hcolumns]
    exact hf
  · rintro ⟨k, hf⟩
    rw [get?, column?, Option.bind_assoc] at hf
    obtain ⟨columns, hcolumns, hf⟩ := Option.bind_eq_some_iff.1 hf
    exact ⟨k.table, columns, hcolumns, mem_list.2 ⟨k.column, k.property, hf⟩⟩

end FactTree

end SchemaLedger
