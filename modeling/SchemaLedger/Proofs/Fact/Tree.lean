import Mathlib
import SchemaLedger.Fact.Delta

/-!
# Trees of facts are flat maps

Facts filed in three levels are to the outside a map from keys to facts. What is found under a key
after an operation, and what the operation answers, is said here of such a map, without levels. A
tree that comes about by operations agrees with it after each of them, since no operation leaves a
fact in a wrong place or a level without facts.
-/

namespace SchemaLedger

namespace FactKey

/-! ## The order of keys -/

variable {k k' : FactKey}

theorem compare_eq_lt_of_table (h : compare k.table k'.table = .lt) : compare k k' = .lt := by
  change compareLex _ _ k k' = .lt
  rw [compareLex, compareOn, h]
  rfl

theorem compare_eq_lt_of_column (htable : k.table = k'.table)
    (h : compare k.column k'.column = .lt) : compare k k' = .lt := by
  change compareLex _ _ k k' = .lt
  rw [compareLex, compareOn, htable, Std.ReflOrd.compare_self, compareLex, compareOn, h]
  rfl

theorem compare_eq_lt_of_property (htable : k.table = k'.table) (hcolumn : k.column = k'.column)
    (h : compare k.property k'.property = .lt) : compare k k' = .lt := by
  change compareLex _ _ k k' = .lt
  rw [compareLex, compareOn, htable, Std.ReflOrd.compare_self, compareLex, compareOn, hcolumn,
    Std.ReflOrd.compare_self]
  exact h

end FactKey

namespace FactTree

/-! ## Facts in the order of their keys -/

/-- Keys come in ascending order, so none comes twice. -/
def Ascending (fs : List Fact) : Prop := fs.Pairwise fun f g ↦ compare f.key g.key = .lt

theorem Ascending.nodup_keys {fs : List Fact} (h : Ascending fs) : (fs.map Fact.key).Nodup := by
  refine List.pairwise_map.2 (h.imp fun hlt e ↦ ?_)
  rw [e, Std.ReflOrd.compare_self] at hlt
  contradiction

namespace Filed

variable {t : FactTree} (h : t.Filed)

include h

theorem ascending_columnList {table column : String} {facts : ColumnFacts}
    (hfacts : t.column? table column = some facts) : Ascending facts.list := by
  have hkey {p : Property × Fact} (hp : p ∈ facts.toList) : p.2.key = ⟨table, column, p.1⟩ := by
    refine h.key_eq _ _ ?_
    rw [get?, hfacts]
    exact Std.ExtTreeMap.mem_toList_iff_getElem?_eq_some.1 hp
  refine List.pairwise_map.2 (Std.ExtTreeMap.ordered_keys_toList.imp_of_mem fun hp hq hlt ↦ ?_)
  rw [hkey hp, hkey hq]
  exact FactKey.compare_eq_lt_of_property rfl rfl hlt

theorem ascending_list {table : String} {columns : TableFacts}
    (hcolumns : t.tables[table]? = some columns) : Ascending columns.list := by
  have hcolumn {p : String × ColumnFacts} (hp : p ∈ columns.toList) :
      t.column? table p.1 = some p.2 := by
    rw [column?, hcolumns]
    exact Std.ExtTreeMap.mem_toList_iff_getElem?_eq_some.1 hp
  have hkey {p : String × ColumnFacts} (hp : p ∈ columns.toList) {f : Fact}
      (hf : f ∈ ColumnFacts.list p.2) : ∃ property, f.key = ⟨table, p.1, property⟩ := by
    obtain ⟨q, hq, rfl⟩ := List.mem_map.1 hf
    refine ⟨q.1, h.key_eq _ _ ?_⟩
    rw [get?, hcolumn hp]
    exact Std.ExtTreeMap.mem_toList_iff_getElem?_eq_some.1 hq
  refine List.pairwise_flatMap.2 ⟨fun p hp ↦ h.ascending_columnList (hcolumn hp), ?_⟩
  refine Std.ExtTreeMap.ordered_keys_toList.imp_of_mem fun hp hq hlt f hf g hg ↦ ?_
  obtain ⟨_, hf⟩ := hkey hp hf
  obtain ⟨_, hg⟩ := hkey hq hg
  rw [hf, hg]
  exact FactKey.compare_eq_lt_of_column rfl hlt

theorem ascending_entries : Ascending t.entries := by
  have htable {p : String × TableFacts} (hp : p ∈ t.tables.toList) : t.tables[p.1]? = some p.2 :=
    Std.ExtTreeMap.mem_toList_iff_getElem?_eq_some.1 hp
  have hkey {p : String × TableFacts} (hp : p ∈ t.tables.toList) {f : Fact}
      (hf : f ∈ TableFacts.list p.2) : f.key.table = p.1 := by
    obtain ⟨column, property, hf⟩ := mem_list.1 hf
    rw [h.key_eq ⟨p.1, column, property⟩ f]
    rw [get?, column?, htable hp]
    exact hf
  refine List.pairwise_flatMap.2 ⟨fun p hp ↦ h.ascending_list (htable hp), ?_⟩
  refine Std.ExtTreeMap.ordered_keys_toList.imp_of_mem fun hp hq hlt f hf g hg ↦ ?_
  refine FactKey.compare_eq_lt_of_table ?_
  rw [hkey hp hf, hkey hq hg]
  exact hlt

theorem mem_entries_iff {f : Fact} : f ∈ t.entries ↔ t.get? f.key = some f := by
  rw [mem_entries]
  constructor
  · rintro ⟨k, hk⟩
    exact (h.key_eq k f hk).symm ▸ hk
  · exact fun hf ↦ ⟨f.key, hf⟩

theorem mem_ofTable_iff {table : String} {f : Fact} :
    f ∈ t.ofTable table ↔ t.get? f.key = some f ∧ f.table = table := by
  rw [mem_ofTable]
  constructor
  · rintro ⟨column, property, hf⟩
    have hkey := h.key_eq _ f hf
    exact ⟨hkey ▸ hf, ((FactKey.mk.injEq ..).mp hkey).1⟩
  · rintro ⟨hf, rfl⟩
    exact ⟨f.column, f.property, hf⟩

theorem ascending_ofTable (table : String) : Ascending (t.ofTable table) := by
  rw [ofTable]
  cases htable : t.tables[table]? with
  | none => exact List.Pairwise.nil
  | some columns => exact h.ascending_list htable

theorem mem_ofColumn_iff {table column : String} {f : Fact} :
    f ∈ t.ofColumn table column ↔ t.get? f.key = some f ∧ f.table = table ∧ f.column = column := by
  have hmem : f ∈ t.ofColumn table column ↔
      ∃ property, t.get? ⟨table, column, property⟩ = some f := by
    simp only [ofColumn, get?]
    cases t.column? table column with
    | none => simp
    | some facts =>
      simp [ColumnFacts.list, Std.ExtTreeMap.mem_toList_iff_getElem?_eq_some]
  rw [hmem]
  constructor
  · rintro ⟨property, hf⟩
    have hkey := h.key_eq _ f hf
    obtain ⟨htable, hcolumn, -⟩ := (FactKey.mk.injEq ..).mp hkey
    exact ⟨hkey ▸ hf, htable, hcolumn⟩
  · rintro ⟨hf, rfl, rfl⟩
    exact ⟨f.property, hf⟩

theorem ascending_ofColumn (table column : String) : Ascending (t.ofColumn table column) := by
  rw [ofColumn]
  cases hcolumn : t.column? table column with
  | none => exact List.Pairwise.nil
  | some facts => exact h.ascending_columnList hcolumn

/-! ## Emptiness -/

/-- A table that is listed has facts. -/
theorem isEmpty_iff : t.isEmpty = true ↔ t.size = 0 := by
  rw [isEmpty, Std.ExtTreeMap.isEmpty_iff, size, List.length_eq_zero_iff]
  constructor
  · intro hempty
    rw [entries, hempty]
    rfl
  · intro hentries
    have hnone (k : FactKey) : t.get? k = ({} : FactTree).get? k := by
      rw [get?_empty]
      refine Option.eq_none_iff_forall_ne_some.2 fun f hf ↦ ?_
      have hmem := mem_entries.2 ⟨k, hf⟩
      rw [hentries] at hmem
      contradiction
    rw [h.ext .empty hnone]

end Filed

/-! ## Facts that are moved -/

variable {t : FactTree}

theorem get?_insertAll_of_forall_ne {fs : List Fact} {k : FactKey} (hne : ∀ f ∈ fs, f.key ≠ k) :
    (t.insertAll fs).get? k = t.get? k := by
  induction fs generalizing t with
  | nil => rfl
  | cons f fs ih =>
    change ((t.insert f).2.insertAll fs).get? k = _
    rw [ih fun g hg ↦ hne g (List.mem_cons_of_mem f hg), get?_insert,
      if_neg (hne f List.mem_cons_self)]

theorem get?_insertAll_of_mem {fs : List Fact} {f : Fact} (hf : f ∈ fs)
    (hunique : ∀ g ∈ fs, g.key = f.key → g = f) : (t.insertAll fs).get? f.key = some f := by
  induction fs generalizing t with
  | nil => contradiction
  | cons g fs ih =>
    change ((t.insert g).2.insertAll fs).get? f.key = _
    by_cases hlater : ∃ e ∈ fs, e.key = f.key
    · obtain ⟨e, he, hkey⟩ := hlater
      have hef := hunique e (List.mem_cons_of_mem g he) hkey
      exact ih (hef ▸ he) fun e he ↦ hunique e (List.mem_cons_of_mem g he)
    · have hne : ∀ e ∈ fs, e.key ≠ f.key := fun e he hkey ↦ hlater ⟨e, he, hkey⟩
      have hgf : f = g := by
        rcases List.mem_cons.1 hf with hf | hf
        · exact hf
        · exact absurd rfl (hne f hf)
      rw [get?_insertAll_of_forall_ne hne, get?_insert, hgf, if_pos rfl]

/-- Facts that are moved stand in the way of those at the same place under the new name. -/
theorem Filed.get?_renameTable (h : t.Filed) (old new : String) (k : FactKey) :
    (t.renameTable old new).get? k =
      if old = new then t.get? k
      else if k.table = old then none
      else if k.table = new then
        ((t.get? { k with table := old }).map ({ · with table := new })).or (t.get? k)
      else t.get? k := by
  let moved := (t.ofTable old).map fun f ↦ { f with table := new }
  have hmoved {f : Fact} (hf : t.get? f.key = some f) (htable : f.table = old) :
      { f with table := new } ∈ moved :=
    List.mem_map_of_mem (h.mem_ofTable_iff.2 ⟨hf, htable⟩)
  change ((t.removeTable old).2.insertAll moved).get? k = _
  by_cases hk : ∃ f ∈ moved, f.key = k
  · obtain ⟨f, hf, rfl⟩ := hk
    obtain ⟨e, hmem, rfl⟩ := List.mem_map.1 hf
    obtain ⟨he, htable⟩ := h.mem_ofTable_iff.1 hmem
    have hunique : ∀ g ∈ moved, g.key = ({ e with table := new } : Fact).key →
        g = { e with table := new } := by
      rintro g hg hkey
      obtain ⟨e', hmem', rfl⟩ := List.mem_map.1 hg
      obtain ⟨he', htable'⟩ := h.mem_ofTable_iff.1 hmem'
      obtain ⟨-, hcolumn, hproperty⟩ := (FactKey.mk.injEq ..).mp hkey
      have hsame : e'.key = e.key :=
        (FactKey.mk.injEq ..).mpr ⟨htable'.trans htable.symm, hcolumn, hproperty⟩
      rw [hsame, he] at he'
      rw [Option.some.inj he']
    rw [get?_insertAll_of_mem hf hunique]
    subst htable
    split
    · rename_i hsame
      subst hsame
      exact he.symm
    · rename_i hdiffer
      rw [show ({ e with table := new } : Fact).key = ⟨new, e.column, e.property⟩ from rfl]
      dsimp only
      rw [if_neg (Ne.symm hdiffer), if_pos rfl]
      change _ = ((t.get? e.key).map _).or _
      rw [he, Option.map_some, Option.some_or]
  · have hnone (f : Fact) (hf : t.get? f.key = some f) (htable : f.table = old) :
        (⟨new, f.column, f.property⟩ : FactKey) ≠ k :=
      fun e ↦ hk ⟨_, hmoved hf htable, e⟩
    rw [get?_insertAll_of_forall_ne fun f hf e ↦ hk ⟨f, hf, e⟩, get?_removeTable]
    -- a fact of the old name at the place of `k` would have been moved to `k`
    have hplace : k.table = new → t.get? { k with table := old } = none := by
      rintro rfl
      refine Option.eq_none_iff_forall_ne_some.2 fun f hf ↦ ?_
      have hkey := h.key_eq _ f hf
      obtain ⟨htable, hcolumn, hproperty⟩ := (FactKey.mk.injEq ..).mp hkey
      refine hnone f (hkey.symm ▸ hf) htable ?_
      rw [hcolumn, hproperty]
    by_cases hsame : old = new
    · subst hsame
      rw [if_pos rfl]
      split
      · rename_i htable
        exact (htable ▸ hplace htable.symm).symm
      · rfl
    · rw [if_neg hsame]
      by_cases hold : k.table = old
      · rw [if_pos hold.symm, if_pos hold]
      · rw [if_neg (Ne.symm hold), if_neg hold]
        split
        · rename_i htable
          rw [hplace htable, Option.map_none, Option.none_or]
        · rfl

end FactTree

/-! ## Flat maps -/

/-- Facts by key, without levels. -/
abbrev FlatFacts := FactKey → Option Fact

namespace FlatFacts

variable (m : FlatFacts)

/-- The facts without those of some keys. -/
def without (p : FactKey → Prop) [DecidablePred p] : FlatFacts := fun k ↦ if p k then none else m k

/-- The facts with one more, in place of the one with its key. -/
def insert (f : Fact) : FlatFacts := fun k ↦ if f.key = k then some f else m k

/-- The facts of a table under another name, in place of those that are at the same column and
property there. -/
def rename (old new : String) : FlatFacts := fun k ↦
  if old = new then m k
  else if k.table = old then none
  else if k.table = new then ((m { k with table := old }).map ({ · with table := new })).or (m k)
  else m k

/-- The facts after a step of a delta. -/
def apply : Change → FlatFacts
  | .upsert f => m.insert f
  | .removeColumn table column => m.without fun k ↦ table = k.table ∧ column = k.column
  | .removeTable table => m.without fun k ↦ table = k.table
  | .renameTable old new => m.rename old new

end FlatFacts

/-! ## Operations one after another -/

/-- What may be asked of a tree. -/
inductive FactOperation where
  | insert (fact : Fact)
  | remove (key : FactKey)
  | removeColumn (table column : String)
  | removeTable (table : String)
  | renameTable (old new : String)
  | apply (delta : Delta)

namespace FactOperation

/-- The flat map after an operation. -/
def effect (m : FlatFacts) : FactOperation → FlatFacts
  | insert f => m.insert f
  | remove k => m.without fun k' ↦ k = k'
  | removeColumn table column => m.without fun k ↦ table = k.table ∧ column = k.column
  | removeTable table => m.without fun k ↦ table = k.table
  | renameTable old new => m.rename old new
  | apply d => d.foldl FlatFacts.apply m

/-- The keys whose facts an operation answers. -/
def answered : FactOperation → FactKey → Prop
  | insert f => fun k ↦ f.key = k
  | remove k => fun k' ↦ k = k'
  | removeColumn table column => fun k ↦ k.table = table ∧ k.column = column
  | removeTable table => fun k ↦ k.table = table
  | renameTable _ _ => fun _ ↦ False
  | apply _ => fun _ ↦ False

end FactOperation

namespace FactTree

variable {t : FactTree}

/-- What an operation answers, and the tree after it. -/
def step (t : FactTree) : FactOperation → List Fact × FactTree
  | .insert f => ((t.insert f).1.toList, (t.insert f).2)
  | .remove k => ((t.remove k).1.toList, (t.remove k).2)
  | .removeColumn table column => t.removeColumn table column
  | .removeTable table => t.removeTable table
  | .renameTable old new => ([], t.renameTable old new)
  | .apply d => ([], t.applyAll d)

/-- The tree after operations. -/
def run (t : FactTree) (ops : List FactOperation) : FactTree :=
  ops.foldl (fun t op ↦ (t.step op).2) t

theorem insert_fst (f : Fact) : (t.insert f).1 = t.get? f.key := by
  rw [insert, get?, column?]
  dsimp only [Fact.key]
  rw [getElem?_getD_empty, getElem?_getD_empty]

theorem remove_fst (k : FactKey) : (t.remove k).1 = t.get? k := by
  rw [remove, get?, column?]
  cases t.tables[k.table]? with
  | none => rfl
  | some columns =>
    rw [Option.bind_some]
    dsimp only
    cases columns[k.column]? with
    | none => rfl
    | some facts => rfl

theorem removeColumn_fst (table column : String) :
    (t.removeColumn table column).1 = t.ofColumn table column := by
  rw [removeColumn, ofColumn, column?]
  cases t.tables[table]? with
  | none => rfl
  | some columns => rfl

theorem Filed.step (h : t.Filed) (op : FactOperation) : (t.step op).2.Filed := by
  cases op with
  | insert f => exact h.insert f
  | remove k => exact h.remove k
  | removeColumn table column => exact h.removeColumn table column
  | removeTable table => exact h.removeTable table
  | renameTable old new => exact h.renameTable old new
  | apply d => exact h.applyAll d

theorem Filed.run (h : t.Filed) (ops : List FactOperation) : (t.run ops).Filed := by
  induction ops generalizing t with
  | nil => exact h
  | cons op ops ih => exact ih (h.step op)

theorem Filed.get?_apply (h : t.Filed) (c : Change) :
    (t.apply c).get? = FlatFacts.apply t.get? c := by
  funext k
  cases c with
  | upsert f => exact get?_insert t f k
  | removeColumn table column => exact get?_removeColumn t table column k
  | removeTable table => exact get?_removeTable t table k
  | renameTable old new => exact h.get?_renameTable old new k

theorem Filed.get?_applyAll (h : t.Filed) (d : Delta) :
    (t.applyAll d).get? = d.foldl FlatFacts.apply t.get? := by
  induction d generalizing t with
  | nil => rfl
  | cons c d ih =>
    rw [List.foldl_cons, ← h.get?_apply c]
    exact ih (h.apply c)

/-- An operation does to a tree what it does to the flat map of the tree. -/
theorem Filed.get?_step (h : t.Filed) (op : FactOperation) :
    (t.step op).2.get? = op.effect t.get? := by
  cases op with
  | insert f => exact funext (get?_insert t f)
  | remove k => exact funext (get?_remove t k)
  | removeColumn table column => exact funext (get?_removeColumn t table column)
  | removeTable table => exact funext (get?_removeTable t table)
  | renameTable old new => exact funext (h.get?_renameTable old new)
  | apply d => exact h.get?_applyAll d

theorem Filed.get?_run (h : t.Filed) (ops : List FactOperation) :
    (t.run ops).get? = ops.foldl FactOperation.effect t.get? := by
  induction ops generalizing t with
  | nil => rfl
  | cons op ops ih =>
    rw [List.foldl_cons, ← h.get?_step op]
    exact ih (h.step op)

/-- An operation answers the facts that it takes out of their places. -/
theorem Filed.step_fst (h : t.Filed) (op : FactOperation) :
    Ascending (t.step op).1 ∧
      ∀ f, f ∈ (t.step op).1 ↔ t.get? f.key = some f ∧ op.answered f.key := by
  have hplace (k : FactKey) : Ascending (t.get? k).toList ∧
      ∀ f, f ∈ (t.get? k).toList ↔ t.get? f.key = some f ∧ k = f.key := by
    refine ⟨?_, fun f ↦ ?_⟩
    · cases t.get? k with
      | none => exact List.Pairwise.nil
      | some f => exact List.pairwise_singleton ..
    · rw [Option.mem_toList]
      constructor
      · intro hf
        have hkey := h.key_eq k f hf
        exact ⟨hkey.symm ▸ hf, hkey.symm⟩
      · rintro ⟨hf, rfl⟩
        exact hf
  cases op with
  | insert f =>
    rw [FactTree.step, insert_fst]
    exact hplace f.key
  | remove k =>
    rw [FactTree.step, remove_fst]
    exact hplace k
  | removeColumn table column =>
    rw [FactTree.step, removeColumn_fst]
    exact ⟨h.ascending_ofColumn table column, fun f ↦ h.mem_ofColumn_iff⟩
  | removeTable table => exact ⟨h.ascending_ofTable table, fun f ↦ h.mem_ofTable_iff⟩
  | renameTable old new => exact ⟨List.Pairwise.nil, fun f ↦ ⟨nofun, fun h ↦ h.2.elim⟩⟩
  | apply d => exact ⟨List.Pairwise.nil, fun f ↦ ⟨nofun, fun h ↦ h.2.elim⟩⟩

/-- Trees with the same facts are the same, whatever operations led to them. -/
theorem Filed.eq_iff_entries {t' : FactTree} (h : t.Filed) (h' : t'.Filed) :
    t = t' ↔ ∀ f, f ∈ t.entries ↔ f ∈ t'.entries := by
  constructor
  · rintro rfl f
    rfl
  · intro hentries
    refine h.ext h' fun k ↦ Option.ext fun f ↦ ?_
    constructor
    · intro hf
      obtain rfl := h.key_eq k f hf
      exact h'.mem_entries_iff.1 ((hentries f).1 (h.mem_entries_iff.2 hf))
    · intro hf
      obtain rfl := h'.key_eq k f hf
      exact h.mem_entries_iff.1 ((hentries f).2 (h'.mem_entries_iff.2 hf))

/-- A tree stands for a flat map: it holds the facts of the map and no others, each in its place and
in the order of keys, and it has no level without facts. -/
structure Refines (t : FactTree) (m : FlatFacts) : Prop where
  filed : t.Filed
  get?_eq : t.get? = m
  ascending_entries : Ascending t.entries
  mem_entries_iff : ∀ f, f ∈ t.entries ↔ m f.key = some f
  isEmpty_iff : t.isEmpty = true ↔ t.size = 0

theorem Filed.refines (h : t.Filed) : t.Refines t.get? :=
  ⟨h, rfl, h.ascending_entries, fun _ ↦ h.mem_entries_iff, h.isEmpty_iff⟩

/-- A tree that comes about by operations stands for the flat map that they make, is known by its
facts, and answers the next operation with what the flat map has under the keys asked for. -/
theorem refines_run (ops : List FactOperation) :
    (({} : FactTree).run ops).Refines (ops.foldl FactOperation.effect fun _ ↦ none) ∧
      (∀ ops', ({} : FactTree).run ops = ({} : FactTree).run ops' ↔
        ∀ f, f ∈ (({} : FactTree).run ops).entries ↔ f ∈ (({} : FactTree).run ops').entries) ∧
      ∀ op, Ascending ((({} : FactTree).run ops).step op).1 ∧
        ∀ f, f ∈ ((({} : FactTree).run ops).step op).1 ↔
          (ops.foldl FactOperation.effect fun _ ↦ none) f.key = some f ∧ op.answered f.key := by
  have h : (({} : FactTree).run ops).Filed := Filed.empty.run ops
  have hget : (({} : FactTree).run ops).get? = ops.foldl FactOperation.effect fun _ ↦ none := by
    rw [Filed.empty.get?_run ops, show ({} : FactTree).get? = fun _ ↦ none from funext get?_empty]
  rw [← hget]
  exact ⟨h.refines, fun ops' ↦ h.eq_iff_entries (Filed.empty.run ops'), h.step_fst⟩

end FactTree

end SchemaLedger
