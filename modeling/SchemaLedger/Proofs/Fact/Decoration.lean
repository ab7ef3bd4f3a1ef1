import Mathlib
import SchemaLedger.Fact.Decoration
import SchemaLedger.Fact.Delta
import SchemaLedger.Proofs.Table

/-!
# What facts say about columns

The ledger of a list of facts holds each of them, as long as no two facts of the list disagree. The
facts of a column are one for each property that has a value, and decorating a table with them
gives every column the generation and the default that its facts were made from.
-/

namespace SchemaLedger

/-! ## Ledgers of lists -/

namespace Ledger

theorem insertAll_append (l : Ledger) (fs gs : List Fact) :
    l.insertAll (fs ++ gs) = (l.insertAll fs).insertAll gs := List.foldl_append

/-- The values of a ledger come from the facts that were stored in it. -/
theorem get?_insertAll_of_forall_ne {l : Ledger} {fs : List Fact} {k : FactKey}
    (h : ∀ f ∈ fs, f.key ≠ k) : (l.insertAll fs).get? k = l.get? k := by
  induction fs generalizing l with
  | nil => rfl
  | cons f fs ih =>
    rw [insertAll, List.foldl_cons]
    change ((l.insert f).insertAll fs).get? k = _
    rw [ih fun g hg ↦ h g (List.mem_cons_of_mem f hg), get?_insert,
      if_neg (h f List.mem_cons_self)]

/-- No two facts of the list give one key different values. -/
def Agreeing (fs : List Fact) : Prop := ∀ f ∈ fs, ∀ g ∈ fs, f.key = g.key → f.value = g.value

theorem get?_insertAll_of_mem {l : Ledger} {fs : List Fact} (h : Agreeing fs) {f : Fact}
    (hf : f ∈ fs) : (l.insertAll fs).get? f.key = some f.value := by
  induction fs generalizing l f with
  | nil => contradiction
  | cons g fs ih =>
    have htail : Agreeing fs := fun a ha b hb ↦
      h a (List.mem_cons_of_mem g ha) b (List.mem_cons_of_mem g hb)
    change ((l.insert g).insertAll fs).get? f.key = _
    by_cases hmem : ∃ e ∈ fs, e.key = f.key
    · obtain ⟨e, he, hkey⟩ := hmem
      rw [← hkey, ih htail he, h e (List.mem_cons_of_mem g he) f hf hkey]
    · have hne : ∀ e ∈ fs, e.key ≠ f.key := fun e he hkey ↦ hmem ⟨e, he, hkey⟩
      have hfg : f = g := by
        rcases List.mem_cons.1 hf with hf | hf
        · exact hf
        · exact absurd rfl (hne f hf)
      rw [get?_insertAll_of_forall_ne hne, get?_insert, hfg, if_pos rfl]

theorem get?_ofList {fs : List Fact} (h : Agreeing fs) {k : FactKey} {v : String} :
    (ofList fs).get? k = some v ↔ ∃ f ∈ fs, f.key = k ∧ f.value = v := by
  constructor
  · intro hk
    by_cases hmem : ∃ f ∈ fs, f.key = k
    · obtain ⟨f, hf, rfl⟩ := hmem
      rw [ofList, get?_insertAll_of_mem h hf, Option.some_inj] at hk
      exact ⟨f, hf, rfl, hk⟩
    · rw [ofList, get?_insertAll_of_forall_ne fun f hf e ↦ hmem ⟨f, hf, e⟩, get?_empty] at hk
      contradiction
  · rintro ⟨f, hf, rfl, rfl⟩
    exact get?_insertAll_of_mem h hf

/-- It holds the facts of the list, and no others. -/
theorem get?_key_ofList {fs : List Fact} (h : Agreeing fs) {f : Fact} :
    (ofList fs).get? f.key = some f.value ↔ f ∈ fs := by
  rw [get?_ofList h]
  constructor
  · rintro ⟨g, hg, hkey, hvalue⟩
    obtain ⟨htable, hcolumn, hproperty⟩ := (FactKey.mk.injEq ..).mp hkey
    obtain rfl : g = f := (Fact.mk.injEq ..).mpr ⟨htable, hcolumn, hproperty, hvalue⟩
    exact hg
  · exact fun hf ↦ ⟨f, hf, rfl, rfl⟩

theorem mem_columns {l : Ledger} {table column : String} :
    column ∈ l.columns table ↔ ∃ p v, l.get? ⟨table, column, p⟩ = some v := by
  rw [columns, l.filed.mem_columns]
  simp only [get?, fact?, Option.map_eq_some_iff]
  constructor
  · rintro ⟨p, f, hf⟩
    exact ⟨p, f.value, f, hf, rfl⟩
  · rintro ⟨p, v, f, hf, -⟩
    exact ⟨p, f, hf⟩

theorem applyAll_upserts (l : Ledger) (fs : List Fact) :
    l.applyAll (fs.map .upsert) = l.insertAll fs := by
  rw [applyAll, List.foldl_map]
  rfl

end Ledger

/-! ## The facts of a column -/

/-- The generator of a custom generation. -/
def Generation.generator? : Generation → Option String
  | custom g => some g
  | _ => none

theorem Generation.ofFacts?_strategy (g : Generation) :
    ofFacts? g.strategy g.generator? = some g := by
  cases g with
  | increment => decide
  | uuid => decide
  | custom g =>
    rw [ofFacts?, strategy, if_neg (by decide), if_neg (by decide), if_pos rfl, generator?,
      Option.map_some]

/-- What the facts of a column say about a property. -/
def Property.valueFor (g : Option Generation) (d : Option ColumnDefault) :
    Property → Option String
  | strategy => g.map Generation.strategy
  | generator => g.bind Generation.generator?
  | default => d.map ColumnDefault.factValue

namespace Fact

theorem mem_ofGeneration {table column : String} {g : Generation} {f : Fact} :
    f ∈ ofGeneration table column g ↔ f.table = table ∧ f.column = column ∧
      f.property.valueFor (some g) none = some f.value := by
  obtain ⟨t, c, p, v⟩ := f
  cases g <;> cases p <;>
    simp [ofGeneration, Property.valueFor, Generation.strategy, Generation.generator?, eq_comm]

theorem mem_ofColumn {table column : String} {g : Option Generation} {d : Option ColumnDefault}
    {f : Fact} : f ∈ ofColumn table column g d ↔
      f.table = table ∧ f.column = column ∧ f.property.valueFor g d = some f.value := by
  have hg : f ∈ (g.map (ofGeneration table column)).getD [] ↔
      f.table = table ∧ f.column = column ∧ f.property.valueFor g none = some f.value := by
    cases g with
    | none => cases hp : f.property <;> simp [Property.valueFor]
    | some g => exact mem_ofGeneration
  have hd : f ∈ (d.map fun d ↦ (⟨table, column, .default, d.factValue⟩ : Fact)).toList ↔
      f.table = table ∧ f.column = column ∧ f.property.valueFor none d = some f.value := by
    obtain ⟨t, c, p, v⟩ := f
    cases d <;> cases p <;> simp [Property.valueFor, eq_comm]
  rw [ofColumn, List.mem_append, hg, hd]
  cases f.property <;> simp [Property.valueFor]

end Fact

section

variable {α : Type} {xs : List α} {table name : α → String}
  (h : (xs.map fun x ↦ (table x, name x)).Nodup) (g : α → Option Generation)
  (d : α → Option ColumnDefault)

include h

/-- The facts of different columns do not disagree. -/
theorem Ledger.agreeing_ofColumns :
    Agreeing (xs.flatMap fun x ↦ Fact.ofColumn (table x) (name x) (g x) (d x)) := by
  intro f hf f' hf' hkey
  obtain ⟨x, hx, hf⟩ := List.mem_flatMap.1 hf
  obtain ⟨y, hy, hf'⟩ := List.mem_flatMap.1 hf'
  obtain ⟨htable, hcolumn, hvalue⟩ := Fact.mem_ofColumn.1 hf
  obtain ⟨htable', hcolumn', hvalue'⟩ := Fact.mem_ofColumn.1 hf'
  have hkey := (FactKey.mk.injEq ..).mp hkey
  have hxy : x = y := List.inj_on_of_nodup_map h hx hy
    (Prod.ext (by rw [← htable, ← htable', hkey.1]) (by rw [← hcolumn, ← hcolumn', hkey.2.1]))
  rw [hxy, hkey.2.2, hvalue', Option.some_inj] at hvalue
  exact hvalue.symm

/-- A ledger of the facts of columns says of each what its facts say. -/
theorem Ledger.get?_ofColumns {x : α} (hx : x ∈ xs) (p : Property) :
    (ofList (xs.flatMap fun x ↦ Fact.ofColumn (table x) (name x) (g x) (d x))).get?
      ⟨table x, name x, p⟩ = p.valueFor (g x) (d x) := by
  have hagree := agreeing_ofColumns h g d
  refine Option.ext fun v ↦ ?_
  rw [get?_ofList hagree]
  constructor
  · rintro ⟨f, hf, hkey, rfl⟩
    obtain ⟨y, hy, hf⟩ := List.mem_flatMap.1 hf
    obtain ⟨htable, hcolumn, hvalue⟩ := Fact.mem_ofColumn.1 hf
    have hkey := (FactKey.mk.injEq ..).mp hkey
    have hxy : x = y := List.inj_on_of_nodup_map h hx hy
      (Prod.ext (by rw [← htable, hkey.1]) (by rw [← hcolumn, hkey.2.1]))
    rw [hxy, ← hkey.2.2]
    exact hvalue
  · exact fun hv ↦ ⟨⟨table x, name x, p, v⟩, List.mem_flatMap.2 ⟨x, hx, Fact.mem_ofColumn.2
      ⟨rfl, rfl, hv⟩⟩, rfl, rfl⟩

end

section

variable {α : Type} {xs : List α} {name : α → String} (h : (xs.map name).Nodup) (table : String)
  (g : α → Option Generation) (d : α → Option ColumnDefault)

include h

/-- Columns of one table are different if their names are. -/
theorem nodup_pairs : (xs.map fun x ↦ (table, name x)).Nodup := by
  have hpairs := h.map (Prod.mk_right_injective table)
  rwa [List.map_map] at hpairs

theorem Ledger.get?_ofColumn {x : α} (hx : x ∈ xs) (p : Property) :
    (ofList (xs.flatMap fun x ↦ Fact.ofColumn table (name x) (g x) (d x))).get?
      ⟨table, name x, p⟩ = p.valueFor (g x) (d x) :=
  get?_ofColumns (nodup_pairs h table) g d hx p

theorem Ledger.exists_of_mem_columns_ofColumn {table' column : String}
    (hc : column ∈ (ofList (xs.flatMap fun x ↦
      Fact.ofColumn table (name x) (g x) (d x))).columns table') : ∃ x ∈ xs, name x = column := by
  obtain ⟨p, v, hv⟩ := mem_columns.1 hc
  obtain ⟨f, hf, hkey, -⟩ := (get?_ofList (agreeing_ofColumns (nodup_pairs h table) g d)).1 hv
  obtain ⟨x, hx, hf⟩ := List.mem_flatMap.1 hf
  have hkey := (FactKey.mk.injEq ..).mp hkey
  exact ⟨x, hx, (Fact.mem_ofColumn.1 hf).2.1.symm.trans hkey.2.1⟩

end

/-! ## Decorating -/

namespace Ledger

/-- A column without facts stays as it is. -/
theorem decorateColumn_of_notMem {l : Ledger} {table : String} {c : Column}
    (h : c.name ∉ l.columns table) : l.decorateColumn table c = c := by
  have hnone (p : Property) : l.get? ⟨table, c.name, p⟩ = none :=
    Option.eq_none_iff_forall_ne_some.2 fun v hv ↦ h (mem_columns.2 ⟨p, v, hv⟩)
  simp only [decorateColumn, hnone, Option.bind_none, Option.map_none, Option.none_or]

theorem decorateColumn_decorateColumn (l : Ledger) (table : String) (c : Column) :
    l.decorateColumn table (l.decorateColumn table c) = l.decorateColumn table c := by
  simp only [decorateColumn]
  congr 1
  · cases (l.get? ⟨table, c.name, .default⟩).map ColumnDefault.ofExpression <;> rfl
  · cases (l.get? ⟨table, c.name, .strategy⟩).bind
      fun s ↦ Generation.ofFacts? s (l.get? ⟨table, c.name, .generator⟩) <;> rfl

/-- What a column gets from its facts. -/
theorem decorateColumn_eq {l : Ledger} {table : String} {c : Column} {g : Option Generation}
    {d : Option ColumnDefault} (h : ∀ p, l.get? ⟨table, c.name, p⟩ = p.valueFor g d) :
    l.decorateColumn table c =
      { c with
        generation := g.or c.generation
        defaultValue := (d.map fun d ↦ ColumnDefault.ofExpression d.factValue).or
          c.defaultValue } := by
  have hg : (g.map Generation.strategy).bind (fun s ↦
      Generation.ofFacts? s (g.bind Generation.generator?)) = g := by
    cases g with
    | none => rfl
    | some g => exact g.ofFacts?_strategy
  unfold decorateColumn
  simp only [h, Property.valueFor, hg, Option.map_map, Function.comp_def]

/-- Where names are distinct, every column gets its own facts. -/
theorem decorate_eq {l : Ledger} {t : Table} (h : t.columnNames.Nodup) {ignoreMissing : Bool}
    (hl : ignoreMissing = true ∨ ∀ c ∈ l.columns t.name, c ∈ t.columnNames) :
    l.decorate t ignoreMissing
      = .ok { t with columns := t.columns.map (l.decorateColumn t.name) } := by
  have hmissing : (if ignoreMissing then none else l.missingColumn? t) = none := by
    rcases hl with rfl | hl
    · rfl
    · split
      · rfl
      · exact List.find?_eq_none.2 fun c hc ↦ by simp [Table.hasColumn_iff.2 (hl c hc)]
  rw [decorate, hmissing]
  dsimp only
  rw [Table.foldl_modifyColumn h (f := l.decorateColumn t.name) (fun _ ↦ rfl)
    (decorateColumn_decorateColumn l t.name)]
  congr 2
  refine List.map_congr_left fun c _ ↦ ?_
  split
  · rfl
  · rename_i hc
    exact (decorateColumn_of_notMem hc).symm

end Ledger

end SchemaLedger
