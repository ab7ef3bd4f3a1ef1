import Mathlib
import SchemaLedger.Proofs.Lowering.Names

/-!
# Statements and the steps that go with them

Lowering makes two lists, of statements for the database and of steps for the ledger, and the two do
not have one member each for a statement. `Mirrors` cuts them into pieces that belong together. In
each piece the steps do to the facts of columns what the statements do to the columns: they store no
facts about columns that the statements do not make, and forget those about columns that go.
-/

namespace SchemaLedger

/-- Only timestamps hold the commit timestamp. -/
def ColumnClause.Timed (c : ColumnClause) : Prop := c.commitTimestamp = true → c.type = .timestamp

/-- Steps of a ledger belong to statements of a database. Statements that leave a table alone if it
is there already may or may not be among them. -/
inductive Mirrors (lenient : Prop) : List Ddl → Delta → Prop
  | nil : Mirrors lenient [] []
  | createTable (table : String) (ifNotExists : Bool) {columns : List ColumnClause}
    {key : List KeyPart}
      (interleaves : List Interleave) {facts : List Fact} (allowed : ifNotExists = true → lenient)
      (declaresKey : ∀ p ∈ key, p.name ∈ columns.map (·.name)) (timed : ∀ c ∈ columns, c.Timed)
      (about : ∀ f ∈ facts, f.table = table ∧ f.column ∈ columns.map (·.name)) :
      Mirrors lenient [.createTable table ifNotExists columns key interleaves] (facts.map .upsert)
  | createIndex {i : Index} (columns : i.columns ≠ []) : Mirrors lenient [.createIndex i] []
  | dropIndex (name : String) : Mirrors lenient [.dropIndex name] []
  | addColumn (table : String) {c : ColumnClause} {facts : List Fact} (timed : c.Timed)
      (about : ∀ f ∈ facts, f.table = table ∧ f.column = c.name) :
      Mirrors lenient [.addColumn table c] (facts.map .upsert)
  | dropColumn (table column : String) :
      Mirrors lenient [.dropColumn table column] [.removeColumn table column]
  | alterColumn (table : String) {c : ColumnClause} {facts : List Fact} (timed : c.Timed)
      (about : ∀ f ∈ facts, f.table = table ∧ f.column = c.name) :
      Mirrors lenient (.alterColumn table c ::
          if c.commitTimestamp then [.allowCommitTimestamp table c.name] else [])
        (.removeColumn table c.name :: facts.map .upsert)
  | renameTable (old new : String) : Mirrors lenient [.renameTable old new] [.renameTable old new]
  | dropTable (table : String) (ifExists : Bool) :
      Mirrors lenient [.dropTable table ifExists] [.removeTable table]
  | append {ds ds' : List Ddl} {delta delta' : Delta} :
      Mirrors lenient ds delta → Mirrors lenient ds' delta' →
      Mirrors lenient (ds ++ ds') (delta ++ delta')

namespace Mirrors

variable {lenient : Prop}

/-- Without statements there are no steps. -/
theorem eq_nil {ds : List Ddl} {delta : Delta} (h : Mirrors lenient ds delta) (hds : ds = []) :
    delta = [] := by
  induction h with
  | nil => rfl
  | append _ _ ih ih' =>
    obtain ⟨hds, hds'⟩ := List.append_eq_nil_iff.1 hds
    rw [ih hds, ih' hds', List.append_nil]
  | _ => contradiction

theorem flatMap {α : Type} {xs : List α} {f : α → List Ddl} {g : α → Delta}
    (h : ∀ x ∈ xs, Mirrors lenient (f x) (g x)) :
    Mirrors lenient (xs.flatMap f) (xs.flatMap g) := by
  induction xs with
  | nil => exact .nil
  | cons x xs ih =>
    exact .append (h x List.mem_cons_self) (ih fun y hy ↦ h y (List.mem_cons_of_mem x hy))

theorem map {α : Type} {xs : List α} {f : α → Ddl} {g : α → Change}
    (h : ∀ x ∈ xs, Mirrors lenient [f x] [g x]) : Mirrors lenient (xs.map f) (xs.map g) := by
  rw [List.map_eq_flatMap, List.map_eq_flatMap]
  exact flatMap h

/-- Indices may be created behind the statements. -/
theorem indexed {ds : List Ddl} {delta : Delta} (h : Mirrors lenient ds delta) {is : List Index}
    (his : ∀ i ∈ is, i.columns ≠ []) : Mirrors lenient (ds ++ is.map .createIndex) delta := by
  induction is generalizing ds with
  | nil =>
    rw [List.map_nil, List.append_nil]
    exact h
  | cons i is ih =>
    have hi : Mirrors lenient (ds ++ [.createIndex i]) delta := by
      have happend := h.append (.createIndex (his i List.mem_cons_self))
      rwa [List.append_nil] at happend
    have hrest := ih hi fun j hj ↦ his j (List.mem_cons_of_mem i hj)
    rwa [List.append_assoc] at hrest

end Mirrors

/-! ## Lowering -/

variable {lenient : Prop}

theorem ColumnDef.timed_of_lower {table : String} {c : ColumnDef} {x : LoweredColumn}
    (h : c.lower table = .ok x) : x.clause.Timed := by
  intro htimestamp
  have hmeant := (of_lower h).2
  rw [hmeant.commitTimestamp_clause, beq_iff_eq] at htimestamp
  exact hmeant.timed htimestamp

/-- The facts of a lowered column are about it. -/
theorem LoweredColumn.about_facts {x : LoweredColumn} (h : x.Meant) (table : String) :
    ∀ f ∈ x.facts table, f.table = table ∧ f.column = x.clause.name := by
  intro f hf
  obtain ⟨htable, hcolumn, -⟩ := Fact.mem_ofColumn.1 hf
  exact ⟨htable, hcolumn.trans h.name_clause.symm⟩

theorem CreateTable.mirrors_of_lower {c : CreateTable} {l : Lowered} (h : c.lower = .ok l)
    (hlenient : c.ifNotExists = true → lenient) : Mirrors lenient l.ddl l.delta := by
  obtain ⟨table, columns, key, hmeant⟩ := exists_of_lower h
  have htimed : ∀ x ∈ columns.map (·.clause), x.Timed := by
    intro x hx
    obtain ⟨column, hcolumn, rfl⟩ := List.mem_map.1 hx
    intro htimestamp
    rw [(hmeant.meant column hcolumn).commitTimestamp_clause, beq_iff_eq] at htimestamp
    exact (hmeant.meant column hcolumn).timed htimestamp
  have habout : ∀ f ∈ columns.flatMap (LoweredColumn.facts c.table),
      f.table = c.table ∧ f.column ∈ (columns.map (·.clause)).map (·.name) := by
    intro f hf
    obtain ⟨column, hcolumn, hf⟩ := List.mem_flatMap.1 hf
    obtain ⟨htable, hname⟩ := LoweredColumn.about_facts (hmeant.meant column hcolumn) _ f hf
    exact ⟨htable, hname ▸ List.mem_map_of_mem (List.mem_map_of_mem hcolumn)⟩
  have htable : Mirrors lenient _ _ :=
    .createTable c.table c.ifNotExists (TableOption.interleaves c.options) hlenient
      hmeant.declares_key htimed habout
  rw [hmeant.ddl, hmeant.delta]
  exact htable.indexed hmeant.indexes

namespace AlterAction

theorem mirrors_of_lower {table : String} {a : AlterAction} {x : LoweredAction}
    (h : a.lower table = .ok x) :
    Mirrors lenient x.ddl x.delta ∧ ∀ i ∈ x.indices, i.columns ≠ [] := by
  cases a with
  | addColumn c =>
    obtain ⟨column, hcolumn, hddl, hdelta, hindices⟩ := addColumn_eq_ok h
    refine ⟨?_, fun i hi ↦ (IndexDef.of_lower (hindices i hi)).2.1⟩
    rw [hddl, hdelta]
    exact .addColumn table (ColumnDef.timed_of_lower hcolumn)
      (LoweredColumn.about_facts (ColumnDef.of_lower hcolumn).2 table)
  | dropColumn column =>
    obtain rfl := Except.ok.inj h
    exact ⟨.dropColumn table column, fun i hi ↦ absurd hi List.not_mem_nil⟩
  | changeColumn old c =>
    obtain ⟨column, hcolumn, hddl, hdelta, hindices⟩ := changeColumn_eq_ok h
    refine ⟨?_, fun i hi ↦ absurd (hindices ▸ hi) List.not_mem_nil⟩
    rw [hddl, hdelta, ← ColumnDef.name_of_lower hcolumn]
    exact .alterColumn table (ColumnDef.timed_of_lower hcolumn)
      (LoweredColumn.about_facts (ColumnDef.of_lower hcolumn).2 table)
  | addIndex i | addSpatialIndex i | addUniqueKey i =>
    obtain ⟨j, hj, h⟩ := bind_eq_ok h
    obtain rfl := Except.ok.inj h
    exact ⟨.nil, fun k hk ↦ List.mem_singleton.1 hk ▸ (IndexDef.of_lower hj).2.1⟩
  | dropIndex name =>
    obtain rfl := Except.ok.inj h
    exact ⟨.dropIndex name, fun i hi ↦ absurd hi List.not_mem_nil⟩
  | addForeignKey key => contradiction
  | addPrimaryKey columns => contradiction

end AlterAction

theorem AlterTable.mirrors_of_lower {a : AlterTable} {l : Lowered} (h : a.lower = .ok l) :
    Mirrors lenient l.ddl l.delta := by
  obtain ⟨actions, hactions, h⟩ := bind_eq_ok h
  obtain rfl := Except.ok.inj h
  have haction {x : LoweredAction} (hx : x ∈ actions) :
      Mirrors lenient x.ddl x.delta ∧ ∀ i ∈ x.indices, i.columns ≠ [] := by
    obtain ⟨action, -, hlower⟩ := exists_of_mem_mapM hactions hx
    exact AlterAction.mirrors_of_lower hlower
  refine .indexed (.flatMap fun x hx ↦ (haction hx).1) fun i hi ↦ ?_
  obtain ⟨x, hx, hi⟩ := List.mem_flatMap.1 hi
  exact (haction hx).2 i hi

namespace Statement

theorem mirrors_of_lower {s : Statement} {l : Lowered} (h : s.lower = .ok l)
    (hlenient : ∀ c, s = .createTable c → c.ifNotExists = true → lenient) :
    Mirrors lenient l.ddl l.delta := by
  cases s with
  | createTable c => exact CreateTable.mirrors_of_lower h (hlenient c rfl)
  | alterTable a => exact AlterTable.mirrors_of_lower h
  | createIndex c =>
    obtain ⟨i, hi, h⟩ := bind_eq_ok h
    obtain rfl := Except.ok.inj h
    exact .createIndex (IndexDef.of_lower hi).2.1
  | dropIndex name table =>
    obtain rfl := Except.ok.inj h
    exact .dropIndex name
  | renameTable renames =>
    obtain rfl := Except.ok.inj h
    exact .map fun r _ ↦ .renameTable r.old r.new
  | dropTable tables ifExists =>
    obtain rfl := Except.ok.inj h
    exact .map fun t _ ↦ .dropTable t ifExists

/-- What a batch becomes can be cut into pieces that belong together. -/
theorem mirrors_of_lowerAll {statements : List Statement} {l : Lowered}
    (h : lowerAll statements = .ok l)
    (hlenient : ∀ c, .createTable c ∈ statements → c.ifNotExists = true → lenient) :
    Mirrors lenient l.ddl l.delta := by
  obtain ⟨ls, hls, rfl⟩ := map_eq_ok h
  refine .flatMap fun x hx ↦ ?_
  obtain ⟨s, hs, hlower⟩ := exists_of_mem_mapM hls hx
  exact mirrors_of_lower hlower fun c hc ↦ hlenient c (hc ▸ hs)

end Statement

end SchemaLedger
