import Mathlib
import SchemaLedger.Proofs.Fact.Frame
import SchemaLedger.Proofs.Lowering.Draft
import SchemaLedger.Proofs.Synchronization.Entities

/-!
# Facts that come back

The facts of a column go a long way round: they are stored as rows, the rows are loaded with all
others, the table that the database tells of is decorated with them, and from the decorated column
facts are derived again. The way can be gone any number of times, and what is stored in the end is
compared with what was derived in the beginning.

What the facts say of a generation always comes back. A default comes back as the default that its
text stands for, so the text has to be one that stands for itself (`ColumnDefault.IsFixed`).
Whatever has been read as an expression is such a text, and so is what a statement spells, numbers
apart, which are taken as they are.

A single round is an equation (`KeptColumn.derived_ofColumn`), and `KeptColumn.exists_cycles` is the
invariant of all rounds.
-/

namespace SchemaLedger

/-! ## Texts that stand for themselves -/

namespace ColumnDefault

/-- The default that the text stands for is kept under the text itself. -/
def IsFixed (text : String) : Prop := (ofExpression text).factValue = text

instance : DecidablePred IsFixed := fun _ ↦ inferInstanceAs (Decidable (_ = _))

theorem Normal.isFixed {d : ColumnDefault} (h : d.Normal) : IsFixed d.factValue :=
  congrArg factValue h

end ColumnDefault

/-- A default that a statement spells comes back, unless it is a number that stands for something
else. -/
theorem DefaultExpr.isFixed_iff {e : DefaultExpr} {d : ColumnDefault} (h : e.value? = some d) :
    ColumnDefault.IsFixed d.factValue ↔ ∀ text, e = .number text → ColumnDefault.IsFixed text := by
  constructor
  · rintro hfixed text rfl
    obtain rfl := Option.some.inj h
    exact hfixed
  · intro hnumber
    cases e with
    | number text =>
      obtain rfl := Option.some.inj h
      exact hnumber text rfl
    | null => contradiction
    | literal | bool | currentTimestamp | expression =>
      exact (normal_of_value? (fun _ ht ↦ DefaultExpr.noConfusion ht) h).isFixed

/-! ## Facts of one column -/

namespace Fact

theorem agreeing_ofColumn (table column : String) (g : Option Generation)
    (d : Option ColumnDefault) :
    Ledger.Agreeing (ofColumn table column g d) := by
  intro f hf f' hf' hkey
  obtain ⟨-, -, hvalue⟩ := mem_ofColumn.1 hf
  obtain ⟨-, -, hvalue'⟩ := mem_ofColumn.1 hf'
  rw [((FactKey.mk.injEq ..).mp hkey).2.2, hvalue', Option.some_inj] at hvalue
  exact hvalue.symm

/-- Facts of a column are there again if nothing else is said of a property that they tell of. -/
theorem ofColumn_subset {table column : String} {g g' : Option Generation}
    {d d' : Option ColumnDefault}
    (hg : ∀ x ∈ g, g' = some x) (hd : ∀ x ∈ d, d'.map ColumnDefault.factValue = some x.factValue) :
    ofColumn table column g d ⊆ ofColumn table column g' d' := by
  intro f hf
  obtain ⟨htable, hcolumn, hvalue⟩ := mem_ofColumn.1 hf
  refine mem_ofColumn.2 ⟨htable, hcolumn, ?_⟩
  cases hp : f.property with
  | strategy =>
    rw [hp, Property.valueFor, Option.map_eq_some_iff] at hvalue
    obtain ⟨x, hx, hvalue⟩ := hvalue
    rw [Property.valueFor, hg x hx, Option.map_some, hvalue]
  | generator =>
    rw [hp, Property.valueFor, Option.bind_eq_some_iff] at hvalue
    obtain ⟨x, hx, hvalue⟩ := hvalue
    rw [Property.valueFor, hg x hx, Option.bind_some, hvalue]
  | default =>
    rw [hp, Property.valueFor, Option.map_eq_some_iff] at hvalue
    obtain ⟨x, hx, hvalue⟩ := hvalue
    rw [Property.valueFor, hd x hx, hvalue]

/-- The facts hold a default by its text. -/
theorem ofColumn_congr (table column : String) (g : Option Generation) {d d' : Option ColumnDefault}
    (h : d.map ColumnDefault.factValue = d'.map ColumnDefault.factValue) :
    ofColumn table column g d = ofColumn table column g d' := by
  have hmap (d : Option ColumnDefault) :
      d.map (fun d ↦ (⟨table, column, .default, d.factValue⟩ : Fact))
      = (d.map ColumnDefault.factValue).map fun v ↦ ⟨table, column, .default, v⟩ := by
    rw [Option.map_map]
    rfl
  rw [ofColumn, ofColumn, hmap, hmap, h]

end Fact

theorem SideTable.readRows_cells (sideTable : String) (facts : List Fact) :
    readRows sideTable (facts.map cells) = .ok (.ofList facts) := by
  have hrows : (facts.map cells).mapM (readRow sideTable) = .ok (facts.map some) :=
    mapM_ok fun f _ ↦ readRow_cells sideTable f
  rw [readRows, hrows]
  change Except.ok (Ledger.ofList ((facts.map some).filterMap id)) = _
  rw [List.filterMap_map, Function.id_comp, List.filterMap_some]

/-! ## The way round -/

/-- A column whose facts are kept, in the table as the database tells of it, and the facts about
other columns that the side table holds besides. -/
structure KeptColumn where
  sideTable : String
  table : Table
  column : Column
  others : List Fact
  ignoreMissing : Bool
  distinct : table.columnNames.Nodup
  mem : column ∈ table.columns
  apart : ∀ f ∈ others, f.table = table.name → f.column ≠ column.name
  present : ignoreMissing = true ∨ ∀ f ∈ others, f.table = table.name → f.column ∈ table.columnNames

namespace KeptColumn

variable (k : KeptColumn)

/-- The facts of the column, given its generation and its default. -/
def facts (g : Option Generation) (d : Option ColumnDefault) : List Fact :=
  Fact.ofColumn k.table.name k.column.name g d

/-- The table after the facts have been stored as rows and all rows have been loaded and laid over
it. -/
def decorated (facts : List Fact) : Except PassError Table := do
  let l ← SideTable.readRows k.sideTable ((k.others ++ facts).map SideTable.cells)
  (l.decorate k.table k.ignoreMissing).mapError .schema

/-- The facts that are derived of the column in the decorated table. -/
def derived (facts : List Fact) : Except PassError (List Fact) := do
  let t ← k.decorated facts
  return ((t.column? k.column.name).map fun c ↦
    Fact.ofColumn t.name c.name c.generation c.defaultValue).getD []

/-- What has become of the facts after a number of rounds. -/
def cycles : Nat → List Fact → Except PassError (List Fact)
  | 0, facts => .ok facts
  | n + 1, facts => k.derived facts >>= cycles n

/-- After any number of rounds the facts are there as they were. Others can only have joined them if
the column has a generation or a default of its own. -/
def Returns (facts : List Fact) : Prop :=
  ∀ n, ∃ fs, k.cycles n facts = .ok fs ∧ facts ⊆ fs ∧
    (k.column.generation = none → k.column.defaultValue = none → fs = facts)

/-- The column with what its facts say of it. -/
def decoratedColumn (g : Option Generation) (d : Option ColumnDefault) : Column :=
  { k.column with
    generation := g.or k.column.generation
    defaultValue :=
      (d.map fun d ↦ ColumnDefault.ofExpression d.factValue).or k.column.defaultValue }

/-! ### One round -/

variable (g : Option Generation) (d : Option ColumnDefault)

theorem get?_ofList (p : Property) :
    (Ledger.ofList (k.others ++ k.facts g d)).get? ⟨k.table.name, k.column.name, p⟩ =
      p.valueFor g d := by
  have hothers : ∀ f ∈ k.others, f.key ≠ ⟨k.table.name, k.column.name, p⟩ := by
    intro f hf hkey
    obtain ⟨htable, hcolumn, -⟩ := (FactKey.mk.injEq ..).mp hkey
    exact k.apart f hf htable hcolumn
  rw [Ledger.ofList, Ledger.insertAll_append]
  cases hvalue : p.valueFor g d with
  | some v =>
    have hmem : (⟨k.table.name, k.column.name, p, v⟩ : Fact) ∈ k.facts g d :=
      Fact.mem_ofColumn.2 ⟨rfl, rfl, hvalue⟩
    exact Ledger.get?_insertAll_of_mem (Fact.agreeing_ofColumn _ _ g d) hmem
  | none =>
    have hfacts : ∀ f ∈ k.facts g d, f.key ≠ ⟨k.table.name, k.column.name, p⟩ := by
      intro f hf hkey
      obtain ⟨-, -, hf⟩ := Fact.mem_ofColumn.1 hf
      rw [((FactKey.mk.injEq ..).mp hkey).2.2, hvalue] at hf
      contradiction
    rw [Ledger.get?_insertAll_of_forall_ne hfacts, Ledger.get?_insertAll_of_forall_ne hothers,
      Ledger.get?_empty]

theorem columns_ofList : k.ignoreMissing = true ∨
    ∀ c ∈ (Ledger.ofList (k.others ++ k.facts g d)).columns k.table.name,
      c ∈ k.table.columnNames := by
  refine k.present.imp_right fun hpresent c hc ↦ ?_
  obtain ⟨p, v, hv⟩ := Ledger.mem_columns.1 hc
  -- A value that is found has been stored, with the others or with the facts of the column.
  obtain ⟨f, hf, hkey⟩ : ∃ f ∈ k.others ++ k.facts g d, f.key = ⟨k.table.name, c, p⟩ := by
    by_contra hnone
    rw [Ledger.ofList, Ledger.get?_insertAll_of_forall_ne fun f hf hkey ↦ hnone ⟨f, hf, hkey⟩,
      Ledger.get?_empty] at hv
    contradiction
  obtain ⟨htable, rfl, -⟩ := (FactKey.mk.injEq ..).mp hkey
  rcases List.mem_append.1 hf with hf | hf
  · exact hpresent f hf htable
  · rw [(Fact.mem_ofColumn.1 hf).2.1]
    exact List.mem_map_of_mem k.mem

/-- The decorated table has the column with what its facts say of it. -/
theorem exists_decorated : ∃ t, k.decorated (k.facts g d) = .ok t ∧ t.name = k.table.name ∧
    t.column? k.column.name = some (k.decoratedColumn g d) := by
  let l := Ledger.ofList (k.others ++ k.facts g d)
  have hfind : k.table.column? k.column.name = some k.column := by
    rw [Table.column?, List.find?_eq_some_iff_append]
    obtain ⟨u, v, huv⟩ := List.append_of_mem k.mem
    refine ⟨beq_self_eq_true _, u, v, huv, fun c hc ↦ ?_⟩
    have hdistinct := k.distinct
    rw [Table.columnNames, huv, List.map_append, List.map_cons, List.nodup_append] at hdistinct
    simpa using hdistinct.2.2 c.name (List.mem_map_of_mem hc) k.column.name List.mem_cons_self
  refine ⟨{ k.table with columns := k.table.columns.map (l.decorateColumn k.table.name) }, ?_,
    rfl, ?_⟩
  · rw [decorated, SideTable.readRows_cells, ok_bind,
      Ledger.decorate_eq k.distinct (k.columns_ofList g d)]
    rfl
  · have hcolumn : l.decorateColumn k.table.name k.column = k.decoratedColumn g d :=
      Ledger.decorateColumn_eq (k.get?_ofList g d)
    rw [← hcolumn, Table.column?, List.find?_map]
    exact congrArg (Option.map _) hfind

theorem derived_ofColumn : k.derived (k.facts g d)
    = .ok (k.facts (k.decoratedColumn g d).generation (k.decoratedColumn g d).defaultValue) := by
  obtain ⟨t, ht, hname, hcolumn⟩ := k.exists_decorated g d
  rw [derived, ht, ok_bind, hcolumn, hname]
  rfl

/-! ### Any number of rounds -/

/-- What the facts say of a generation stays, and what they say of a default stays if its text
stands for itself. Where the column has nothing of its own, nothing is added. -/
theorem exists_cycles (n : Nat) : ∃ g' d', k.cycles n (k.facts g d) = .ok (k.facts g' d') ∧
    (∀ x ∈ g, g' = some x) ∧
    (∀ x ∈ d, ColumnDefault.IsFixed x.factValue →
      d'.map ColumnDefault.factValue = some x.factValue) ∧
    (k.column.generation = none → g' = g) ∧
    (k.column.defaultValue = none → d = none → d' = none) := by
  -- After one round the facts are those of the decorated column, from which the other rounds start.
  induction n generalizing g d with
  | zero =>
    exact ⟨g, d, rfl, fun x hx ↦ hx,
      fun x hx _ ↦ by rw [Option.mem_def.1 hx, Option.map_some], fun _ ↦ rfl, fun _ hd ↦ hd⟩
  | succ n ih =>
    obtain ⟨g', d', hcycles, hg, hd, hg', hd'⟩ :=
      ih (k.decoratedColumn g d).generation (k.decoratedColumn g d).defaultValue
    refine ⟨g', d', ?_, fun x hx ↦ hg x ?_, fun x hx hfixed ↦ ?_, fun hnone ↦ ?_,
      fun hnone hdnone ↦ hd' hnone ?_⟩
    · rw [cycles, derived_ofColumn, ok_bind, hcycles]
    · rw [decoratedColumn, Option.mem_def.1 hx]
      rfl
    · have hmem :
          ColumnDefault.ofExpression x.factValue ∈ (k.decoratedColumn g d).defaultValue := by
        rw [decoratedColumn, Option.mem_def.1 hx]
        rfl
      have hvalue : (ColumnDefault.ofExpression x.factValue).factValue = x.factValue := hfixed
      rw [← hvalue]
      exact hd _ hmem (by rw [hvalue]; exact hfixed)
    · rw [hg' hnone, decoratedColumn, hnone, Option.or_none]
    · rw [decoratedColumn, hdnone, hnone]
      rfl

/-- The facts of a column come back exactly if the text of the default stands for itself. -/
theorem returns_iff : k.Returns (k.facts g d) ↔ ∀ x ∈ d, ColumnDefault.IsFixed x.factValue := by
  constructor
  · -- A text that does not stand for itself has changed after the first round.
    intro h x hx
    obtain ⟨fs, hfs, hsubset, -⟩ := h 1
    have hone : k.cycles 1 (k.facts g d)
        = .ok (k.facts (k.decoratedColumn g d).generation
          (k.decoratedColumn g d).defaultValue) := by
      rw [cycles, derived_ofColumn]
      rfl
    obtain rfl := Except.ok.inj (hfs.symm.trans hone)
    have hfact : (⟨k.table.name, k.column.name, .default, x.factValue⟩ : Fact) ∈ k.facts g d := by
      refine Fact.mem_ofColumn.2 ⟨rfl, rfl, ?_⟩
      rw [Property.valueFor, Option.mem_def.1 hx, Option.map_some]
    obtain ⟨-, -, hvalue⟩ := Fact.mem_ofColumn.1 (hsubset hfact)
    rw [Property.valueFor, decoratedColumn, Option.mem_def.1 hx] at hvalue
    exact Option.some.inj hvalue
  · intro hfixed n
    obtain ⟨g', d', hcycles, hg, hd, hg', hd'⟩ := k.exists_cycles g d n
    refine ⟨_, hcycles, Fact.ofColumn_subset hg fun x hx ↦ hd x hx (hfixed x hx),
      fun hgnone hdnone ↦ ?_⟩
    rw [hg' hgnone]
    refine Fact.ofColumn_congr _ _ _ ?_
    cases d with
    | none => rw [hd' hdnone rfl]
    | some x => exact hd x rfl (hfixed x rfl)

end KeptColumn

/-! ## Facts of entities and of statements -/

/-- What a column of a statement ends up with comes back, unless it is a number that stands for
something else. -/
theorem LoweredColumn.isFixed_iff {table : String} {c : ColumnDef} {x : LoweredColumn}
    (h : c.lower table = .ok x) :
    (∀ d ∈ x.defaultValue, ColumnDefault.IsFixed d.factValue) ↔
      ∀ text, c.defaultExpr = some (.number text) → x.defaultValue = some (.expression text) →
        ColumnDefault.IsFixed text := by
  obtain ⟨rfl, hmeant⟩ := ColumnDef.of_lower h
  constructor
  · exact fun hfixed text _ hvalue ↦ hfixed (.expression text) hvalue
  · intro hnumber d hd
    have hresolve := hmeant.resolveDefault_eq.trans hd
    rw [ColumnDef.resolveDefault] at hresolve
    cases hupdate : x.source.onUpdate.bind DefaultExpr.value? with
    | some v =>
      rw [hupdate, Option.some_or, Option.some_inj] at hresolve
      rw [← hresolve, hmeant.onUpdate v hupdate]
      exact ColumnDefault.normal_commitTimestamp.isFixed
    | none =>
      rw [hupdate, Option.none_or, Option.bind_eq_some_iff] at hresolve
      obtain ⟨e, he, hv⟩ := hresolve
      refine (DefaultExpr.isFixed_iff hv).2 fun text htext ↦ hnumber text (htext ▸ he) ?_
      subst htext
      rw [Option.mem_def.1 hd, ← hv]
      rfl

/-- Reading an expression and keeping what it stands for changes nothing more after the first time.
So facts that are derived from an entity come back from every number of rounds. Facts that are
derived from a statement do so exactly if a number that became the default stands for itself, as
every numeral does. -/
theorem KeptColumn.facts_return (k : KeptColumn) :
    (∀ text, ColumnDefault.ofExpression (ColumnDefault.ofExpression text).factValue
      = ColumnDefault.ofExpression text) ∧
    (∀ e : EntityColumn, e.name = k.column.name →
      k.Returns (Fact.ofColumn k.table.name e.name e.generation e.desiredDefault)) ∧
    (∀ (c : ColumnDef) (x : LoweredColumn), c.name = k.column.name → c.lower k.table.name = .ok x →
      (k.Returns (x.facts k.table.name) ↔
        ∀ text, c.defaultExpr = some (.number text) → x.defaultValue = some (.expression text) →
          ColumnDefault.IsFixed text)) ∧
    ∀ text, IsNumeric text → ColumnDefault.IsFixed text := by
  refine ⟨ColumnDefault.normal_ofExpression, fun e he ↦ ?_, fun c x hc hx ↦ ?_,
    fun text h ↦ (DefaultExpr.normal_number h).isFixed⟩
  · rw [he]
    exact (k.returns_iff _ _).2 fun d hd ↦ (EntityColumn.normal_of_desiredDefault hd).isFixed
  · have hsource : x.source.name = k.column.name := by rw [(ColumnDef.of_lower hx).1, hc]
    rw [LoweredColumn.facts, hsource, ← LoweredColumn.isFixed_iff hx]
    exact k.returns_iff _ _

/-- The weight of crates, beside another column that has facts and one that is gone. -/
def crateWeight : KeptColumn where
  sideTable := "facts"
  table :=
    { name := "crate",
      columns := [{ name := "id", type := .string }, { name := "weight", type := .int64 }] }
  column := { name := "weight", type := .int64 }
  others := [⟨"crate", "id", .strategy, "uuid"⟩, ⟨"crate", "colour", .default, "'red'"⟩]
  ignoreMissing := true
  distinct := by decide
  mem := by decide
  apart := by decide
  present := Or.inl rfl

theorem crateWeight_facts_return :
    let e : EntityColumn :=
      { name := "weight", generation := some (.custom "scales"),
        defaultText := some " f('now()') " }
    let c : ColumnDef :=
      { name := "weight", dataType := ⟨"int", none, false⟩, defaultExpr := some (.number "-1e3") }
    e.name = crateWeight.column.name ∧
      crateWeight.Returns
        (Fact.ofColumn "crate" "weight" (some (.custom "scales")) e.desiredDefault) ∧
      IsNumeric "-1e3" ∧ ∃ x, c.lower "crate" = .ok x ∧ crateWeight.Returns (x.facts "crate") := by
  intro e c
  obtain ⟨-, hentity, hstatement, hnumeric⟩ := crateWeight.facts_return
  have hnumeral : IsNumeric "-1e3" := ⟨by decide, by decide⟩
  obtain ⟨x, hx⟩ : ∃ x, c.lower "crate" = .ok x :=
    (ColumnDef.exists_lower_iff "crate").2 (by decide +kernel)
  refine ⟨rfl, hentity e rfl, hnumeral, x, hx, (hstatement c x rfl hx).2 fun text htext _ ↦ ?_⟩
  obtain rfl := DefaultExpr.number.inj (Option.some.inj htext)
  exact hnumeric _ hnumeral

/-- A number that is not trimmed loses its blanks on the way. -/
theorem padded_number_changes :
    let c : ColumnDef :=
      { name := "weight", dataType := ⟨"int", none, false⟩, defaultExpr := some (.number " 1 ") }
    ∃ x, c.lower "crate" = .ok x ∧ x.facts "crate" = [⟨"crate", "weight", .default, " 1 "⟩] ∧
      crateWeight.cycles 1 (x.facts "crate") = .ok [⟨"crate", "weight", .default, "1"⟩] ∧
      ¬crateWeight.Returns (x.facts "crate") := by
  intro c
  obtain ⟨x, hx⟩ : ∃ x, c.lower "crate" = .ok x :=
    (ColumnDef.exists_lower_iff "crate").2 (by decide +kernel)
  obtain ⟨hsource, hmeant⟩ := ColumnDef.of_lower hx
  have hfacts : x.facts "crate" = crateWeight.facts none (some (.expression " 1 ")) := by
    rw [LoweredColumn.facts, ← hmeant.resolveDefault_eq, hsource]
    rfl
  refine ⟨x, hx, ?_⟩
  rw [hfacts]
  refine ⟨rfl, ?_, fun hreturns ↦ ?_⟩
  · rw [KeptColumn.cycles, KeptColumn.derived_ofColumn]
    decide
  · exact absurd ((crateWeight.returns_iff _ _).1 hreturns _ rfl) (by decide)

end SchemaLedger
