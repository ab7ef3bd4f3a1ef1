import Mathlib
import SchemaLedger.Proofs.Column.Value
import SchemaLedger.Proofs.Reconciliation.Desired
import SchemaLedger.Proofs.Synchronization.Settled

/-!
# What entities ask for is there

After a pass that succeeds no stored fact is about a column that is not there, of the tables that
entities describe exactly the facts that they want are stored, and a cached column has the
generation and the default that its entity wants. Where the entity wants no default, the column has
the one that the dump of the database tells of.
-/

namespace SchemaLedger

/-! ## Columns of entities -/

namespace EntityColumn

/-- What is wanted as a default can be read back from its fact. -/
theorem normal_of_desiredDefault {c : EntityColumn} {d : ColumnDefault}
    (h : c.desiredDefault = some d) :
    d.Normal := by
  rw [desiredDefault] at h
  split at h
  · rw [← Option.some.inj h]
    exact ColumnDefault.normal_commitTimestamp
  · obtain ⟨text, -, rfl⟩ := Option.map_eq_some_iff.1 h
    exact ColumnDefault.normal_ofExpression text

end EntityColumn

namespace Entity

/-- The columns that entities describe, with the names of their tables. -/
def described (entities : List Entity) : List (String × EntityColumn) :=
  entities.flatMap fun e ↦ e.columns.map (e.table, ·)

/-- No column is described twice. -/
def Distinct (entities : List Entity) : Prop :=
  ((described entities).map fun p ↦ (p.1, p.2.name)).Nodup

instance (entities : List Entity) : Decidable (Distinct entities) :=
  inferInstanceAs (Decidable (List.Nodup _))

theorem mem_described {entities : List Entity} {e : Entity} (he : e ∈ entities) {c : EntityColumn}
    (hc : c ∈ e.columns) : (e.table, c) ∈ described entities :=
  List.mem_flatMap.2 ⟨e, he, List.mem_map_of_mem hc⟩

theorem desiredFacts_eq (entities : List Entity) :
    entities.flatMap desiredFacts = (described entities).flatMap fun p ↦
      Fact.ofColumn p.1 p.2.name p.2.generation p.2.desiredDefault := by
  rw [described, List.flatMap_assoc]
  refine congrArg (List.flatMap · entities) (funext fun e ↦ ?_)
  rw [desiredFacts, List.flatMap_map]

variable {entities : List Entity} (h : Distinct entities) (s : Schema)

include h

theorem agreeing_desired : Ledger.Agreeing (entities.flatMap desiredFacts) := by
  rw [desiredFacts_eq]
  exact Ledger.agreeing_ofColumns h _ _

/-- What is wanted in the end is each of the desired facts whose column is there. -/
theorem get?_wanted {f : Fact} : (wanted entities s).get? f.key = some f.value ↔
    f ∈ entities.flatMap desiredFacts ∧ f.existsIn s = true := by
  have hagree : Ledger.Agreeing ((entities.flatMap desiredFacts).filter (·.existsIn s)) :=
    fun f hf g hg ↦ agreeing_desired h f (List.mem_filter.1 hf).1 g (List.mem_filter.1 hg).1
  rw [wanted, Ledger.get?_key_ofList hagree, List.mem_filter]

theorem get?_wanted_column {table : String} {c : EntityColumn}
    (hc : (table, c) ∈ described entities)
    (hexists : ∀ p v, (⟨table, c.name, p, v⟩ : Fact).existsIn s = true) (p : Property) :
    (wanted entities s).get? ⟨table, c.name, p⟩ = p.valueFor c.generation c.desiredDefault := by
  have hdesired := Ledger.get?_ofColumns h (·.2.generation) (·.2.desiredDefault) hc p
  rw [← desiredFacts_eq] at hdesired
  rw [← hdesired]
  refine Option.ext fun v ↦ ?_
  have hwanted := get?_wanted h s (f := ⟨table, c.name, p, v⟩)
  rw [hexists p v, and_iff_left rfl] at hwanted
  exact hwanted.trans (Ledger.get?_key_ofList (agreeing_desired h)).symm

end Entity

/-! ## What is stored and cached -/

theorem Table.column?_withFacts (ledger : Ledger) (t : Table) (n : String) :
    (t.withFacts (some ledger)).column? n = (t.column? n).map (ledger.decorateColumn t.name) := by
  rw [column?, column?, withFacts, List.find?_map]
  rfl

namespace Site.Settled

variable {sideTable : String} {entities : List Entity} {ignoreMissing : Bool} {s : Site}
    {r : Schema}
  {l : Ledger} {d : Diff} (h : s.Settled sideTable entities ignoreMissing r l d)

include h

/-- Every fact that is left is about a column that is there. -/
theorem existsIn_of_mem {f : Fact} (hf : f ∈ (l.writeAll d.writes).entries) :
    f.existsIn r = true := by
  rw [Ledger.mem_entries, Diff.get?_writeAll h.diff, Option.or_eq_some_iff] at hf
  rcases hf with hf | ⟨-, hf⟩
  · exact Entity.existsIn_of_wanted hf
  · obtain ⟨-, hkept⟩ := Option.filter_eq_some_iff.1 hf
    have hkept : f.isUnwanted entities r = false := by simpa [Fact.ofKey, Fact.key] using hkept
    rw [Fact.isUnwanted, Bool.or_eq_false_iff] at hkept
    simpa using hkept.1

/-- Of the tables that entities describe, no other facts are left than those that are wanted. -/
theorem get?_of_table {k : FactKey} (hk : k.table ∈ entities.map (·.table)) :
    (l.writeAll d.writes).get? k = (Entity.wanted entities r).get? k :=
  Diff.get?_writeAll_of_entity h.diff hk

/-- A column of an entity is cached with what the entity wants of it. -/
theorem column_of_entity (hdistinct : Entity.Distinct entities) {e : Entity} (he : e ∈ entities)
    {c : EntityColumn} (hc : c ∈ e.columns) {u : Table} (hu : r[e.table]? = some u)
    (hcolumn : c.name ∈ u.columnNames) :
    ∃ k v, u.column? c.name = some k ∧ s.cache.tables[e.table]? = some v ∧
      v.column? c.name = some { k with
        generation := c.generation
        defaultValue := c.desiredDefault.or k.defaultValue } := by
  let m := l.writeAll d.writes
  obtain ⟨k, hk⟩ := Option.isSome_iff_exists.1
    ((u.isSome_column? c.name).trans (Table.hasColumn_iff.2 hcolumn))
  have hname : k.name = c.name := by simpa using List.find?_some hk
  have htable : u.name = e.table := (Database.sound_of_described h.described hu).2
  have hgeneration : k.generation = none := by
    have hstated := Database.getElem?_of_described h.holds.sound h.described e.table
    obtain ⟨t, -, rfl⟩ := Option.map_eq_some_iff.1 (hstated.symm.trans hu)
    exact Table.generation_of_mem_stated (List.mem_of_find?_eq_some hk)
  have hexists (p : Property) (v : String) : (⟨e.table, c.name, p, v⟩ : Fact).existsIn r =
      true := by
    rw [Fact.existsIn, hu, Option.any_some]
    exact Table.hasColumn_iff.2 hcolumn
  have hfacts (p : Property) :
      m.get? ⟨u.name, k.name, p⟩ = p.valueFor c.generation c.desiredDefault := by
    rw [htable, hname, h.get?_of_table (List.mem_map_of_mem he)]
    exact Entity.get?_wanted_column hdistinct r (Entity.mem_described he hc) hexists p
  have hdefault : (c.desiredDefault.map fun d ↦ ColumnDefault.ofExpression d.factValue)
      = c.desiredDefault := by
    cases hd : c.desiredDefault with
    | none => rfl
    | some d => exact congrArg some (EntityColumn.normal_of_desiredDefault hd)
  refine ⟨k, u.withFacts (some m), hk, ?_, ?_⟩
  · rw [h.cache, Std.ExtTreeMap.getElem?_map, hu]
    rfl
  · rw [Table.column?_withFacts, hk, Option.map_some, Ledger.decorateColumn_eq hfacts, hdefault,
      hgeneration, Option.or_none]

end Site.Settled

namespace Pass

/-- What a pass that succeeds has brought about: every stored fact is about a column that is there,
a cached column of an entity has what the entity wants, on top of what the dump tells of it, and of
the tables of entities exactly the wanted facts are stored whose columns are there. -/
theorem fulfilled_of_synchronize {o : PassOptions} (hdry : o.dryRun = false) {db : Database}
    (hdb : db.Reachable) (hside : ∀ t, db.tables[o.sideTable]? = some t → t.schema.IsSideTable)
    {cache : Cache} {journal : List Note} {entities : List Entity}
    (hdistinct : Entity.Distinct entities)
    {statements : List Statement} (htouched : ∀ x ∈ statements, o.sideTable ∉ x.touched)
    {ignoreMissing : Bool} {report : Report} {s : Site}
    (hok : synchronize o entities statements ignoreMissing ⟨db, cache, journal⟩ = .ok report s) :
    ∃ l r, SideTable.stored o.sideTable s.database = .ok l ∧ s.database.described = .ok r ∧
      (∀ f ∈ l.entries, f.existsIn s.database.schema = true) ∧
      (∀ e ∈ entities, ∀ c ∈ e.columns, ∀ t, s.database.tables[e.table]? = some t →
        c.name ∈ t.schema.columnNames →
          ∃ u k v, r[e.table]? = some u ∧ u.column? c.name = some k ∧
            s.cache.tables[e.table]? = some v ∧ v.column? c.name = some { k with
              generation := c.generation
              defaultValue := c.desiredDefault.or k.defaultValue }) ∧
      (∀ f : Fact, f.table ∈ entities.map (·.table) →
        (f ∈ l.entries ↔
          f ∈ entities.flatMap Entity.desiredFacts ∧ f.existsIn s.database.schema = true)) := by
  obtain ⟨r, l, d, h⟩ := settled_of_synchronize hdry hdb.sound hside htouched hok
  have hexists (f : Fact) : f.existsIn r = f.existsIn s.database.schema :=
    f.existsIn_of_described h.holds.sound h.described
  refine ⟨l.writeAll d.writes, r, h.holds.stored, h.described, fun f hf ↦ ?_, ?_, fun f hf ↦ ?_⟩
  · rw [← hexists]
    exact h.existsIn_of_mem hf
  · intro e he c hc t ht hcolumn
    have hu : r[e.table]? = some t.schema.stated := by
      rw [Database.getElem?_of_described h.holds.sound h.described, ht, Option.map_some]
    rw [← Table.columnNames_stated] at hcolumn
    obtain ⟨k, v, hk, hv, hcached⟩ := h.column_of_entity hdistinct he hc hu hcolumn
    exact ⟨t.schema.stated, k, v, hu, hk, hv, hcached⟩
  · rw [Ledger.mem_entries, h.get?_of_table (k := f.key) hf, Entity.get?_wanted hdistinct, hexists]

theorem shelves_fulfilled :
    ∃ report s l r,
      synchronize shelfOptions shelfEntities [shelves] false shelfSite = .ok report s ∧
      SideTable.stored shelfOptions.sideTable s.database = .ok l ∧ s.database.described = .ok r ∧
      (∀ f ∈ l.entries, f.existsIn s.database.schema = true) ∧
      (∀ e ∈ shelfEntities, ∀ c ∈ e.columns, ∀ t, s.database.tables[e.table]? = some t →
        c.name ∈ t.schema.columnNames →
          ∃ u k v, r[e.table]? = some u ∧ u.column? c.name = some k ∧
            s.cache.tables[e.table]? = some v ∧ v.column? c.name = some { k with
              generation := c.generation
              defaultValue := c.desiredDefault.or k.defaultValue }) ∧
      (∀ f : Fact, f.table ∈ shelfEntities.map (·.table) →
        (f ∈ l.entries ↔
          f ∈ shelfEntities.flatMap Entity.desiredFacts ∧
          f.existsIn s.database.schema = true)) := by
  obtain ⟨report, hreport, -⟩ := map_eq_ok shelves_synchronize
  obtain ⟨s, hok⟩ := exists_of_value hreport
  have hdistinct : Entity.Distinct shelfEntities := by decide
  have htouched : ∀ x ∈ [shelves], shelfOptions.sideTable ∉ x.touched := by decide
  obtain ⟨l, r, h⟩ :=
    fulfilled_of_synchronize rfl .empty isSideTable_of_shelfSite hdistinct htouched hok
  exact ⟨report, s, l, r, hok, h⟩

end Pass

end SchemaLedger
