import Mathlib
import SchemaLedger.Proofs.Reconciliation.Diff

/-!
# The difference of entities is exact

Comparing entities with a ledger yields additions and removals. Carried out in whatever order, they
lead to the ledger in which a table with an entity has the desired facts and no others, and every
other table has what it had, less the facts of columns that are gone. They are also no more than is
needed: nothing is written that is stored already, nothing is deleted that is not stored, and no key
is written twice.

Two entities may want different values under one key. The later one in the list wins, and this is
said by `Fact.latest?` on the list itself, before any ledger is made of it.
-/

namespace SchemaLedger

/-- What a list of facts says last about a key. -/
def Fact.latest? (fs : List Fact) (k : FactKey) : Option String :=
  (fs.findRev? fun f ↦ f.key = k).map (·.value)

namespace Ledger

/-- Facts stored one after another replace what is there, and each other. -/
theorem get?_insertAll (l : Ledger) (fs : List Fact) (k : FactKey) :
    (l.insertAll fs).get? k = (Fact.latest? fs k).or (l.get? k) := by
  induction fs generalizing l with
  | nil => rfl
  | cons f fs ih =>
    change ((l.insert f).insertAll fs).get? k = _
    rw [ih, get?_insert, Fact.latest?, Fact.latest?, List.findRev?]
    cases hlater : fs.findRev? fun f ↦ f.key = k with
    | some g => rfl
    | none => by_cases hkey : f.key = k <;> simp [hkey]

theorem get?_ofList_eq_latest? (fs : List Fact) (k : FactKey) :
    (ofList fs).get? k = Fact.latest? fs k := by
  rw [ofList, get?_insertAll, get?_empty, Option.or_none]

end Ledger

theorem Entity.get?_wanted_eq_latest? (entities : List Entity) (s : Schema) (k : FactKey) :
    (wanted entities s).get? k =
      Fact.latest? ((entities.flatMap desiredFacts).filter (·.existsIn s)) k :=
  Ledger.get?_ofList_eq_latest? _ k

/-- Facts of an entity are about its table. -/
theorem Entity.table_of_mem_desiredFacts {e : Entity} {f : Fact} (h : f ∈ e.desiredFacts) :
    f.table = e.table := by
  obtain ⟨c, -, hf⟩ := List.mem_flatMap.1 h
  exact (Fact.mem_ofColumn.1 hf).1

/-- Nothing is wanted of tables without an entity. -/
theorem Entity.get?_wanted_of_notMem {entities : List Entity} {s : Schema} {k : FactKey}
    (h : k.table ∉ entities.map (·.table)) : (wanted entities s).get? k = none := by
  refine Option.eq_none_iff_forall_ne_some.2 fun v hv ↦ h ?_
  rcases Ledger.exists_of_get?_insertAll hv with hv | ⟨f, hf, rfl, -⟩
  · simp at hv
  · obtain ⟨e, he, hf⟩ := List.mem_flatMap.1 (List.mem_filter.1 hf).1
    exact List.mem_map.2 ⟨e, he, (table_of_mem_desiredFacts hf).symm⟩

namespace Diff

variable {entities : List Entity} {l : Ledger} {s : Schema} {ignoreMissing : Bool} {d : Diff}

section

variable (h : ofEntities entities l s ignoreMissing = .ok d)

include h

/-- A table with an entity ends up with what is wanted of it. -/
theorem get?_writeAll_of_entity {k : FactKey} (hk : k.table ∈ entities.map (·.table)) :
    (l.writeAll d.writes).get? k = (Entity.wanted entities s).get? k := by
  obtain ⟨e, he, htable⟩ := List.mem_map.1 hk
  rw [get?_writeAll h]
  cases hwanted : (Entity.wanted entities s).get? k with
  | some v => rfl
  | none =>
    have hunwanted (v : String) : (Fact.ofKey k v).isUnwanted entities s = true := by
      have hany : entities.any (·.table == k.table) = true :=
        List.any_eq_true.2 ⟨e, he, beq_iff_eq.2 htable⟩
      have hkey : (Fact.ofKey k v).key = k := rfl
      rw [Fact.isUnwanted, hkey, hwanted, Option.isNone_none, Bool.and_true]
      exact (congrArg _ hany).trans (Bool.or_true _)
    simp [hunwanted]

/-- A table without an entity only loses the facts of columns that are gone. -/
theorem get?_writeAll_of_no_entity {k : FactKey} (hk : k.table ∉ entities.map (·.table)) :
    (l.writeAll d.writes).get? k = (l.get? k).filter fun v ↦ (Fact.ofKey k v).existsIn s := by
  have hany : entities.any (·.table == k.table) = false := by
    simpa [List.any_eq_false] using hk
  rw [get?_writeAll h, Entity.get?_wanted_of_notMem hk, Option.none_or]
  congr 1
  funext v
  have htable : (Fact.ofKey k v).table = k.table := rfl
  rw [Fact.isUnwanted, htable, hany, Bool.false_and, Bool.or_false, Bool.not_not]

end

/-- Leads from a ledger to what entities desire, and does no more than that. -/
structure Exact (d : Diff) (entities : List Entity) (l : Ledger) (s : Schema) : Prop where
  /-- In whatever order the writes are made, a table with an entity has what is desired last of each
  key, as far as the columns are there, and another table what it had of columns that are there. -/
  get?_writeAll : ∀ ws : List Write, ws.Perm d.writes → ∀ k : FactKey,
    (l.writeAll ws).get? k =
      if k.table ∈ entities.map (·.table) then
        Fact.latest? ((entities.flatMap Entity.desiredFacts).filter (·.existsIn s)) k
      else (l.get? k).filter fun v ↦ (Fact.ofKey k v).existsIn s
  /-- Nothing is written that is stored already. -/
  additions_new : ∀ f ∈ d.additions, l.get? f.key ≠ some f.value
  /-- Nothing is deleted that is not stored. -/
  removals_stored : ∀ f ∈ d.removals, l.get? f.key = some f.value
  /-- No key is written twice. -/
  nodup_keys : ((d.additions ++ d.removals).map Fact.key).Nodup

/-- The difference of entities leads to what they desire, and does no more than that. -/
theorem exact_of_ofEntities (h : ofEntities entities l s ignoreMissing = .ok d) :
    d.Exact entities l s := by
  have hdistinct : (d.writes.map Write.key).Nodup := nodup_writes h
  have hkeys : d.writes.map Write.key = (d.additions ++ d.removals).map Fact.key := by
    simp [writes, Write.key, Function.comp_def]
  refine ⟨fun ws hws k ↦ ?_, fun f hf ↦ ?_, fun f hf ↦ ?_, hkeys ▸ hdistinct⟩
  · rw [Ledger.writeAll_perm l ((hws.symm.map Write.key).nodup hdistinct) hws]
    by_cases hk : k.table ∈ entities.map (·.table)
    · rw [if_pos hk, get?_writeAll_of_entity h hk, Entity.get?_wanted_eq_latest?]
    · rw [if_neg hk, get?_writeAll_of_no_entity h hk]
  · obtain ⟨-, rfl⟩ := ofEntities_eq_ok.1 h
    exact (Ledger.mem_additions.1 hf).2
  · obtain ⟨-, rfl⟩ := ofEntities_eq_ok.1 h
    exact Ledger.mem_entries.1 (List.mem_filter.1 hf).1

/-- A second entity of the table of `staff`, which wants to number what the first one wants
random. -/
def renumbered : Entity :=
  { table := "people", columns := [{ name := "id", generation := some .increment }] }

/-- Two entities disagree about a key, and the later one wants what is stored. -/
theorem staff_exact :
    ∃ d, ofEntities (staff ++ [renumbered]) staffLedger staffTables true = .ok d ∧
      d.Exact (staff ++ [renumbered]) staffLedger staffTables ∧
      d.additions = [⟨"people", "badge", .generator, "badges"⟩,
        ⟨"people", "badge", .strategy, "custom"⟩] ∧
      d.removals = [⟨"people", "nick", .default, "'none'"⟩, ⟨"visits", "left", .default, "0"⟩] := by
  have hdiff : ofEntities (staff ++ [renumbered]) staffLedger staffTables true = .ok _ :=
    ofEntities_eq_ok.2 ⟨Or.inl rfl, rfl⟩
  exact ⟨_, hdiff, exact_of_ofEntities hdiff, by decide +kernel, by decide +kernel⟩

end Diff

end SchemaLedger
