import Mathlib
import SchemaLedger.Proofs.Failing
import SchemaLedger.Proofs.Fact.Decoration
import SchemaLedger.Proofs.Fact.Tree
import SchemaLedger.Reconciliation

/-!
# Differences as writes

A difference between what is wanted and what is stored is carried out by writes, one for each key
that it concerns. No key is written twice, so the order of the writes does not matter: what is
stored afterwards is said key by key.

For entities this end is reached from every point on the way. When some of the writes have been
made and the rest has not, the difference is found anew, and carrying it out leads to what carrying
out the first one would have led to. Nothing has to be remembered of a pass that broke off.
-/

namespace SchemaLedger

/-! ## Writes -/

/-- A write to the ledger. -/
inductive Write where
  | store (fact : Fact)
  | delete (key : FactKey)
  deriving DecidableEq, Repr

namespace Write

/-- The key that is written. -/
def key : Write → FactKey
  | store f => f.key
  | delete k => k

/-- What is stored under the key afterwards. -/
def value? : Write → Option String
  | store f => some f.value
  | delete _ => none

end Write

/-- The writes that carry out a difference, the additions first. -/
def Diff.writes (d : Diff) : List Write :=
  d.additions.map .store ++ d.removals.map fun f ↦ .delete f.key

theorem Diff.writes_eq_nil_iff {d : Diff} : d.writes = [] ↔ d.isEmpty = true := by
  simp [writes, isEmpty]

namespace Ledger

/-- The ledger after a write. -/
def write (l : Ledger) : Write → Ledger
  | .store f => l.insert f
  | .delete k => l.erase k

/-- The ledger after writes. -/
def writeAll (l : Ledger) (ws : List Write) : Ledger := ws.foldl write l

theorem get?_write (l : Ledger) (w : Write) (k : FactKey) :
    (l.write w).get? k = if w.key = k then w.value? else l.get? k := by
  cases w with
  | store f => exact get?_insert l f k
  | delete k' => exact get?_erase l k' k

theorem get?_writeAll_of_forall_ne {l : Ledger} {ws : List Write} {k : FactKey}
    (h : ∀ w ∈ ws, w.key ≠ k) : (l.writeAll ws).get? k = l.get? k := by
  induction ws generalizing l with
  | nil => rfl
  | cons w ws ih =>
    rw [writeAll, List.foldl_cons]
    change ((l.write w).writeAll ws).get? k = _
    rw [ih fun x hx ↦ h x (List.mem_cons_of_mem w hx), get?_write, if_neg (h w List.mem_cons_self)]

theorem get?_writeAll_of_mem {l : Ledger} {ws : List Write} (h : (ws.map Write.key).Nodup)
    {w : Write} (hw : w ∈ ws) : (l.writeAll ws).get? w.key = w.value? := by
  induction ws generalizing l with
  | nil => contradiction
  | cons x ws ih =>
    rw [List.map_cons, List.nodup_cons] at h
    change ((l.write x).writeAll ws).get? w.key = _
    rcases List.mem_cons.1 hw with rfl | hw
    · have hne : ∀ y ∈ ws, y.key ≠ w.key := fun y hy e ↦ h.1 (e ▸ List.mem_map_of_mem hy)
      rw [get?_writeAll_of_forall_ne hne, get?_write, if_pos rfl]
    · exact ih h.2 hw

/-- Writes to different keys may come in any order. -/
theorem writeAll_perm (l : Ledger) {ws xs : List Write} (h : (ws.map Write.key).Nodup)
    (hperm : ws.Perm xs) : l.writeAll ws = l.writeAll xs := by
  refine ext fun k ↦ ?_
  by_cases hk : ∃ w ∈ ws, w.key = k
  · obtain ⟨w, hw, rfl⟩ := hk
    rw [get?_writeAll_of_mem h hw,
      get?_writeAll_of_mem ((hperm.map Write.key).nodup h) (hperm.mem_iff.1 hw)]
  · have hne : ∀ w ∈ ws, w.key ≠ k := fun w hw e ↦ hk ⟨w, hw, e⟩
    rw [get?_writeAll_of_forall_ne hne,
      get?_writeAll_of_forall_ne fun w hw ↦ hne w (hperm.mem_iff.2 hw)]

/-! ## Towards a target -/

theorem nodup_keys_entries (l : Ledger) : (l.entries.map Fact.key).Nodup :=
  l.filed.ascending_entries.nodup_keys

theorem mem_additions {l target : Ledger} {f : Fact} :
    f ∈ l.additions target ↔ target.get? f.key = some f.value ∧ l.get? f.key ≠ some f.value := by
  rw [additions, List.mem_filter, mem_entries, bne_iff_ne, ne_eq, fact?_eq_some, ne_eq,
    and_iff_right rfl]

section

variable {l target : Ledger} {p : Fact → Bool}
  (hp : ∀ f ∈ l.entries, p f = true → target.get? f.key = none)

include hp

/-- What is added is in the target, and what is removed is not. -/
theorem nodup_keys_writes :
    ((Diff.mk (l.additions target) (l.entries.filter p)).writes.map Write.key).Nodup := by
  rw [Diff.writes, List.map_append, List.map_map, List.map_map]
  refine List.nodup_append.2 ⟨?_, ?_, ?_⟩
  · exact (List.filter_sublist.map Fact.key).nodup (nodup_keys_entries target)
  · exact (List.filter_sublist.map Fact.key).nodup (nodup_keys_entries l)
  · rintro k hadd k' hremove rfl
    obtain ⟨f, hf, rfl⟩ := List.mem_map.1 hadd
    obtain ⟨g, hg, hkey⟩ := List.mem_map.1 hremove
    obtain ⟨hg, hpg⟩ := List.mem_filter.1 hg
    have hkey : g.key = f.key := hkey
    have hsome := (mem_additions.1 hf).1
    rw [← hkey, hp g hg hpg] at hsome
    contradiction

/-- What is in the target, and of the rest what is not removed. -/
theorem get?_writeAll_writes (k : FactKey) :
    (l.writeAll (Diff.mk (l.additions target) (l.entries.filter p)).writes).get? k
      = (target.get? k).or ((l.get? k).filter fun v ↦ !p (Fact.ofKey k v)) := by
  have hnodup := nodup_keys_writes hp
  by_cases hk : ∃ w ∈ (Diff.mk (l.additions target) (l.entries.filter p)).writes, w.key = k
  · obtain ⟨w, hw, rfl⟩ := hk
    rw [get?_writeAll_of_mem hnodup hw]
    rcases List.mem_append.1 hw with hw | hw
    · obtain ⟨f, hf, rfl⟩ := List.mem_map.1 hw
      change some f.value = (target.get? f.key).or _
      rw [(mem_additions.1 hf).1, Option.some_or]
    · obtain ⟨f, hf, rfl⟩ := List.mem_map.1 hw
      obtain ⟨hf, hpf⟩ := List.mem_filter.1 hf
      change none = (target.get? f.key).or ((l.get? f.key).filter _)
      rw [hp f hf hpf, mem_entries.1 hf, Option.none_or, Option.filter_some]
      change none = if (!p f) = true then some f.value else none
      rw [hpf]
      rfl
  -- A key that is not written is in the target with the value that it has, or it is not in the
  -- target and not removed.
  · have hne := fun w hw e ↦ hk ⟨w, hw, e⟩
    rw [get?_writeAll_of_forall_ne hne]
    have hadd {f : Fact} (hf : f ∈ l.additions target) : f.key ≠ k :=
      hne (.store f) (List.mem_append_left _ (List.mem_map_of_mem hf))
    have hremove {f : Fact} (hf : f ∈ l.entries) (hpf : p f = true) : f.key ≠ k :=
      hne (.delete f.key) (List.mem_append_right _
        (List.mem_map.2 ⟨f, List.mem_filter.2 ⟨hf, hpf⟩, rfl⟩))
    cases ht : target.get? k with
    | some v =>
      rw [Option.some_or]
      by_contra hl
      exact hadd (f := Fact.ofKey k v) (mem_additions.2 ⟨ht, hl⟩) rfl
    | none =>
      rw [Option.none_or]
      cases hl : l.get? k with
      | none => rfl
      | some v =>
        cases hpf : p (Fact.ofKey k v) with
        | true => exact absurd rfl (hremove (f := Fact.ofKey k v) (mem_entries.2 hl) hpf)
        | false => simp [Option.filter_some, hpf]

end

/-- Additions and removals lead from one ledger to another. -/
theorem writeAll_changes (l target : Ledger) :
    l.writeAll (Diff.mk (l.additions target) (l.removals target)).writes = target := by
  refine ext fun k ↦ ?_
  have hp : ∀ f ∈ l.entries, (target.get? f.key).isNone = true → target.get? f.key = none :=
    fun f _ h ↦ Option.isNone_iff_eq_none.1 h
  rw [removals, get?_writeAll_writes hp]
  cases ht : target.get? k with
  | some v => rfl
  | none =>
    rw [Option.none_or]
    cases l.get? k with
    | none => rfl
    | some v =>
      have hkey : (Fact.ofKey k v).key = k := rfl
      simp [Option.filter_some, hkey, ht]

/-- A difference writes only under keys at which the ledgers differ. -/
theorem get?_ne_of_mem_writes {l target : Ledger} {w : Write}
    (hw : w ∈ (Diff.mk (l.additions target) (l.removals target)).writes) :
    l.get? w.key ≠ target.get? w.key := by
  rcases List.mem_append.1 hw with hw | hw
  · obtain ⟨f, hf, rfl⟩ := List.mem_map.1 hw
    obtain ⟨htarget, hl⟩ := mem_additions.1 hf
    change l.get? f.key ≠ target.get? f.key
    rwa [htarget]
  · obtain ⟨f, hf, rfl⟩ := List.mem_map.1 hw
    obtain ⟨hl, htarget⟩ := List.mem_filter.1 hf
    change l.get? f.key ≠ target.get? f.key
    rw [mem_entries.1 hl, Option.isNone_iff_eq_none.1 htarget]
    exact nofun

/-- Whatever writes lead from one ledger to another, every key of the difference is among theirs. -/
theorem keys_writes_subset {l target : Ledger} {ws : List Write} (h : l.writeAll ws = target) :
    (Diff.mk (l.additions target) (l.removals target)).writes.map Write.key ⊆ ws.map Write.key := by
  intro k hk
  obtain ⟨w, hw, rfl⟩ := List.mem_map.1 hk
  by_contra hmiss
  have hne : ∀ x ∈ ws, x.key ≠ w.key := fun x hx e ↦ hmiss (e ▸ List.mem_map_of_mem hx)
  refine get?_ne_of_mem_writes hw ?_
  rw [← get?_writeAll_of_forall_ne hne, h]

theorem keys_writes (d : Diff) :
    d.writes.map Write.key = (d.additions ++ d.removals).map Fact.key := by
  rw [Diff.writes, List.map_append, List.map_append, List.map_map, List.map_map]
  rfl

theorem nodup_keys_changes (l target : Ledger) :
    ((Diff.mk (l.additions target) (l.removals target)).writes.map Write.key).Nodup :=
  nodup_keys_writes fun _ _ h ↦ Option.isNone_iff_eq_none.1 h

/-- A difference is a least patch: its writes lead from the one ledger to the other in any order,
none of them concerns the key of another, there are none only between equal ledgers, and no fewer
writes lead there. -/
theorem changes_minimal_patch (l target : Ledger) :
    (∀ ws, ws.Perm (Diff.mk (l.additions target) (l.removals target)).writes →
        l.writeAll ws = target) ∧
      ((l.additions target ++ l.removals target).map Fact.key).Nodup ∧
      (l.additions target = [] ∧ l.removals target = [] ↔ l = target) ∧
      ∀ ws, l.writeAll ws = target →
        (l.additions target).length + (l.removals target).length ≤ ws.length := by
  have hnodup := nodup_keys_changes l target
  refine ⟨fun ws hws ↦ ?_, ?_, ⟨?_, ?_⟩, fun ws hws ↦ ?_⟩
  · rw [← writeAll_perm l hnodup hws.symm, writeAll_changes]
  · rwa [keys_writes] at hnodup
  · rintro ⟨hadd, hremove⟩
    have hpatch := writeAll_changes l target
    rw [hadd, hremove] at hpatch
    exact hpatch
  · rintro rfl
    have hnone : (Diff.mk (l.additions l) (l.removals l)).writes = [] :=
      List.eq_nil_iff_forall_not_mem.2 fun w hw ↦ get?_ne_of_mem_writes hw rfl
    obtain ⟨hadd, hremove⟩ := List.append_eq_nil_iff.1 hnone
    exact ⟨List.map_eq_nil_iff.1 hadd, List.map_eq_nil_iff.1 hremove⟩
  · have hle := (hnodup.subperm (keys_writes_subset hws)).length_le
    rwa [keys_writes, List.length_map, List.length_map, List.length_append] at hle

end Ledger

/-! ## What entities want -/

theorem keepExisting_eq_ok {s : Schema} {context : String} {ignoreMissing : Bool}
    {facts kept : List Fact} :
    keepExisting s context ignoreMissing facts = .ok kept ↔
      (ignoreMissing = true ∨ ∀ f ∈ facts, f.existsIn s = true) ∧
        kept = facts.filter (·.existsIn s) := by
  rw [keepExisting]
  cases ignoreMissing with
  | true => exact ⟨fun h ↦ ⟨Or.inl rfl, (Except.ok.inj h).symm⟩, fun h ↦ congrArg _ h.2.symm⟩
  | false =>
    cases hfind : facts.find? (!·.existsIn s) with
    | none =>
      have hall : ∀ f ∈ facts, f.existsIn s = true := by simpa using hfind
      exact ⟨fun h ↦ ⟨Or.inr hall, (Except.ok.inj h).symm⟩, fun h ↦ congrArg _ h.2.symm⟩
    | some f =>
      have hf : f.existsIn s = false := by simpa using List.find?_some hfind
      have hnot : ¬∀ f ∈ facts, f.existsIn s = true := fun h ↦ by
        simp [h f (List.mem_of_find?_eq_some hfind)] at hf
      simp [hnot]

/-- The facts that entities want of columns that are there. -/
def Entity.wanted (entities : List Entity) (s : Schema) : Ledger :=
  Ledger.ofList ((entities.flatMap desiredFacts).filter (·.existsIn s))

/-- A stored fact is to go: its column is gone, or an entity describes its table and does not want
it. -/
def Fact.isUnwanted (entities : List Entity) (s : Schema) (f : Fact) : Bool :=
  !f.existsIn s ||
    (entities.any (·.table == f.table) && ((Entity.wanted entities s).get? f.key).isNone)

/-- Whether a fact's column is there depends on its key. -/
theorem Fact.existsIn_congr {f g : Fact} (h : f.key = g.key) (s : Schema) :
    f.existsIn s = g.existsIn s := by
  obtain ⟨htable, hcolumn, -⟩ := (FactKey.mk.injEq ..).mp h
  rw [existsIn, existsIn, htable, hcolumn]

theorem Ledger.exists_of_get?_insertAll {l : Ledger} {fs : List Fact} {k : FactKey} {v : String}
    (h : (l.insertAll fs).get? k = some v) :
    l.get? k = some v ∨ ∃ f ∈ fs, f.key = k ∧ f.value = v := by
  induction fs generalizing l with
  | nil => exact Or.inl h
  | cons f fs ih =>
    rcases ih (l := l.insert f) h with h | ⟨g, hg, hkey⟩
    · rw [get?_insert] at h
      split at h
      · exact Or.inr ⟨f, List.mem_cons_self, ‹_›, Option.some.inj h⟩
      · exact Or.inl h
    · exact Or.inr ⟨g, List.mem_cons_of_mem f hg, hkey⟩

theorem Entity.existsIn_of_wanted {entities : List Entity} {s : Schema} {f : Fact} {v : String}
    (h : (wanted entities s).get? f.key = some v) : f.existsIn s = true := by
  rcases Ledger.exists_of_get?_insertAll h with h | ⟨g, hg, hkey, -⟩
  · rw [Ledger.get?_empty] at h
    contradiction
  · rw [← Fact.existsIn_congr hkey]
    exact (List.mem_filter.1 hg).2

namespace Diff

variable {entities : List Entity} {l : Ledger} {s : Schema} {ignoreMissing : Bool} {d : Diff}

theorem ofEntities_eq_ok :
    ofEntities entities l s ignoreMissing = .ok d ↔
      (ignoreMissing = true ∨ (∀ f ∈ entities.flatMap Entity.desiredFacts, f.existsIn s = true) ∧
        ∀ f ∈ l.entries, f.existsIn s = true) ∧
      d = ⟨l.additions (Entity.wanted entities s), l.entries.filter (·.isUnwanted entities s)⟩ := by
  constructor
  · intro h
    obtain ⟨desired, hdesired, h⟩ := bind_eq_ok h
    obtain ⟨_, hstored, h⟩ := bind_eq_ok h
    -- The facts of the entities are looked at first, so an error over them hides one over the
    -- ledger.
    cases hkept : keepExisting s "entity column" ignoreMissing
        (entities.flatMap Entity.desiredFacts) with
    | error e => simp [hkept] at hdesired
    | ok kept =>
      obtain ⟨hentities, rfl⟩ := keepExisting_eq_ok.1 hkept
      obtain ⟨hledger, -⟩ := keepExisting_eq_ok.1 hstored
      have hdesired : Entity.wanted entities s = desired := by
        simpa [hkept, Entity.wanted] using hdesired
      subst hdesired
      refine ⟨?_, (Except.ok.inj h).symm⟩
      rcases hentities with h | hentities
      · exact Or.inl h
      · exact hledger.imp_right fun hledger ↦ ⟨hentities, hledger⟩
  · rintro ⟨h, rfl⟩
    have hentities : ignoreMissing = true ∨
        ∀ f ∈ entities.flatMap Entity.desiredFacts, f.existsIn s = true := h.imp_right (·.1)
    have hledger : ignoreMissing = true ∨ ∀ f ∈ l.entries, f.existsIn s = true :=
      h.imp_right (·.2)
    rw [ofEntities, keepExisting_eq_ok.2 ⟨hentities, rfl⟩, keepExisting_eq_ok.2 ⟨hledger, rfl⟩]
    rfl

/-- A difference depends on no more than which columns are there. -/
theorem ofEntities_congr {s' : Schema} (h : ∀ f : Fact, f.existsIn s = f.existsIn s') :
    ofEntities entities l s ignoreMissing = ofEntities entities l s' ignoreMissing := by
  have hkeep (context : String) (facts : List Fact) :
      keepExisting s context ignoreMissing facts = keepExisting s' context ignoreMissing facts := by
    simp only [keepExisting, h]
  simp only [ofEntities, hkeep, h]

private theorem wanted_of_isUnwanted {f : Fact} (h : f.isUnwanted entities s = true) :
    (Entity.wanted entities s).get? f.key = none := by
  rw [Fact.isUnwanted, Bool.or_eq_true, Bool.and_eq_true, Option.isNone_iff_eq_none] at h
  rcases h with h | ⟨-, h⟩
  · refine Option.eq_none_iff_forall_ne_some.2 fun v hv ↦ ?_
    rw [Entity.existsIn_of_wanted hv] at h
    contradiction
  · exact h

section

variable (h : ofEntities entities l s ignoreMissing = .ok d)

include h

theorem nodup_writes : (d.writes.map Write.key).Nodup := by
  obtain ⟨-, rfl⟩ := ofEntities_eq_ok.1 h
  exact Ledger.nodup_keys_writes fun f _ hf ↦ wanted_of_isUnwanted hf

/-- What is stored in the end: what entities want, and what is left alone. -/
theorem get?_writeAll (k : FactKey) :
    (l.writeAll d.writes).get? k = ((Entity.wanted entities s).get? k).or
      ((l.get? k).filter fun v ↦ !(Fact.ofKey k v).isUnwanted entities s) := by
  obtain ⟨-, rfl⟩ := ofEntities_eq_ok.1 h
  exact Ledger.get?_writeAll_writes (fun f _ hf ↦ wanted_of_isUnwanted hf) k

/-- What has been carried out is not found again. -/
theorem ofEntities_writeAll :
    ofEntities entities (l.writeAll d.writes) s ignoreMissing = .ok {} := by
  obtain ⟨hsuccess, -⟩ := ofEntities_eq_ok.1 h
  -- Every fact that is stored now is wanted, or was there before and was left alone.
  have hentry {f : Fact} (hf : f ∈ (l.writeAll d.writes).entries) :
      (Entity.wanted entities s).get? f.key = some f.value ∨
        f ∈ l.entries ∧ f.isUnwanted entities s = false := by
    rw [Ledger.mem_entries, get?_writeAll h, Option.or_eq_some_iff] at hf
    rcases hf with hf | ⟨-, hf⟩
    · exact Or.inl hf
    · obtain ⟨hf, hkept⟩ := Option.filter_eq_some_iff.1 hf
      exact Or.inr ⟨Ledger.mem_entries.2 hf, (Bool.not_eq_eq_eq_not.1 hkept)⟩
  have hexists {f : Fact} (hf : f ∈ (l.writeAll d.writes).entries)
      (hall : ∀ f ∈ l.entries, f.existsIn s = true) : f.existsIn s = true := by
    rcases hentry hf with hf | ⟨hf, -⟩
    · exact Entity.existsIn_of_wanted hf
    · exact hall f hf
  refine ofEntities_eq_ok.2 ⟨hsuccess.imp_right fun hexist ↦
    ⟨hexist.1, fun f hf ↦ hexists hf hexist.2⟩, ?_⟩
  refine (Diff.mk.injEq ..).mpr ⟨?_, ?_⟩
  · refine (List.eq_nil_iff_forall_not_mem.2 fun f hf ↦ ?_).symm
    obtain ⟨hwanted, hmissing⟩ := Ledger.mem_additions.1 hf
    rw [get?_writeAll h, hwanted, Option.some_or] at hmissing
    exact hmissing rfl
  · refine (List.eq_nil_iff_forall_not_mem.2 fun f hf ↦ ?_).symm
    obtain ⟨hf, hunwanted⟩ := List.mem_filter.1 hf
    rcases hentry hf with hf | ⟨-, hkept⟩
    · rw [wanted_of_isUnwanted hunwanted] at hf
      contradiction
    · rw [hkept] at hunwanted
      contradiction

/-- What is stored on the way is stored at the beginning or wanted by an entity. -/
private theorem mem_entries_of_subperm {done : List Write} (hdone : done.Subperm d.writes)
    {f : Fact} (hf : f ∈ (l.writeAll done).entries) :
    f ∈ l.entries ∨ f ∈ l.additions (Entity.wanted entities s) := by
  have hnodup : (done.map Write.key).Nodup := by
    obtain ⟨ws, hperm, hsub⟩ := hdone
    exact (hperm.map Write.key).nodup ((hsub.map Write.key).nodup (nodup_writes h))
  rw [Ledger.mem_entries] at hf
  by_cases hw : ∃ w ∈ done, w.key = f.key
  · obtain ⟨w, hw, hkey⟩ := hw
    rw [← hkey, Ledger.get?_writeAll_of_mem hnodup hw] at hf
    obtain ⟨-, rfl⟩ := ofEntities_eq_ok.1 h
    rcases List.mem_append.1 (hdone.subset hw) with hw | hw
    · obtain ⟨g, hg, rfl⟩ := List.mem_map.1 hw
      have hgf : g = f := by
        obtain ⟨ht, hc, hp⟩ := (FactKey.mk.injEq ..).mp hkey
        exact (Fact.mk.injEq ..).mpr ⟨ht, hc, hp, Option.some.inj hf⟩
      exact Or.inr (hgf ▸ hg)
    · obtain ⟨g, -, rfl⟩ := List.mem_map.1 hw
      contradiction
  · rw [Ledger.get?_writeAll_of_forall_ne fun w hw' e ↦ hw ⟨w, hw', e⟩] at hf
    exact Or.inl (Ledger.mem_entries.2 hf)

/-- What is left alone is not written. -/
private theorem get?_writeAll_of_subperm {done : List Write} (hdone : done.Subperm d.writes)
    {k : FactKey} (hk : (Entity.wanted entities s).get? k = none) :
    ((l.writeAll done).get? k).filter (fun v ↦ !(Fact.ofKey k v).isUnwanted entities s)
      = (l.get? k).filter fun v ↦ !(Fact.ofKey k v).isUnwanted entities s := by
  -- Whether a fact is unwanted does not depend on its value, so it can be said of the key.
  have hvalue (v v' : String) : (Fact.ofKey k v).isUnwanted entities s
      = (Fact.ofKey k v').isUnwanted entities s := rfl
  cases hunwanted : (Fact.ofKey k "").isUnwanted entities s with
  | true =>
    have hall (o : Option String) :
        o.filter (fun v ↦ !(Fact.ofKey k v).isUnwanted entities s) = none := by
      cases o with
      | none => rfl
      | some v => simp [Option.filter_some, hvalue v "", hunwanted]
    rw [hall, hall]
  | false =>
    rw [Ledger.get?_writeAll_of_forall_ne]
    rintro w hw rfl
    obtain ⟨-, rfl⟩ := ofEntities_eq_ok.1 h
    rcases List.mem_append.1 (hdone.subset hw) with hw | hw
    · obtain ⟨f, hf, rfl⟩ := List.mem_map.1 hw
      have hsome := (Ledger.mem_additions.1 hf).1
      rw [Write.key] at hk
      rw [hk] at hsome
      contradiction
    · obtain ⟨f, hf, rfl⟩ := List.mem_map.1 hw
      have hf := (List.mem_filter.1 hf).2
      rw [← hvalue f.value ""] at hunwanted
      exact absurd hf (by simpa [Fact.ofKey, Write.key, Fact.key] using hunwanted)

/-- When some of the writes of a difference have been made, whichever and in whatever order, a
difference is found again, and carrying it out ends where the first one would have ended. -/
theorem ofEntities_resume {done all : List Write} (hdone : done.Subperm d.writes)
    (hall : all.Perm d.writes) :
    ∃ d', ofEntities entities (l.writeAll done) s ignoreMissing = .ok d' ∧
      ∀ rest : List Write, rest.Perm d'.writes →
        (l.writeAll done).writeAll rest = l.writeAll all := by
  obtain ⟨hsuccess, -⟩ := ofEntities_eq_ok.1 h
  have hstored (f : Fact) (hf : f ∈ (l.writeAll done).entries)
      (hall : ∀ f ∈ l.entries, f.existsIn s = true) : f.existsIn s = true := by
    rcases mem_entries_of_subperm h hdone hf with hf | hf
    · exact hall f hf
    · exact Entity.existsIn_of_wanted (Ledger.mem_additions.1 hf).1
  have hagain := ofEntities_eq_ok.2 ⟨hsuccess.imp_right fun hexists ↦
    ⟨hexists.1, fun f hf ↦ hstored f hf hexists.2⟩, rfl⟩
  refine ⟨_, hagain, fun rest hrest ↦ ?_⟩
  rw [Ledger.writeAll_perm _ ((hrest.symm.map Write.key).nodup (nodup_writes hagain)) hrest,
    Ledger.writeAll_perm _ ((hall.symm.map Write.key).nodup (nodup_writes h)) hall]
  refine Ledger.ext fun k ↦ ?_
  rw [get?_writeAll hagain, get?_writeAll h]
  cases hk : (Entity.wanted entities s).get? k with
  | some v => rfl
  | none => rw [get?_writeAll_of_subperm h hdone hk]

end

/-- Two tables, one of which has lost a column. -/
def staffTables : Schema :=
  ((∅ : Schema).insert "people"
    { name := "people",
      columns := [{ name := "id", type := .string }, { name := "badge", type := .int64 },
        { name := "nick", type := .string }] }).insert "visits"
    { name := "visits", columns := [{ name := "seen", type := .timestamp }] }

/-- A table whose keys are made by the application, and whose badges are numbered. -/
def staff : List Entity :=
  [{ table := "people",
     columns := [{ name := "id", generation := some .uuid },
       { name := "badge", generation := some (.custom "badges") }] }]

/-- Facts with an old strategy, a default that is no longer wanted, and one of a lost column. -/
def staffLedger : Ledger :=
  .ofList [⟨"people", "id", .strategy, "increment"⟩, ⟨"people", "nick", .default, "'none'"⟩,
    ⟨"visits", "seen", .default, ColumnDefault.sentinel⟩, ⟨"visits", "left", .default, "0"⟩]

/-- A pass that broke off after a delete and the later of the two facts of a custom generation. -/
theorem staff_resume :
    ∃ d, ofEntities staff staffLedger staffTables true = .ok d ∧
      [.delete ⟨"visits", "left", .default⟩,
        .store ⟨"people", "badge", .strategy, "custom"⟩].Subperm d.writes ∧
      ∃ d', ofEntities staff
          (staffLedger.writeAll [.delete ⟨"visits", "left", .default⟩,
            .store ⟨"people", "badge", .strategy, "custom"⟩]) staffTables true = .ok d' ∧
        ∀ rest : List Write, rest.Perm d'.writes →
          (staffLedger.writeAll [.delete ⟨"visits", "left", .default⟩,
            .store ⟨"people", "badge", .strategy, "custom"⟩]).writeAll rest
            = staffLedger.writeAll d.writes := by
  have hdiff := ofEntities_eq_ok.2 (⟨Or.inl rfl, rfl⟩ :
    (true = true ∨ (∀ f ∈ staff.flatMap Entity.desiredFacts, f.existsIn staffTables = true) ∧
      ∀ f ∈ staffLedger.entries, f.existsIn staffTables = true) ∧
      (_ : Diff) = ⟨staffLedger.additions (Entity.wanted staff staffTables),
        staffLedger.entries.filter (·.isUnwanted staff staffTables)⟩)
  have hdone : [.delete ⟨"visits", "left", .default⟩,
      .store ⟨"people", "badge", .strategy, "custom"⟩].Subperm
      (Diff.mk (staffLedger.additions (Entity.wanted staff staffTables))
        (staffLedger.entries.filter (·.isUnwanted staff staffTables))).writes := by decide
  exact ⟨_, hdiff, hdone, ofEntities_resume hdiff hdone (List.Perm.refl _)⟩

end Diff

end SchemaLedger
