import Mathlib
import SchemaLedger.Proofs.Fact.Decoration
import SchemaLedger.Proofs.Reconciliation.Desired

/-!
# What deltas want

Carrying out the difference that a delta makes leads to what the delta makes of the stored facts,
facts about missing columns apart. Where the delta comes from new columns, each of them gets exactly
its own facts, if nothing was stored about them before.
-/

namespace SchemaLedger

/-- Facts of one ledger agree. -/
theorem Ledger.agreeing_filter_entries (l : Ledger) (p : Fact → Bool) :
    Agreeing (l.entries.filter p) := by
  intro f hf g hg hkey
  have hf := mem_entries.1 (List.mem_filter.1 hf).1
  have hg := mem_entries.1 (List.mem_filter.1 hg).1
  rw [hkey, hg] at hf
  exact (Option.some.inj hf).symm

theorem Ledger.get?_ofList_filter_existsIn (l : Ledger) (s : Schema) (f : Fact) :
    (ofList (l.entries.filter (·.existsIn s))).get? f.key = if f.existsIn s then l.get? f.key
      else none := by
  refine Option.ext fun v ↦ ?_
  have hkey : (Fact.ofKey f.key v).key = f.key := rfl
  have hlookup : (ofList (l.entries.filter (·.existsIn s))).get? f.key = some v ↔
      Fact.ofKey f.key v ∈ l.entries.filter (·.existsIn s) :=
    get?_key_ofList (agreeing_filter_entries l _) (f := Fact.ofKey f.key v)
  rw [hlookup, List.mem_filter, mem_entries, Fact.existsIn_congr hkey]
  split
  · exact and_iff_left ‹_›
  · exact ⟨fun h ↦ absurd h.2 ‹_›, fun h ↦ absurd h (by simp)⟩

namespace Diff

variable {delta : Delta} {l : Ledger} {s : Schema} {ignoreMissing : Bool} {d : Diff}

theorem ofDelta_eq_ok :
    ofDelta delta l s ignoreMissing = .ok d ↔
      (ignoreMissing = true ∨ ∀ f ∈ (l.applyAll delta).entries, f.existsIn s = true) ∧
        d = ⟨l.additions (.ofList ((l.applyAll delta).entries.filter (·.existsIn s))),
          l.removals (.ofList ((l.applyAll delta).entries.filter (·.existsIn s)))⟩ := by
  constructor
  · intro h
    obtain ⟨target, htarget, h⟩ := bind_eq_ok h
    obtain ⟨kept, hkept, rfl⟩ := map_eq_ok htarget
    obtain ⟨hexists, rfl⟩ := keepExisting_eq_ok.1 hkept
    exact ⟨hexists, (Except.ok.inj h).symm⟩
  · rintro ⟨hexists, rfl⟩
    rw [ofDelta, keepExisting_eq_ok.2 ⟨hexists, rfl⟩]
    rfl

/-- A delta that makes facts about columns that are there has a difference. -/
theorem exists_ofDelta
    (h : ignoreMissing = true ∨ ∀ f ∈ (l.applyAll delta).entries, f.existsIn s = true) :
    ∃ d, ofDelta delta l s ignoreMissing = .ok d :=
  ⟨_, ofDelta_eq_ok.2 ⟨h, rfl⟩⟩

section

variable (h : ofDelta delta l s ignoreMissing = .ok d)

include h

theorem writeAll_ofDelta :
    l.writeAll d.writes = .ofList ((l.applyAll delta).entries.filter (·.existsIn s)) := by
  obtain ⟨-, rfl⟩ := ofDelta_eq_ok.1 h
  exact Ledger.writeAll_changes l _

/-- What is stored in the end. -/
theorem mem_writeAll_ofDelta {f : Fact} :
    f ∈ (l.writeAll d.writes).entries ↔ f ∈ (l.applyAll delta).entries ∧ f.existsIn s = true := by
  rw [Ledger.mem_entries, writeAll_ofDelta h,
    Ledger.get?_key_ofList (Ledger.agreeing_filter_entries _ _), List.mem_filter]

theorem mem_additions_ofDelta {f : Fact} :
    f ∈ d.additions ↔ f ∈ (l.applyAll delta).entries ∧ f.existsIn s = true ∧ f ∉ l.entries := by
  obtain ⟨-, rfl⟩ := ofDelta_eq_ok.1 h
  rw [Ledger.mem_additions, Ledger.get?_ofList_filter_existsIn, Ledger.mem_entries,
    Ledger.mem_entries]
  by_cases hf : f.existsIn s = true <;> simp [hf]

theorem mem_removals_ofDelta {f : Fact} :
    f ∈ d.removals ↔
    f ∈ l.entries ∧ ¬(f.existsIn s = true ∧ (l.applyAll delta).get? f.key ≠ none) := by
  obtain ⟨-, rfl⟩ := ofDelta_eq_ok.1 h
  rw [Ledger.removals, List.mem_filter, Ledger.get?_ofList_filter_existsIn]
  by_cases hf : f.existsIn s = true <;> simp [hf]

theorem nodup_additions_ofDelta : d.additions.Nodup := by
  obtain ⟨-, rfl⟩ := ofDelta_eq_ok.1 h
  exact (List.Nodup.of_map _ (Ledger.nodup_keys_entries _)).filter _

end

end Diff

namespace Ledger

/-- Ledgers with the same facts are the same. -/
theorem ext_of_mem_entries {l m : Ledger} (h : ∀ f, f ∈ l.entries ↔ f ∈ m.entries) : l = m := by
  refine ext fun k ↦ Option.ext fun v ↦ ?_
  have hmem := h (.ofKey k v)
  rw [mem_entries, mem_entries] at hmem
  exact hmem

section

variable {α : Type} {xs : List α} {table : String} {name : α → String}
  (h : (xs.map name).Nodup) (g : α → Option Generation) (d : α → Option ColumnDefault)

include h

/-- Columns of which nothing was known get their own facts. -/
theorem get?_applyAll_upserts {l : Ledger} {x : α} (hx : x ∈ xs) {p : Property}
    (hl : l.get? ⟨table, name x, p⟩ = none) :
    (l.applyAll ((xs.flatMap fun x ↦ Fact.ofColumn table (name x) (g x) (d x)).map .upsert)).get?
      ⟨table, name x, p⟩ = p.valueFor (g x) (d x) := by
  have hagree := agreeing_ofColumns (nodup_pairs h table) g d
  rw [applyAll_upserts]
  cases hv : p.valueFor (g x) (d x) with
  | some v =>
    have hmem : (⟨table, name x, p, v⟩ : Fact) ∈
        xs.flatMap fun x ↦ Fact.ofColumn table (name x) (g x) (d x) :=
      List.mem_flatMap.2 ⟨x, hx, Fact.mem_ofColumn.2 ⟨rfl, rfl, hv⟩⟩
    exact get?_insertAll_of_mem hagree hmem
  | none =>
    rw [get?_insertAll_of_forall_ne fun f hf hkey ↦ ?_, hl]
    obtain ⟨y, hy, hf⟩ := List.mem_flatMap.1 hf
    obtain ⟨htable, hcolumn, hvalue⟩ := Fact.mem_ofColumn.1 hf
    obtain ⟨-, hcolumn', hp⟩ := (FactKey.mk.injEq ..).mp hkey
    obtain rfl := List.inj_on_of_nodup_map h hy hx (hcolumn.symm.trans hcolumn')
    rw [hp, hv] at hvalue
    contradiction

end

/-! ## Facts that are added -/

/-- Facts that are left out leave their keys as they were. -/
theorem get?_insertAll_filter (l : Ledger) (fs : List Fact) {p : Fact → Bool}
    (hp : ∀ f g : Fact, f.key = g.key → p f = p g) (f : Fact) :
    (l.insertAll (fs.filter p)).get? f.key = if p f then (l.insertAll fs).get? f.key
      else l.get? f.key := by
  induction fs generalizing l with
  | nil => exact (ite_self _).symm
  | cons g fs ih =>
    change _ = if p f then ((l.insert g).insertAll fs).get? f.key else _
    have hother (hgf : p g ≠ p f) : (l.insert g).get? f.key = l.get? f.key := by
      rw [get?_insert, if_neg fun h ↦ hgf (hp g f h)]
    cases hg : p g with
    | true =>
      rw [List.filter_cons_of_pos hg]
      change ((l.insert g).insertAll (fs.filter p)).get? f.key = _
      rw [ih]
      split
      · rfl
      · rename_i hf
        exact hother fun h ↦ hf (h ▸ hg)
    | false =>
      rw [List.filter_cons_of_neg (by rw [hg]; exact Bool.false_ne_true), ih]
      split
      · rename_i hf
        rw [get?_insertAll, get?_insertAll,
          hother fun h ↦ Bool.false_ne_true (hg.symm.trans (h.trans hf))]
      · rfl

/-- What is kept of facts that are added to others. -/
theorem ofList_filter_insertAll {l : Ledger} {fs : List Fact} {s : Schema}
    (hl : ∀ f ∈ l.entries, f.existsIn s = true) :
    ofList ((l.insertAll fs).entries.filter (·.existsIn s)) =
      l.insertAll (fs.filter (·.existsIn s)) := by
  refine ext_of_mem_entries fun f ↦ ?_
  have hinsert :=
    get?_insertAll_filter l fs (p := (·.existsIn s)) (fun f g h ↦ Fact.existsIn_congr h s) f
  rw [mem_entries, get?_key_ofList (agreeing_filter_entries _ _), List.mem_filter, mem_entries,
    mem_entries, hinsert]
  split
  · exact and_iff_left ‹_›
  · rename_i hf
    exact ⟨fun h ↦ absurd h.2 hf, fun h ↦ absurd (hl f (mem_entries.2 h)) hf⟩

theorem get?_insertAll_eq_none {l : Ledger} {fs : List Fact} {k : FactKey} :
    (l.insertAll fs).get? k = none ↔ l.get? k = none ∧ ∀ f ∈ fs, f.key ≠ k := by
  induction fs generalizing l with
  | nil => simp [insertAll]
  | cons f fs ih =>
    change ((l.insert f).insertAll fs).get? k = none ↔ _
    rw [ih, get?_insert, List.forall_mem_cons]
    by_cases hk : f.key = k <;> simp [hk]

/-- Where all that is stored is about columns that are there, what is added decides. -/
theorem forall_existsIn_insertAll {l : Ledger} {fs : List Fact} {s : Schema}
    (hl : ∀ f ∈ l.entries, f.existsIn s = true) :
    (∀ f ∈ (l.insertAll fs).entries, f.existsIn s = true) ↔ ∀ f ∈ fs, f.existsIn s = true := by
  constructor
  · intro h f hf
    obtain ⟨v, hv⟩ := Option.ne_none_iff_exists'.1 fun hnone : (l.insertAll fs).get? f.key = none ↦
      (get?_insertAll_eq_none.1 hnone).2 f hf rfl
    exact h (.ofKey f.key v) (mem_entries.2 hv)
  · intro h f hf
    rcases exists_of_get?_insertAll (mem_entries.1 hf) with hf | ⟨g, hg, hkey, -⟩
    · exact hl f (mem_entries.2 hf)
    · rw [← Fact.existsIn_congr hkey]
      exact h g hg

end Ledger

namespace Diff

variable {l : Ledger} {fs : List Fact} {s : Schema} {ignoreMissing : Bool} {d : Diff}

/-- Where all that is stored is about columns that are there, adding facts removes none. -/
theorem ofDelta_upserts_eq_ok (hl : ∀ f ∈ l.entries, f.existsIn s = true) :
    ofDelta (fs.map .upsert) l s ignoreMissing = .ok d ↔
      (ignoreMissing = true ∨ ∀ f ∈ fs, f.existsIn s = true) ∧
        d = ⟨l.additions (l.insertAll (fs.filter (·.existsIn s))), []⟩ := by
  have hremovals : l.removals (l.insertAll (fs.filter (·.existsIn s))) = [] := by
    refine List.filter_eq_nil_iff.2 fun f hf hnone ↦ ?_
    have hold := (Ledger.get?_insertAll_eq_none.1 (Option.isNone_iff_eq_none.1 hnone)).1
    rw [Ledger.mem_entries.1 hf] at hold
    contradiction
  have hkept : Ledger.ofList ((l.insertAll fs).entries.filter (·.existsIn s))
      = l.insertAll (fs.filter (·.existsIn s)) := Ledger.ofList_filter_insertAll hl
  rw [ofDelta_eq_ok, Ledger.applyAll_upserts, hkept, hremovals, Ledger.forall_existsIn_insertAll hl]

theorem writeAll_ofDelta_upserts (hl : ∀ f ∈ l.entries, f.existsIn s = true)
    (h : ofDelta (fs.map .upsert) l s ignoreMissing = .ok d) :
    l.writeAll d.writes = l.insertAll (fs.filter (·.existsIn s)) := by
  rw [writeAll_ofDelta h, Ledger.applyAll_upserts, Ledger.ofList_filter_insertAll hl]

theorem additions_insertAll_subset : l.additions (l.insertAll fs) ⊆ fs := by
  intro f hf
  obtain ⟨hnew, hold⟩ := Ledger.mem_additions.1 hf
  obtain ⟨g, hg, hkey, hvalue⟩ := (Ledger.exists_of_get?_insertAll hnew).resolve_left hold
  obtain ⟨htable, hcolumn, hproperty⟩ := (FactKey.mk.injEq ..).mp hkey
  obtain rfl : g = f := (Fact.mk.injEq ..).mpr ⟨htable, hcolumn, hproperty, hvalue⟩
  exact hg

end Diff

end SchemaLedger
