import Mathlib
import SchemaLedger.Proofs.Database.Rooted

/-!
# The order of a dump and the chains of parents

The tables of a dump may name parents that are not there, themselves, or each other in a circle. The
depth of a table is found by going up its chain of parents, name by name, and by giving up one step
behind the number of tables. Along a chain that ends no table occurs twice, so such a chain is never
given up: it has at most as many names as there are tables. The chains that are given up are those
that run into a circle.

So the order of a dump, which goes by the depths, has the ancestors of a table before it unless its
chain runs into a circle. Nothing is assumed of the tables, not even that they are kept under their
names.
-/

namespace SchemaLedger

namespace Database

open Relation

variable {s : Schema} {t p a : Table} {parent : Option String} {k : Nat}

/-- The name of the parent of a table. -/
def parent? (t : Table) : Option String := t.interleave.map (·.parent)

/-- The name above a name: that of the parent of the table that it names. -/
def above (s : Schema) (name : String) : Option String := (s[name]?).bind parent?

/-- One table is the parent of the other. -/
def ParentIn (s : Schema) (t p : Table) : Prop := ∃ i ∈ t.interleave, s[i.parent]? = some p

/-- No table above this one, nor the table itself, is above itself. -/
def Acyclic (s : Schema) (t : Table) : Prop :=
  ∀ a, ReflTransGen (ParentIn s) t a → ¬TransGen (ParentIn s) a a

/-! ## Going up a chain -/

/-- One round on the way up a chain, at a depth and with the name that comes next: the depth is
counted, and beyond the number of tables the way is given up. Without a name it is over. -/
def ascend (s : Schema) : Nat × Option String → Nat × Option String
  | (d, none) => (d, none)
  | (d, some p) => (d + 1, if s.size < d + 1 then none else above s p)

/-- The way up is over after as many rounds as the depth says, and not before. -/
theorem ascend_depthFrom {d l : Nat} (hd : d + l = s.size + 1) (hl : l = 0 → parent = none) :
    (ascend s)^[depthFrom s l parent] (d, parent) = (d + depthFrom s l parent, none) ∧
      ∀ j < depthFrom s l parent, ((ascend s)^[j] (d, parent)).2 ≠ none := by
  induction l generalizing d parent with
  | zero =>
    rw [hl rfl, depthFrom]
    exact ⟨rfl, fun j hj ↦ absurd hj (Nat.not_lt_zero j)⟩
  | succ l ih =>
    cases parent with
    | none =>
      rw [depthFrom]
      exact ⟨rfl, fun j hj ↦ absurd hj (Nat.not_lt_zero j)⟩
    | some p =>
      -- In the last round that there may be, the way is given up, and nothing is left to be
      -- counted.
      have hround : ∃ q, ascend s (d, some p) = (d + 1, q) ∧ (l = 0 → q = none) ∧
          depthFrom s (l + 1) (some p) = depthFrom s l q + 1 := by
        rw [ascend, depthFrom, Nat.add_comm 1]
        split
        · obtain rfl : l = 0 := by omega
          exact ⟨none, rfl, fun _ ↦ rfl, by rw [depthFrom, depthFrom]⟩
        · exact ⟨above s p, rfl, fun hl ↦ absurd hl (by omega), rfl⟩
      obtain ⟨q, hround, hq, hdepth⟩ := hround
      obtain ⟨hend, hbefore⟩ := ih (d := d + 1) (by omega) hq
      rw [hdepth]
      refine ⟨?_, fun j hj ↦ ?_⟩
      · rw [Function.iterate_succ_apply, hround, hend, Nat.add_right_comm, Nat.add_assoc]
      · cases j with
        | zero => exact Option.some_ne_none p
        | succ j =>
          rw [Function.iterate_succ_apply, hround]
          exact hbefore j (Nat.lt_of_succ_lt_succ hj)

/-! ## Chains that end -/

/-- The chain of parents from a name on has so many names. -/
inductive Ends (s : Schema) : Option String → Nat → Prop
  | nil : Ends s none 0
  | cons {p : String} {k : Nat} : Ends s (above s p) k → Ends s (some p) (k + 1)

namespace Ends

/-- The depth is the number of names, as far as one goes. -/
theorem depthFrom_eq (h : Ends s parent k) (limit : Nat) :
    depthFrom s limit parent = min k limit := by
  induction h generalizing limit with
  | nil => cases limit <;> simp [depthFrom]
  | @cons p k _ ih =>
    cases limit with
    | zero => rfl
    | succ limit =>
      rw [depthFrom, Nat.succ_min_succ, ← ih limit, Nat.add_comm 1]
      rfl

/-- Every shorter end of the chain but the last starts at a table. -/
theorem exists_key (h : Ends s parent k) {j : Nat} (hj : 2 ≤ j) (hjk : j ≤ k) :
    ∃ p ∈ s.keys, Ends s (some p) j := by
  induction h with
  | nil => omega
  | @cons p k h ih =>
    rcases Nat.lt_or_ge k j with hlt | hle
    · obtain rfl : j = k + 1 := by omega
      refine ⟨p, ?_, .cons h⟩
      rw [Std.ExtTreeMap.mem_keys, Std.ExtTreeMap.mem_iff_isSome_getElem?]
      cases hp : s[p]? with
      | none =>
        rw [above, hp] at h
        cases h
        omega
      | some t => rfl
    · exact ih hle

/-- A chain that ends has at most one name more than there are tables: its ends are of different
lengths, and all but the last start at different tables. -/
theorem le_size (h : Ends s parent k) : k ≤ s.size + 1 := by
  have hsurj : Set.SurjOn (fun p ↦ depthFrom s k (some p)) s.keys.toFinset (Finset.Icc 2 k) := by
    intro j hj
    obtain ⟨hj, hjk⟩ := Finset.mem_Icc.1 (Finset.mem_coe.1 hj)
    obtain ⟨p, hp, hends⟩ := h.exists_key hj hjk
    exact ⟨p, List.mem_toFinset.2 hp, (hends.depthFrom_eq k).trans (Nat.min_eq_left hjk)⟩
  have hcard := (Finset.card_le_card_of_surjOn _ hsurj).trans (List.toFinset_card_le _)
  rw [Nat.card_Icc, Std.ExtTreeMap.length_keys] at hcard
  omega

end Ends

/-- Above a table whose chain ends there are no more names than tables, so the chain is not given
up. -/
theorem depth_eq_of_ends {n : String} (ht : s[n]? = some t) (h : Ends s (parent? t) k) :
    depth s t = k ∧ k ≤ s.size := by
  have hsize : k ≤ s.size := by
    have hfrom : Ends s (some n) (k + 1) := .cons (by rwa [above, ht])
    exact Nat.le_of_succ_le_succ hfrom.le_size
  exact ⟨(h.depthFrom_eq (s.size + 1)).trans (Nat.min_eq_left (Nat.le_succ_of_le hsize)), hsize⟩

theorem parent?_of_parentIn (h : ParentIn s t p) :
    ∃ n, parent? t = some n ∧ s[n]? = some p ∧ above s n = parent? p := by
  obtain ⟨i, hi, hp⟩ := h
  exact ⟨i.parent, by rw [parent?, Option.mem_def.1 hi]; rfl, hp, by rw [above, hp]; rfl⟩

/-- The chain of a parent is one name shorter. -/
theorem Ends.of_parentIn (h : Ends s (parent? t) k) (hp : ParentIn s t p) :
    ∃ j, k = j + 1 ∧ Ends s (parent? p) j := by
  obtain ⟨n, hn, -, habove⟩ := parent?_of_parentIn hp
  rw [hn] at h
  cases h with
  | cons h => exact ⟨_, rfl, habove ▸ h⟩

/-- The chain of an ancestor is shorter, and the ancestor is one of the tables. -/
theorem Ends.of_transGen (h : Ends s (parent? t) k) (ha : TransGen (ParentIn s) t a) :
    (∃ j < k, Ends s (parent? a) j) ∧ ∃ n : String, s[n]? = some a := by
  induction ha with
  | single hp =>
    obtain ⟨j, rfl, hj⟩ := h.of_parentIn hp
    obtain ⟨n, -, hn, -⟩ := parent?_of_parentIn hp
    exact ⟨⟨j, Nat.lt_succ_self j, hj⟩, n, hn⟩
  | tail _ hp ih =>
    obtain ⟨⟨i, hlt, hi⟩, -⟩ := ih
    obtain ⟨j, rfl, hj⟩ := hi.of_parentIn hp
    obtain ⟨n, -, hn, -⟩ := parent?_of_parentIn hp
    exact ⟨⟨j, Nat.lt_of_succ_lt hlt, hj⟩, n, hn⟩

/-! ## Chains without a circle -/

/-- The one table is above the other, whose chain runs into no circle. -/
def Ancestor (s : Schema) (a t : Table) : Prop := TransGen (ParentIn s) t a ∧ Acyclic s t

/-- Where chains run into no circle, to be an ancestor is a strict order. -/
instance isStrictOrder_ancestor (s : Schema) : IsStrictOrder Table (Ancestor s) where
  irrefl := fun a ⟨ha, hacyclic⟩ ↦ hacyclic a .refl ha
  trans := fun _ _ _ ⟨hab, _⟩ ⟨hbc, hc⟩ ↦ ⟨hbc.trans hab, hc⟩

theorem Acyclic.of_transGen (h : Acyclic s t) (ha : TransGen (ParentIn s) t a) : Acyclic s a :=
  fun b hb ↦ h b (ha.to_reflTransGen.trans hb)

/-- A chain that runs into no circle ends. -/
theorem Acyclic.exists_ends (h : Acyclic s t) {n : String} (ht : s[n]? = some t) :
    ∃ k, Ends s (parent? t) k := by
  have hwf : Set.WellFoundedOn {a | a ∈ s.values} (Ancestor s) :=
    (List.finite_toSet s.values).wellFoundedOn
  refine hwf.induction (P := fun a ↦ Acyclic s a → ∃ k, Ends s (parent? a) k) (mem_values.2 ⟨n, ht⟩)
    (fun a _ ih ha ↦ ?_) h
  cases hname : parent? a with
  | none => exact ⟨0, .nil⟩
  | some m =>
    cases hm : s[m]? with
    | none => exact ⟨1, .cons (by rw [above, hm]; exact .nil)⟩
    | some p =>
      obtain ⟨i, hi, rfl⟩ := Option.map_eq_some_iff.1 hname
      have hp : TransGen (ParentIn s) a p := .single ⟨i, hi, hm⟩
      obtain ⟨k, hk⟩ := ih p (mem_values.2 ⟨_, hm⟩) ⟨hp, ha⟩ (ha.of_transGen hp)
      exact ⟨k + 1, .cons (by rw [above, hm]; exact hk)⟩

/-- A chain that ends runs into no circle: no table on it has a chain as long as its own above
it. -/
theorem Ends.acyclic (h : Ends s (parent? t) k) : Acyclic s t := by
  have hends {a : Table} (ha : ReflTransGen (ParentIn s) t a) : ∃ j, Ends s (parent? a) j := by
    rcases reflTransGen_iff_eq_or_transGen.1 ha with rfl | ha
    · exact ⟨k, h⟩
    · obtain ⟨⟨j, -, hj⟩, -⟩ := h.of_transGen ha
      exact ⟨j, hj⟩
  intro a ha hcircle
  obtain ⟨j, hj⟩ := hends ha
  obtain ⟨⟨i, hlt, hi⟩, -⟩ := hj.of_transGen hcircle
  have hsame : min i j = min j j := (hi.depthFrom_eq j).symm.trans (hj.depthFrom_eq j)
  omega

/-- A chain that does not end is gone up as far as one goes. -/
theorem depthFrom_eq_of_not_ends (h : ∀ k, ¬Ends s parent k) (limit : Nat) :
    depthFrom s limit parent = limit := by
  induction limit generalizing parent with
  | zero => rfl
  | succ limit ih =>
    cases parent with
    | none => exact absurd .nil (h 0)
    | some p =>
      rw [depthFrom, Nat.add_comm]
      exact congrArg (· + 1) (ih fun k hk ↦ h (k + 1) (.cons hk))

/-- The chains that are given up are those that run into a circle. -/
theorem depth_le_size_iff {n : String} (ht : s[n]? = some t) :
    depth s t ≤ s.size ↔ Acyclic s t := by
  constructor
  · intro hle
    by_contra hacyclic
    have hdepth : depth s t = s.size + 1 :=
      depthFrom_eq_of_not_ends (fun k hk ↦ hacyclic hk.acyclic) (s.size + 1)
    omega
  · intro h
    obtain ⟨k, hk⟩ := h.exists_ends ht
    obtain ⟨hdepth, hsize⟩ := depth_eq_of_ends ht hk
    exact hdepth.le.trans hsize

/-- An ancestor of a table whose chain runs into no circle is one of the tables and less deep. -/
theorem Acyclic.depth_lt (h : Acyclic s t) {n : String} (ht : s[n]? = some t)
    (ha : TransGen (ParentIn s) t a) : (∃ m : String, s[m]? = some a) ∧ depth s a < depth s t := by
  obtain ⟨k, hk⟩ := h.exists_ends ht
  obtain ⟨⟨j, hlt, hj⟩, m, hm⟩ := hk.of_transGen ha
  refine ⟨⟨m, hm⟩, ?_⟩
  rw [(depth_eq_of_ends ht hk).1, (depth_eq_of_ends hm hj).1]
  exact hlt

/-! ## The order of a dump -/

/-- To go through a list by the values of a function only brings it into another order. -/
theorem perm_flatMap_filter {α : Type} (f : α → Nat) (n : Nat) (xs : List α) :
    ((List.range n).flatMap fun d ↦ xs.filter (f · == d)).Perm (xs.filter (f · < n)) := by
  induction n with
  | zero => simp
  | succ n ih =>
    have hbelow : (xs.filter (f · < n + 1)).filter (f · < n) = xs.filter (f · < n) := by
      rw [List.filter_filter]
      refine List.filter_congr fun x _ ↦ ?_
      rw [← Bool.decide_and]
      exact decide_eq_decide.2 ⟨And.left, fun h ↦ ⟨h, Nat.lt_succ_of_lt h⟩⟩
    have hlast : (xs.filter (f · < n + 1)).filter (fun x ↦ !decide (f x < n)) =
        xs.filter (f · == n) := by
      rw [List.filter_filter]
      refine List.filter_congr fun x _ ↦ ?_
      rw [Bool.eq_iff_iff]
      simp only [Bool.and_eq_true, Bool.not_eq_true', decide_eq_false_iff_not, decide_eq_true_eq,
        beq_iff_eq]
      omega
    rw [List.range_succ, List.flatMap_append, List.flatMap_singleton]
    have hsplit := List.filter_append_perm (f · < n) (xs.filter (f · < n + 1))
    rw [hbelow, hlast] at hsplit
    exact (ih.append_right _).trans hsplit

theorem perm_dumpOrder (s : Schema) : (dumpOrder s).Perm s.values := by
  have hall : s.values.filter (depth s · < s.size + 2) = s.values :=
    List.filter_eq_self.2 fun t _ ↦ decide_eq_true (Nat.lt_succ_of_le (depthFrom_le s _ _))
  have hperm := perm_flatMap_filter (depth s) (s.size + 2) s.values
  rwa [hall] at hperm

/-- Whatever parents the tables name, the way up the chain of each is over after at most one round
more than there are tables, and it is given up there exactly if the chain runs into a circle. The
dump has every table once, and a table whose chain runs into no circle stands behind all of its
ancestors. -/
theorem dumpOrder_ancestors_first (s : Schema) :
    (∀ t, depth s t ≤ s.size + 1 ∧ (ascend s)^[depth s t] (0, parent? t) = (depth s t, none) ∧
      ∀ j < depth s t, ((ascend s)^[j] (0, parent? t)).2 ≠ none) ∧
    (∀ (n : String) (t : Table), s[n]? = some t → (depth s t ≤ s.size ↔ Acyclic s t)) ∧
    (dumpOrder s).Perm s.values ∧
    ∀ xs t ys, dumpOrder s = xs ++ t :: ys → Acyclic s t →
      ∀ a, TransGen (ParentIn s) t a → a ∈ xs ∧ a ∉ t :: ys := by
  refine ⟨fun t ↦ ⟨depthFrom_le s _ _, ?_⟩, fun n t ht ↦ depth_le_size_iff ht, perm_dumpOrder s,
    fun xs t ys hdump hacyclic a ha ↦ ?_⟩
  · have hlast : s.size + 1 = 0 → parent? t = none := fun h ↦ absurd h (Nat.succ_ne_zero _)
    have hascend := ascend_depthFrom (Nat.zero_add (s.size + 1)) hlast
    rwa [Nat.zero_add] at hascend
  · have ht : t ∈ dumpOrder s := hdump ▸ List.mem_append_right _ List.mem_cons_self
    obtain ⟨n, ht⟩ := mem_dumpOrder.1 ht
    obtain ⟨ha, hlt⟩ := hacyclic.depth_lt ht ha
    have hsorted := pairwise_dumpOrder s
    rw [hdump, List.pairwise_append, List.pairwise_cons] at hsorted
    -- No table from this one on is less deep.
    have hnot : a ∉ t :: ys := by
      intro hmem
      rcases List.mem_cons.1 hmem with rfl | hmem
      · exact Nat.lt_irrefl _ hlt
      · exact Nat.lt_irrefl _ (hlt.trans_le (hsorted.2.1.1 a hmem))
    have hmem : a ∈ xs ++ t :: ys := hdump ▸ mem_dumpOrder.2 ha
    exact ⟨(List.mem_append.1 hmem).resolve_right hnot, hnot⟩

/-- Rooms, floors and houses of a street that is not there; a table over itself, and two over each
other. The names of each chain go against its order. -/
def streets : Schema :=
  (Dump.parse
    ["CREATE TABLE a_rooms (no int64) PRIMARY KEY (no), INTERLEAVE IN PARENT b_floors",
      "CREATE TABLE b_floors (no int64) PRIMARY KEY (no), INTERLEAVE IN PARENT c_houses",
      "CREATE TABLE c_houses (no int64) PRIMARY KEY (no), INTERLEAVE IN PARENT streets",
      "CREATE TABLE a_self (no int64) PRIMARY KEY (no), INTERLEAVE IN PARENT a_self",
      "CREATE TABLE a_hens (no int64) PRIMARY KEY (no), INTERLEAVE IN PARENT b_eggs",
      "CREATE TABLE b_eggs (no int64) PRIMARY KEY (no), INTERLEAVE IN PARENT a_hens"]
    ).toOption.getD ∅

theorem streets_ancestors_first :
    ∃ xs t ys, dumpOrder streets = xs ++ t :: ys ∧ xs.map (·.name) = ["c_houses", "b_floors"] ∧
      t.name = "a_rooms" ∧ ys.map (·.name) = ["a_hens", "a_self", "b_eggs"] ∧ Acyclic streets t ∧
      ∀ a, TransGen (ParentIn streets) t a → a ∈ xs ∧ a ∉ t :: ys := by
  have hseen : (dumpOrder streets).map (fun t ↦ (t.name, decide (depth streets t ≤ streets.size)))
      = [("c_houses", true), ("b_floors", true)] ++ ("a_rooms", true) ::
        [("a_hens", false), ("a_self", false), ("b_eggs", false)] := by decide +kernel
  obtain ⟨xs, zs, hdump, hxs, hzs⟩ := List.map_eq_append_iff.1 hseen
  obtain ⟨t, ys, rfl, ht, hys⟩ := List.map_eq_cons_iff.1 hzs
  obtain ⟨ht, hdepth⟩ := Prod.mk.inj ht
  have hmem : t ∈ dumpOrder streets := hdump ▸ List.mem_append_right _ List.mem_cons_self
  obtain ⟨n, hn⟩ := mem_dumpOrder.1 hmem
  have hacyclic : Acyclic streets t := (depth_le_size_iff hn).1 (of_decide_eq_true hdepth)
  have hnames (zs : List Table) :
      (zs.map fun t ↦ (t.name, decide (depth streets t ≤ streets.size))).map Prod.fst
      = zs.map (·.name) := List.map_map
  exact ⟨xs, t, ys, hdump, hnames xs ▸ hxs ▸ rfl, ht, hnames ys ▸ hys ▸ rfl, hacyclic,
    (dumpOrder_ancestors_first streets).2.2.2 xs t ys hdump hacyclic⟩

end Database

end SchemaLedger
