import Mathlib
import SchemaLedger.Proofs.Dump.Parents

/-!
# Statements in another order

A dump may list its statements in any order, indices before their tables even, and blank statements
among them: it can be read or not regardless, and the same tables are read. Only the indices of a
table, and the unique ones among its constraints, come in the order in which their statements stand.
-/

namespace SchemaLedger

/-! ## Tables whose indices come in another order -/

namespace Table

/-- The same table, but for the order of its indices and of its unique constraints. -/
structure Rearranged (t t' : Table) : Prop where
  indices : t.indices.Perm t'.indices
  uniques : t.uniques.Perm t'.uniques
  others : { t with indices := [], uniques := [] } = { t' with indices := [], uniques := [] }

/-- Which columns are unique does not depend on the order in which indices are registered. -/
theorem rearranged_registerIndices (t : Table) {is is' : List Index} (h : is.Perm is') :
    (is.foldl registerIndex t).Rearranged (is'.foldl registerIndex t) := by
  have hcovers (name : String) : is.any (·.covers name) = is'.any (·.covers name) := h.any_eq
  rw [foldl_registerIndex, foldl_registerIndex]
  refine ⟨h.append_left _, ((h.filter _).map _).append_left _, ?_⟩
  simp only [hcovers]

end Table

namespace Dump

open Text

variable {statements statements' : List String} {s s' : Schema}

/-! ## Reading in another order -/

/-- The texts of the statements that are not blank. -/
def stated (statements : List String) : List (List Char) :=
  (statements.map String.toList).filter fun cs ↦ !(strip cs).isEmpty

/-- Under each name, the same table is found. -/
theorem find?_eq_of_perm {ts ts' : List Table} (hdistinct : (ts.map (·.name)).Nodup)
    (hperm : ts.Perm ts') (k : String) : ts.find? (·.name == k) = ts'.find? (·.name == k) := by
  cases hfind : ts.find? (·.name == k) with
  | none =>
    exact (List.find?_eq_none.2 fun t ht ↦ List.find?_eq_none.1 hfind t (hperm.mem_iff.2 ht)).symm
  | some t =>
    have hname : t.name = k := by simpa using List.find?_some hfind
    have hdistinct' : (ts'.map (·.name)).Nodup := (hperm.map _).nodup hdistinct
    rw [← hname,
      find?_eq_some_of_mem hdistinct' (hperm.mem_iff.1 (List.mem_of_find?_eq_some hfind))]

/-- From the same statements in another order, the same items are read in another order, and of them
the same tables, so all that is looked for is there. -/
theorem exists_parse_of_perm (hstated : (stated statements).Perm (stated statements'))
    (h : parse statements = .ok s) : ∃ s', parse statements' = .ok s' := by
  obtain ⟨items, ts, hitems, hreading⟩ := exists_of_parse h
  obtain ⟨items', hitems', hperm⟩ := mapM_perm hstated hitems
  obtain ⟨ts', hbuilt', htables⟩ := mapM_perm (hperm.filterMap _) hreading.built
  refine exists_parse hitems' hbuilt' ((htables.map _).nodup hreading.distinct) fun i hi ↦ ?_
  obtain ⟨t, ht, hdeclared⟩ := hreading.declared i ((hperm.filterMap _).mem_iff.2 hi)
  exact ⟨t, htables.mem_iff.1 ht, hdeclared⟩

/-- Blank statements do not count. -/
theorem stated_perm {blanks : List String} (hperm : statements'.Perm (statements ++ blanks))
    (hblank : ∀ b ∈ blanks, strip b.toList = []) :
    (stated statements).Perm (stated statements') := by
  have hnone : stated blanks = [] := by
    simpa [stated] using hblank
  have happend : stated (statements ++ blanks) = stated statements := by
    rw [stated, List.map_append, List.filter_append]
    exact (congrArg _ hnone).trans (List.append_nil _)
  rw [← happend]
  exact ((hperm.map _).filter _).symm

theorem isIndex_of_item? {statement : String} {i : Index} (h : item? statement = some (.index i)) :
    isIndex statement.toList = true := by
  have hread := eq_ok_of_toOption h
  rw [readItem] at hread
  split at hread
  · rw [readTableText] at hread
    split at hread
    · contradiction
    · cases Except.ok.inj hread
  · split at hread
    · assumption
    · contradiction

/-- The indices are read of the index statements alone. -/
theorem indices_eq_of_readItems {items : List Item} (h : readItems statements = .ok items) :
    indices items = indices ((statements.filter (isIndex ·.toList)).filterMap item?) := by
  rw [eq_of_readItems h, indices, indices, List.filterMap_filterMap, List.filterMap_filterMap,
    List.filterMap_filter]
  congr 1
  funext st
  split
  · rfl
  · rename_i hindex
    cases hitem : item? st with
    | none => rfl
    | some item =>
      cases item with
      | table text => rfl
      | index i => exact absurd (isIndex_of_item? hitem) hindex

/-- The order of the statements does not matter, and blank ones among them do not count: they are
read or not regardless, and the tables that are read are the same but for the order of their indices
and of their unique constraints. They are the same outright if the index statements stay in their
order. -/
theorem parse_reordered {blanks : List String} (hperm : statements'.Perm (statements ++ blanks))
    (hblank : ∀ b ∈ blanks, strip b.toList = []) :
    ((∃ s, parse statements = .ok s) ↔ ∃ s', parse statements' = .ok s') ∧
      ∀ s s', parse statements = .ok s → parse statements' = .ok s' →
        (∀ k : String, Option.Rel Table.Rearranged s[k]? s'[k]?) ∧
          (statements.filter (isIndex ·.toList) = statements'.filter (isIndex ·.toList) →
            s = s') := by
  have hstated := stated_perm hperm hblank
  refine ⟨⟨fun ⟨_, h⟩ ↦ exists_parse_of_perm hstated h,
    fun ⟨_, h⟩ ↦ exists_parse_of_perm hstated.symm h⟩,
    fun s s' h h' ↦ ?_⟩
  obtain ⟨items, ts, hitems, hreading⟩ := exists_of_parse h
  obtain ⟨items', ts', hitems', hreading'⟩ := exists_of_parse h'
  have hperm : items.Perm items' := perm_of_mapM hstated hitems hitems'
  have htables : ts.Perm ts' := perm_of_mapM (hperm.filterMap _) hreading.built hreading'.built
  -- The tables are found under their names in either order, so only their indices can differ.
  have hfind (k : String) := find?_eq_of_perm hreading.distinct htables k
  refine ⟨fun k ↦ ?_, fun hindices ↦ Std.ExtTreeMap.ext_getElem? fun k ↦ ?_⟩
  · rw [hreading.lookup, hreading'.lookup, ← hfind]
    cases ts.find? (·.name == k) with
    | none => exact .none
    | some t => exact .some (t.rearranged_registerIndices ((hperm.filterMap _).filter _))
  · rw [hreading.lookup, hreading'.lookup, ← hfind, indices_eq_of_readItems hitems,
      indices_eq_of_readItems hitems', hindices]

/-- A table, and two unique indices on a column of it. -/
def bookings : List String :=
  ["CREATE TABLE bookings (room INT64, day DATE) PRIMARY KEY (room)",
    "CREATE UNIQUE INDEX by_day ON bookings (day)",
    "CREATE UNIQUE INDEX by_room_day ON bookings (room, day)"]

/-- The table may come after its indices, and the indices in another order. -/
theorem bookings_reordered :
    ∃ s s', parse bookings = .ok s ∧ parse (bookings.rotate 1 ++ [" \n"]) = .ok s ∧
      parse bookings.reverse = .ok s' ∧ ∀ k : String, Option.Rel Table.Rearranged s[k]? s'[k]? := by
  have hrotated : (bookings.rotate 1 ++ [" \n"]).Perm (bookings ++ [" \n"]) :=
    (List.rotate_perm _ _).append_right _
  have hreversed : bookings.reverse.Perm (bookings ++ []) :=
    (List.reverse_perm _).trans (.of_eq (List.append_nil _).symm)
  have hsome : (parse bookings).toOption.isSome = true := by decide +kernel
  obtain ⟨s, hs⟩ := Option.isSome_iff_exists.1 hsome
  have hs := eq_ok_of_toOption hs
  obtain ⟨hiff, hrotate⟩ := parse_reordered hrotated (by decide)
  obtain ⟨hiff', hreverse⟩ := parse_reordered hreversed (by decide)
  obtain ⟨t, ht⟩ := hiff.1 ⟨s, hs⟩
  obtain ⟨s', hs'⟩ := hiff'.1 ⟨s, hs⟩
  obtain rfl := (hrotate s t hs ht).2 (by decide +kernel)
  exact ⟨s, s', hs, ht, hs', (hreverse s s' hs hs').1⟩

end Dump

end SchemaLedger
