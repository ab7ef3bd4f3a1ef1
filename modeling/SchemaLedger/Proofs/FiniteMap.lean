import Mathlib
import Std.Data.ExtTreeMap

/-!
# Finite maps

The values of a finite map are those of its entries, in the order of the keys.
-/

namespace SchemaLedger

open Std

variable {α β γ : Type} {cmp : α → α → Ordering} [TransCmp cmp]

theorem values_eq (t : ExtTreeMap α β cmp) : t.values = t.toList.map Prod.snd := by
  have hfold : t.values = t.foldr (fun _ v l ↦ v :: l) [] := by
    obtain ⟨m⟩ := t
    exact m.inductionOn fun _ ↦ rfl
  rw [hfold, ExtTreeMap.foldr_eq_foldr_toList]
  induction t.toList with
  | nil => rfl
  | cons p ps ih => rw [List.foldr_cons, ih, List.map_cons]

theorem mem_values [LawfulEqCmp cmp] {t : ExtTreeMap α β cmp} {v : β} :
    v ∈ t.values ↔ ∃ k : α, t[k]? = some v := by
  rw [values_eq, List.mem_map]
  constructor
  · rintro ⟨⟨k, v⟩, h, rfl⟩
    exact ⟨k, ExtTreeMap.mem_toList_iff_getElem?_eq_some.1 h⟩
  · rintro ⟨k, h⟩
    exact ⟨(k, v), ExtTreeMap.mem_toList_iff_getElem?_eq_some.2 h, rfl⟩

/-- To erase what is not there changes nothing. -/
theorem erase_eq_self [LawfulEqCmp cmp] {t : ExtTreeMap α β cmp} {k : α} (h : t[k]? = none) :
    t.erase k = t := by
  refine ExtTreeMap.ext_getElem? fun a ↦ ?_
  rw [ExtTreeMap.getElem?_erase]
  split
  · rename_i ha
    rw [← LawfulEqCmp.compare_eq_iff_eq.1 ha, h]
  · rfl

/-- To change what is there is to put something in its place. -/
theorem modify_eq_insert [LawfulEqCmp cmp] {t : ExtTreeMap α β cmp} {k : α} {v : β}
    (h : t[k]? = some v) (f : β → β) :
    t.modify k f = t.insert k (f v) := by
  refine ExtTreeMap.ext_getElem? fun a ↦ ?_
  rw [ExtTreeMap.getElem?_modify, ExtTreeMap.getElem?_insert, h]
  split <;> rfl

/-- Names that keys have by themselves are distinct. -/
theorem nodup_map_values [LawfulEqCmp cmp] {t : ExtTreeMap α β cmp} {name : β → α}
    (h : ∀ k v, t[k]? = some v → name v = k) : (t.values.map name).Nodup := by
  have hkeys : t.values.map name = t.keys := by
    rw [values_eq, List.map_map, ← ExtTreeMap.map_fst_toList_eq_keys]
    refine List.map_congr_left fun p hp ↦ ?_
    exact h p.1 p.2 (ExtTreeMap.mem_toList_iff_getElem?_eq_some.1 hp)
  rw [hkeys]
  refine (ExtTreeMap.distinct_keys (t := t)).imp fun hne e ↦ hne ?_
  rw [e]
  exact ReflCmp.compare_self

end SchemaLedger
