import Mathlib
import SchemaLedger.Identifier.Derived
import SchemaLedger.Proofs.Text.Scanning

/-!
# Characters of derived names

The name of an index that was declared without one is made of the characters of its table and its
columns, of letters, digits and underscores, even where it has been cut short.
-/

namespace SchemaLedger.Identifier

open Text

theorem isAlphanum_of_mem_shortHash {text : String} {c : Char} (h : c ∈ (shortHash text).toList) :
    c.isAlphanum = true := by
  have hdigit : ∀ n < 16, (Digest.hexDigit n).isAlphanum = true := by decide
  rw [shortHash, String.toList_ofList, Digest.hex, List.mem_flatMap] at h
  obtain ⟨b, -, hc⟩ := h
  have hb : b.toNat < 256 := b.toNat_lt
  rcases List.mem_cons.1 hc with rfl | hc
  · exact hdigit _ (by omega)
  · rw [List.mem_singleton.1 hc]
    exact hdigit _ (by omega)

theorem mem_of_mem_takeBytes {room : Nat} {cs : List Char} {c : Char}
    (h : c ∈ takeBytes room cs) : c ∈ cs := by
  induction cs generalizing room with
  | nil => exact h
  | cons d cs ih =>
    rw [takeBytes] at h
    split at h
    · rcases List.mem_cons.1 h with rfl | h
      · exact List.mem_cons_self
      · exact List.mem_cons_of_mem d (ih h)
    · contradiction

section

variable {table : String} {columns : List String} {d : Char} (hd : d.isAlphanum = false)
  (hd' : d ≠ '_') (htable : d ∉ table.toList)

include hd hd' htable

theorem notMem_prefix (unique : Bool) : d ∉ (indexPrefix unique ++ "_" ++ table).toList := by
  have hkind : (indexPrefix unique).toList.all Char.isAlphanum = true := by
    cases unique <;> decide
  rw [String.toList_append, String.toList_append]
  simp only [List.mem_append, not_or]
  refine ⟨⟨fun h ↦ ?_, ?_⟩, htable⟩
  · rw [List.all_eq_true.1 hkind d h] at hd
    contradiction
  · simpa using hd'

/-- A derived name has no special character that its parts do not have. -/
theorem notMem_indexName (hcolumns : ∀ n ∈ columns, d ∉ n.toList) (unique : Bool) :
    d ∉ (indexName table columns unique).toList := by
  have hjoin : d ∉ ("_".intercalate columns).toList := by
    rw [String.toList_intercalate]
    refine notMem_intercalate (by simpa using hd') fun x hx ↦ ?_
    obtain ⟨n, hn, rfl⟩ := List.mem_map.1 hx
    exact hcolumns n hn
  have hhead := notMem_prefix hd hd' htable unique
  unfold indexName
  dsimp only
  split
  · rw [fullIndexName, String.toList_append, String.toList_append]
    simp only [List.mem_append, not_or]
    exact ⟨⟨hhead, by simpa using hd'⟩, hjoin⟩
  · rw [String.toList_append, String.toList_append, String.toList_ofList]
    simp only [List.mem_append, not_or]
    refine ⟨⟨fun h ↦ hhead (mem_of_mem_takeBytes h), by simpa using hd'⟩, fun h ↦ ?_⟩
    rw [isAlphanum_of_mem_shortHash h] at hd
    contradiction

end

theorem indexName_ne_empty (table : String) (columns : List String) (unique : Bool) :
    indexName table columns unique ≠ "" := by
  intro h
  have hunderscore : '_' ∈ (indexName table columns unique).toList := by
    unfold indexName
    dsimp only
    split
    · rw [fullIndexName, String.toList_append, String.toList_append, List.mem_append,
        List.mem_append]
      exact Or.inl (Or.inr (by decide))
    · rw [String.toList_append, String.toList_append, List.mem_append, List.mem_append]
      exact Or.inl (Or.inr (by decide))
  rw [h] at hunderscore
  contradiction

end SchemaLedger.Identifier
