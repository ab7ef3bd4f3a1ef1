import Mathlib
import SchemaLedger.Proofs.Identifier.Derived
import SchemaLedger.Proofs.Identifier.IndexName

/-!
# Derived names that are alike

Indices that are declared without names get names that are joined by underscores, and an underscore
may also be a part of what is joined. So two declarations have one name if they spell the same text,
and a name that fits may be what a longer one has been cut to. As far as hashes are distinct, names
are alike in no other way. Neither happens to names without underscores, if no column is called by
sixteen hexadecimal digits.
-/

namespace SchemaLedger

open Identifier

theorem Identifier.indexPrefix_inj : ∀ b b' : Bool, indexPrefix b = indexPrefix b' →
    b = b' := by decide

/-- An index that is declared without a name. -/
@[ext]
structure Unnamed where
  table : String
  columns : List String
  unique : Bool
  deriving DecidableEq, Repr

namespace Unnamed

/-- The name that it gets. -/
def name (d : Unnamed) : String := indexName d.table d.columns d.unique

/-- Kind, table and columns, joined by underscores. -/
def full (d : Unnamed) : String := fullIndexName d.table d.columns d.unique

/-- What is kept of kind and table where the full name is too long. -/
def head (d : Unnamed) : String :=
  String.ofList (takeBytes 111 (indexPrefix d.unique ++ "_" ++ d.table).toList)

/-- The full name is not too long. -/
def Fits (d : Unnamed) : Prop := d.full.utf8ByteSize ≤ 128

/-- They spell the same text, and where it is too long the same is kept of it. -/
def Alike (d e : Unnamed) : Prop := d.full = e.full ∧ (d.Fits ∨ d.head = e.head)

/-- The full name of the one fits, and is what that of the other is cut to. -/
def Masks (d e : Unnamed) : Prop := d.Fits ∧ ¬e.Fits ∧ d.full = e.name

variable {d e : Unnamed}

theorem name_of_fits (h : d.Fits) : d.name = d.full := indexName_of_fits h

theorem name_of_not_fits (h : ¬d.Fits) : d.name = d.head ++ "_" ++ shortHash d.full := by
  rw [name, head, full]
  exact indexName_of_not_fits h

theorem fits_congr (h : d.full = e.full) : d.Fits ↔ e.Fits := by rw [Fits, Fits, h]

/-- What has been cut ends with sixteen digits, so the digits of equal names are equal. -/
theorem eq_of_cut_eq (hd : ¬d.Fits) (he : ¬e.Fits) (h : d.name = e.name) :
    d.head = e.head ∧ shortHash d.full = shortHash e.full := by
  rw [name_of_not_fits hd, name_of_not_fits he] at h
  have hlists : (d.head ++ "_").toList ++ (shortHash d.full).toList
      = (e.head ++ "_").toList ++ (shortHash e.full).toList := by
    rw [← String.toList_append, ← String.toList_append, h]
  obtain ⟨hhead, hhash⟩ := List.append_inj' hlists (by rw [length_shortHash, length_shortHash])
  rw [String.toList_append, String.toList_append] at hhead
  exact ⟨String.toList_injective (List.append_cancel_right hhead), String.toList_injective hhash⟩

/-- As far as the hash tells full names apart, names are alike in two ways only. -/
theorem name_eq_iff (hhash : shortHash d.full = shortHash e.full → d.full = e.full) :
    d.name = e.name ↔ d.Alike e ∨ d.Masks e ∨ e.Masks d := by
  by_cases hd : d.Fits <;> by_cases he : e.Fits
  · rw [name_of_fits hd, name_of_fits he]
    constructor
    · exact fun h ↦ .inl ⟨h, .inl hd⟩
    · rintro (h | h | h)
      · exact h.1
      · exact absurd he h.2.1
      · exact absurd hd h.2.1
  · constructor
    · exact fun h ↦ .inr (.inl ⟨hd, he, name_of_fits hd ▸ h⟩)
    · rintro (h | h | h)
      · exact absurd ((fits_congr h.1).1 hd) he
      · exact (name_of_fits hd).trans h.2.2
      · exact absurd h.1 he
  · constructor
    · exact fun h ↦ .inr (.inr ⟨he, hd, name_of_fits he ▸ h.symm⟩)
    · rintro (h | h | h)
      · exact absurd ((fits_congr h.1).2 he) hd
      · exact absurd h.1 hd
      · exact ((name_of_fits he).trans h.2.2).symm
  · constructor
    · intro h
      obtain ⟨hhead, hdigits⟩ := eq_of_cut_eq hd he h
      exact .inl ⟨hhash hdigits, .inr hhead⟩
    · rintro (h | h | h)
      · rw [name_of_not_fits hd, name_of_not_fits he, h.1, h.2.resolve_left hd]
      · exact absurd h.1 hd
      · exact absurd h.1 he

/-- The kinds are told apart by the first letter, whatever has been cut. -/
theorem name_ne_of_unique_ne (h : d.unique ≠ e.unique) : d.name ≠ e.name := by
  intro hname
  have hstarts (d : Unnamed) : (indexPrefix d.unique ++ "_").toList <+: d.name.toList :=
    (indexName_fits d.table d.columns d.unique).2.1
  obtain ⟨rest, hd⟩ := hstarts d
  obtain ⟨rest', he⟩ := hstarts e
  rw [hname, ← he] at hd
  refine h ?_
  cases hd' : d.unique <;> cases he' : e.unique <;> rw [hd', he'] at hd
  · exact absurd (List.cons.inj hd).1 (by decide)
  · exact absurd (List.cons.inj hd).1 (by decide)

/-! ## Names without underscores -/

/-- The text could be the digits of a hash. -/
def IsHash (text : String) : Prop :=
  text.toList.length = 16 ∧ ∀ c ∈ text.toList, c ∈ "0123456789abcdef".toList

/-- No name in it has an underscore, and no column is called like a hash. -/
structure Plain (d : Unnamed) : Prop where
  table : '_' ∉ d.table.toList
  columns : ∀ c ∈ d.columns, '_' ∉ c.toList ∧ ¬IsHash c
  nonempty : d.columns ≠ []

theorem isHash_shortHash (text : String) : IsHash (shortHash text) := by
  have hdigit : ∀ n < 16, Digest.hexDigit n ∈ "0123456789abcdef".toList := by decide
  refine ⟨length_shortHash text, fun c hc ↦ ?_⟩
  rw [shortHash, String.toList_ofList, Digest.hex, List.mem_flatMap] at hc
  obtain ⟨b, -, hc⟩ := hc
  have hb : b.toNat < 256 := b.toNat_lt
  rcases List.mem_cons.1 hc with rfl | hc
  · exact hdigit _ (by omega)
  · rw [List.mem_singleton.1 hc]
    exact hdigit _ (by omega)

/-- Texts without underscores can be told from what they are joined to. -/
theorem parts_inj {xs ys : List String} (hxs : ∀ x ∈ xs, '_' ∉ x.toList)
    (hys : ∀ y ∈ ys, '_' ∉ y.toList)
    (hne : xs ≠ []) (hne' : ys ≠ []) (h : "_".intercalate xs = "_".intercalate ys) : xs = ys := by
  have hsplit {zs : List String} (hzs : ∀ z ∈ zs, '_' ∉ z.toList) (hne : zs ≠ []) :
      ("_".intercalate zs).toList.splitOn '_' = zs.map String.toList := by
    rw [String.toList_intercalate]
    refine List.splitOn_intercalate '_' ?_ (by simpa using hne)
    exact List.forall_mem_map.2 hzs
  have hlists := hsplit hxs hne
  rw [h, hsplit hys hne'] at hlists
  exact (List.map_injective_iff.2 (fun _ _ hsame ↦ String.toList_injective hsame) hlists).symm

namespace Plain

theorem notMem_parts (h : d.Plain) :
    ∀ x ∈ indexPrefix d.unique :: d.table :: d.columns, '_' ∉ x.toList := by
  refine List.forall_mem_cons.2 ⟨?_,
    List.forall_mem_cons.2 ⟨h.table, fun c hc ↦ (h.columns c hc).1⟩⟩
  cases d.unique <;> decide

theorem full_eq (h : d.Plain) :
    d.full = "_".intercalate (indexPrefix d.unique :: d.table :: d.columns) :=
  fullIndexName_eq_intercalate h.nonempty

/-- What a name is cut to is the kind, what is left of the table, and digits. -/
theorem exists_cut (h : d.Plain) (hd : ¬d.Fits) :
    ∃ kept : String, '_' ∉ kept.toList ∧
      d.name = "_".intercalate [indexPrefix d.unique, kept, shortHash d.full] := by
  obtain ⟨rest, hrest⟩ := starts_takeBytes_indexPrefix d.table d.unique
  have hkept : rest <+: d.table.toList := by
    have hstarts := takeBytes_starts 111 (indexPrefix d.unique ++ "_" ++ d.table).toList
    rw [← hrest, String.toList_append (s := indexPrefix d.unique ++ "_")] at hstarts
    exact (List.prefix_append_right_inj _).1 hstarts
  have hhead : d.head = indexPrefix d.unique ++ "_" ++ String.ofList rest := by
    rw [head, ← hrest, String.ofList_append, String.ofList_toList]
  refine ⟨String.ofList rest, ?_, ?_⟩
  · rw [String.toList_ofList]
    exact fun hmem ↦ h.table (hkept.subset hmem)
  · rw [name_of_not_fits hd, hhead, String.intercalate_cons_cons, String.intercalate_cons_cons,
      String.intercalate_singleton]
    simp only [String.append_assoc]

/-- A name that has been cut does not look like one that fits. -/
theorem not_masks (h : d.Plain) (h' : e.Plain) : ¬d.Masks e := by
  rintro ⟨-, he, hfull⟩
  obtain ⟨kept, hkept, hname⟩ := h'.exists_cut he
  have hkind : '_' ∉ (indexPrefix e.unique).toList := by cases e.unique <;> decide
  have hhash : '_' ∉ (shortHash e.full).toList := fun hmem ↦
    absurd (isAlphanum_of_mem_shortHash hmem) (by decide)
  have hparts := parts_inj h.notMem_parts (List.forall_mem_cons.2 ⟨hkind, List.forall_mem_cons.2
    ⟨hkept, List.forall_mem_singleton.2 hhash⟩⟩) (List.cons_ne_nil _ _) (List.cons_ne_nil _ _)
    (h.full_eq.symm.trans (hfull.trans hname))
  have hcolumns : d.columns = [shortHash e.full] := (List.cons.inj (List.cons.inj hparts).2).2
  have hmem : shortHash e.full ∈ d.columns := hcolumns ▸ List.mem_singleton_self _
  exact (h.columns _ hmem).2 (isHash_shortHash e.full)

theorem eq_of_full_eq (h : d.Plain) (h' : e.Plain) (hfull : d.full = e.full) : d = e := by
  rw [h.full_eq, h'.full_eq] at hfull
  have hparts :=
    parts_inj h.notMem_parts h'.notMem_parts (List.cons_ne_nil _ _) (List.cons_ne_nil _ _) hfull
  obtain ⟨hkind, hparts⟩ := List.cons.inj hparts
  obtain ⟨htable, hcolumns⟩ := List.cons.inj hparts
  exact Unnamed.ext htable hcolumns (indexPrefix_inj _ _ hkind)

/-- Different declarations without underscores have different names, as far as the hash tells their
full names apart. -/
theorem name_ne (h : d.Plain) (h' : e.Plain)
    (hhash : shortHash d.full = shortHash e.full → d.full = e.full)
    (hne : d ≠ e) : d.name ≠ e.name := by
  rw [ne_eq, name_eq_iff hhash]
  rintro (halike | hmasks | hmasks)
  · exact hne (h.eq_of_full_eq h' halike.1)
  · exact h.not_masks h' hmasks
  · exact h'.not_masks h hmasks

end Plain

end Unnamed

end SchemaLedger
