import Mathlib
import SchemaLedger.Identifier.Derived

/-!
# Names of indices that were declared without one

A derived name fits in 128 bytes whatever characters its parts have. Where its parts joined by
underscores fit, they are the name. Otherwise the kind and the table are cut to 111 bytes, which
ends with a whole character and may leave less, and an underscore and sixteen digits follow.
-/

namespace SchemaLedger.Identifier

open String (utf8Len)

/-! ## Cutting a text -/

/-- What is kept of a text: the longest run of whole characters in front that fits in a number of
bytes. -/
structure IsCut (room : Nat) (text kept : String) : Prop where
  starts : kept.toList <+: text.toList
  fits : kept.utf8ByteSize ≤ room
  longest : ∀ other : String, other.toList <+: text.toList → other.utf8ByteSize ≤ room →
    other.toList <+: kept.toList

theorem starts_append (s t : String) : s.toList <+: (s ++ t).toList := by
  rw [String.toList_append]
  exact List.prefix_append _ _

theorem takeBytes_starts (room : Nat) (cs : List Char) : takeBytes room cs <+: cs := by
  induction cs generalizing room with
  | nil => exact List.prefix_refl []
  | cons c cs ih =>
    rw [takeBytes]
    split
    · exact List.cons_prefix_cons.2 ⟨rfl, ih _⟩
    · exact List.nil_prefix

theorem utf8Len_takeBytes_le (room : Nat) (cs : List Char) :
    utf8Len (takeBytes room cs) ≤ room := by
  induction cs generalizing room with
  | nil => exact Nat.zero_le room
  | cons c cs ih =>
    rw [takeBytes]
    split
    · have hrest := ih (room - c.utf8Size)
      rw [String.utf8Len_cons]
      omega
    · exact Nat.zero_le room

theorem starts_takeBytes {room : Nat} {ds cs : List Char} (h : ds <+: cs)
    (hroom : utf8Len ds ≤ room) :
    ds <+: takeBytes room cs := by
  induction ds generalizing room cs with
  | nil => exact List.nil_prefix
  | cons d ds ih =>
    obtain ⟨rest, rfl⟩ := h
    rw [String.utf8Len_cons] at hroom
    rw [List.cons_append, takeBytes, if_pos (by omega)]
    exact List.cons_prefix_cons.2 ⟨rfl, ih (List.prefix_append ds rest) (by omega)⟩

theorem isCut_takeBytes (room : Nat) (text : String) :
    IsCut room text (String.ofList (takeBytes room text.toList)) where
  starts := String.toList_ofList ▸ takeBytes_starts room text.toList
  fits := String.utf8ByteSize_ofList _ ▸ utf8Len_takeBytes_le room text.toList
  longest := by
    intro other hstarts hfits
    rw [← String.ofList_toList (s := other), String.utf8ByteSize_ofList] at hfits
    rw [String.toList_ofList]
    exact starts_takeBytes hstarts hfits

/-! ## The digits of a hash -/

theorem take_hex (n : Nat) (bs : List UInt8) :
    (Digest.hex bs).take (2 * n) = Digest.hex (bs.take n) := by
  induction bs generalizing n with
  | nil =>
    rw [Digest.hex, List.flatMap_nil, List.take_nil, List.take_nil, Digest.hex, List.flatMap_nil]
  | cons b bs ih =>
    cases n with
    | zero => rfl
    | succ n =>
      rw [List.take_succ_cons, Digest.hex, List.flatMap_cons, Nat.mul_succ]
      change Digest.hexDigit _ :: Digest.hexDigit _ :: (Digest.hex bs).take (2 * n) = _
      rw [ih]
      rfl

/-- The digits are the first sixteen of those of the whole hash. -/
theorem shortHash_eq (text : String) :
    shortHash text =
      String.ofList ((Digest.hex (Digest.Sha256.digest text.toUTF8.toList)).take 16) := by
  rw [shortHash, ← take_hex]

theorem length_shortHash (text : String) : (shortHash text).toList.length = 16 := by
  rw [shortHash, String.toList_ofList, Digest.length_hex, List.length_take,
    Digest.Sha256.length_digest]
  rfl

theorem utf8Len_hex (bs : List UInt8) : utf8Len (Digest.hex bs) = 2 * bs.length := by
  have hdigit : ∀ n < 16, (Digest.hexDigit n).utf8Size = 1 := by decide
  induction bs with
  | nil => rfl
  | cons b bs ih =>
    have hb : b.toNat < 256 := b.toNat_lt
    rw [Digest.hex, List.flatMap_cons, String.utf8Len_append]
    change utf8Len [_, _] + utf8Len (Digest.hex bs) = _
    rw [ih, String.utf8Len_cons, String.utf8Len_cons, String.utf8Len_nil, hdigit _ (by omega),
      hdigit _ (by omega), List.length_cons]
    omega

theorem utf8ByteSize_shortHash (text : String) : (shortHash text).utf8ByteSize = 16 := by
  rw [shortHash, String.utf8ByteSize_ofList, utf8Len_hex, List.length_take,
    Digest.Sha256.length_digest]
  rfl

/-! ## The two kinds of names -/

section

variable {table : String} {columns : List String} {unique : Bool}

/-- Kind, table and each of the columns, joined by underscores. -/
theorem fullIndexName_eq_intercalate (h : columns ≠ []) :
    fullIndexName table columns unique =
      "_".intercalate (indexPrefix unique :: table :: columns) := by
  rw [String.intercalate_cons_cons, String.intercalate_cons_of_ne_nil h, fullIndexName]
  simp only [String.append_assoc]

theorem indexName_of_fits (h : (fullIndexName table columns unique).utf8ByteSize ≤ maxLength) :
    indexName table columns unique = fullIndexName table columns unique :=
  if_pos h

/-- A longer name is cut to what leaves room for the digits. -/
theorem indexName_of_not_fits (h : ¬(fullIndexName table columns unique).utf8ByteSize ≤ maxLength) :
    indexName table columns unique =
      String.ofList (takeBytes 111 (indexPrefix unique ++ "_" ++ table).toList) ++ "_" ++
        shortHash (fullIndexName table columns unique) := by
  rw [indexName]
  dsimp only
  rw [if_neg h, utf8ByteSize_shortHash]
  rfl

/-- The kind and the underscore behind it are never cut. -/
theorem starts_takeBytes_indexPrefix (table : String) (unique : Bool) :
    (indexPrefix unique ++ "_").toList <+: takeBytes 111
      (indexPrefix unique ++ "_" ++ table).toList := by
  refine starts_takeBytes (starts_append _ table) ?_
  cases unique <;> decide

end

/-- For every table, every list of columns and either kind: the name fits in 128 bytes and starts
with the kind. It is kind, table and columns joined by underscores if that fits, and otherwise as
much of kind and table as fits in 111 bytes, an underscore and the first sixteen digits of the hash
of the full name. -/
theorem indexName_fits (table : String) (columns : List String) (unique : Bool) :
    (indexName table columns unique).utf8ByteSize ≤ 128 ∧
    (indexPrefix unique ++ "_").toList <+: (indexName table columns unique).toList ∧
    (columns ≠ [] →
      fullIndexName table columns unique =
        "_".intercalate (indexPrefix unique :: table :: columns)) ∧
    if (fullIndexName table columns unique).utf8ByteSize ≤ 128 then
      indexName table columns unique =
        "_".intercalate [indexPrefix unique, table, "_".intercalate columns]
    else
      ∃ head : String, IsCut 111 ("_".intercalate [indexPrefix unique, table]) head ∧
        indexName table columns unique = head ++ "_" ++ String.ofList ((Digest.hex
          (Digest.Sha256.digest (fullIndexName table columns unique).toUTF8.toList)).take 16) := by
  have hjoined : "_".intercalate [indexPrefix unique, table, "_".intercalate columns] =
      fullIndexName table columns unique := by
    rw [String.intercalate_cons_cons, String.intercalate_cons_cons, String.intercalate_singleton,
      fullIndexName]
    simp only [String.append_assoc]
  have hhead : "_".intercalate [indexPrefix unique,
      table] = indexPrefix unique ++ "_" ++ table := by
    rw [String.intercalate_cons_cons, String.intercalate_singleton]
  rw [hjoined, hhead, ← shortHash_eq]
  by_cases hfits : (fullIndexName table columns unique).utf8ByteSize ≤ 128
  · rw [if_pos hfits, indexName_of_fits hfits]
    refine ⟨hfits, ?_, fullIndexName_eq_intercalate, rfl⟩
    rw [fullIndexName]
    exact (starts_append _ table).trans ((starts_append _ "_").trans (starts_append _ _))
  · have hcut := isCut_takeBytes 111 (indexPrefix unique ++ "_" ++ table)
    rw [if_neg hfits, indexName_of_not_fits hfits]
    refine ⟨?_, ?_, fullIndexName_eq_intercalate, _, hcut, rfl⟩
    · have hroom := hcut.fits
      have hunderscore : "_".utf8ByteSize = 1 := by decide
      rw [String.utf8ByteSize_append, String.utf8ByteSize_append, utf8ByteSize_shortHash,
        hunderscore]
      omega
    · have hkind := starts_takeBytes_indexPrefix table unique
      rw [← String.toList_ofList (l := takeBytes _ _)] at hkind
      exact hkind.trans ((starts_append _ "_").trans (starts_append _ _))

end SchemaLedger.Identifier
