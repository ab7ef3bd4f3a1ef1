import Mathlib
import SchemaLedger.Table.Difference

/-!
# What a difference between tables is

The comparison sorts the indices of both tables by their names and goes through the columns side by
side. What it decides has nothing of that: two tables do not differ if they agree, column by column
and up to the order of their indices. Indices of one name are sorted by where they stand, so this
takes names that are distinct within a table.

To agree is no equivalence: a column that is generated as UUID agrees with one that is counted up
and with one that is not generated, and these two do not agree with each other.
-/

namespace SchemaLedger

/-! ## Columns -/

namespace Column

/-- The columns are the same, but for where the values come from if either side says UUID. -/
@[mk_iff]
structure Agrees (c d : Column) : Prop where
  fields : { c with generation := d.generation } = d
  generation : c.generation ≠ some .uuid → d.generation ≠ some .uuid → c.generation = d.generation

instance (c d : Column) : Decidable (c.Agrees d) := decidable_of_iff _ (agrees_iff c d).symm

variable {c d : Column}

theorem withoutGeneration_eq_iff :
    c.withoutGeneration = d.withoutGeneration ↔ { c with generation := d.generation } = d := by
  constructor
  · intro h
    exact congrArg (fun x : Column ↦ { x with generation := d.generation }) h
  · intro h
    rw [← h]
    rfl

theorem differs_eq_false_iff : c.differs d = false ↔ c.Agrees d := by
  have hgeneration :
      (c.generation != some .uuid && d.generation != some .uuid && c.generation != d.generation) =
        false ↔
        (c.generation ≠ some .uuid → d.generation ≠ some .uuid → c.generation = d.generation) := by
    rw [Bool.eq_false_iff, Ne, Bool.and_eq_true, Bool.and_eq_true, bne_iff_ne, bne_iff_ne,
      bne_iff_ne]
    tauto
  rw [differs, Bool.or_eq_false_iff, bne_eq_false_iff_eq, withoutGeneration_eq_iff, hgeneration,
    agrees_iff]

theorem Agrees.refl (c : Column) : c.Agrees c := ⟨rfl, fun _ _ ↦ rfl⟩

theorem Agrees.symm (h : c.Agrees d) : d.Agrees c :=
  ⟨withoutGeneration_eq_iff.1 (withoutGeneration_eq_iff.2 h.fields).symm,
    fun hd hc ↦ (h.generation hc hd).symm⟩

example :
    let plain : Column := { name := "id", type := .string }
    let random := { plain with generation := some .uuid }
    let counted := { plain with generation := some .increment }
    plain.Agrees random ∧ random.Agrees counted ∧ ¬plain.Agrees counted := by
  decide

end Column

/-! ## Indices -/

namespace Table

theorem sortedIndices_perm (t : Table) : t.sortedIndices.Perm t.indices := List.mergeSort_perm ..

theorem pairwise_sortedIndices (t : Table) :
    t.sortedIndices.Pairwise fun i j ↦ i.name ≤ j.name := by
  have htrans (i j k : Index) (hij : !decide (j.name < i.name)) (hjk : !decide (k.name < j.name)) :
      !decide (k.name < i.name) := by
    simp only [Bool.not_eq_true', decide_eq_false_iff_not, not_lt] at hij hjk ⊢
    exact hij.trans hjk
  have htotal (i j : Index) : !decide (j.name < i.name) || !decide (i.name < j.name) := by
    simp only [Bool.or_eq_true, Bool.not_eq_true', decide_eq_false_iff_not, not_lt]
    exact le_total i.name j.name
  have hsorted : t.sortedIndices.Pairwise fun i j ↦ !decide (j.name < i.name) :=
    List.pairwise_mergeSort htrans htotal t.indices
  exact hsorted.imp fun h ↦ by
    simpa only [Bool.not_eq_true', decide_eq_false_iff_not, not_lt] using h

/-- Indices with distinct names are sorted into one order, whichever they came in. -/
theorem sortedIndices_eq_iff {t u : Table} (hdistinct : (t.indices.map (·.name)).Nodup) :
    t.sortedIndices = u.sortedIndices ↔ t.indices.Perm u.indices := by
  constructor
  · intro h
    exact t.sortedIndices_perm.symm.trans (h ▸ u.sortedIndices_perm)
  · intro h
    have hperm : t.sortedIndices.Perm u.sortedIndices :=
      t.sortedIndices_perm.trans (h.trans u.sortedIndices_perm.symm)
    refine hperm.eq_of_pairwise (fun i j hi hj hij hji ↦ ?_) t.pairwise_sortedIndices
      u.pairwise_sortedIndices
    -- The order says no more than that the names are equal; that they are distinct says the rest.
    exact List.inj_on_of_nodup_map hdistinct (t.sortedIndices_perm.mem_iff.1 hi)
      (h.mem_iff.2 (u.sortedIndices_perm.mem_iff.1 hj)) (le_antisymm hij hji)

/-! ## Tables -/

/-- The tables are the same up to the order of their indices, what only repeats other parts, and the
generation of columns for which either side says UUID. -/
@[mk_iff]
structure Agrees (t u : Table) : Prop where
  name : t.name = u.name
  primaryKey : t.primaryKey = u.primaryKey
  interleave : t.interleave = u.interleave
  columns : List.Forall₂ Column.Agrees t.columns u.columns
  indices : t.indices.Perm u.indices

instance (t u : Table) : Decidable (t.Agrees u) := decidable_of_iff _ (agrees_iff t u).symm

variable {t u : Table}

theorem any_differs_zip_eq_false_iff {cs ds : List Column} :
    (cs.zip ds).any (fun p ↦ p.1.differs p.2) = false ↔ ∀ p ∈ cs.zip ds, p.1.Agrees p.2 := by
  simp only [List.any_eq_false, Bool.not_eq_true, Column.differs_eq_false_iff]

theorem differs_eq_false_iff_sorted :
    t.differs u = false ↔
    t.name = u.name ∧ t.primaryKey = u.primaryKey ∧ t.interleave = u.interleave ∧
      List.Forall₂ Column.Agrees t.columns u.columns ∧ t.sortedIndices = u.sortedIndices := by
  rw [differs, List.forall₂_iff_zip]
  simp only [Bool.or_eq_false_iff, bne_eq_false_iff_eq, any_differs_zip_eq_false_iff, Prod.forall]
  tauto

theorem differs_eq_false_iff (hdistinct : (t.indices.map (·.name)).Nodup) :
    t.differs u = false ↔ t.Agrees u := by
  rw [differs_eq_false_iff_sorted, sortedIndices_eq_iff hdistinct, agrees_iff]

theorem differs_self (t : Table) : t.differs t = false :=
  differs_eq_false_iff_sorted.2 ⟨rfl, rfl, rfl, List.forall₂_same.2 fun c _ ↦ .refl c, rfl⟩

theorem differs_comm (t u : Table) : t.differs u = u.differs t := by
  have hsymm {t u : Table} (h : t.differs u = false) : u.differs t = false := by
    obtain ⟨hname, hkey, hinterleave, hcolumns, hindices⟩ := differs_eq_false_iff_sorted.1 h
    exact differs_eq_false_iff_sorted.2 ⟨hname.symm, hkey.symm, hinterleave.symm,
      (hcolumns.imp fun _ _ ↦ Column.Agrees.symm).flip, hindices.symm⟩
  rw [Bool.eq_iff_iff, ← not_iff_not, Bool.not_eq_true, Bool.not_eq_true]
  exact ⟨hsymm, hsymm⟩

/-- The order of the indices does not count. -/
theorem agrees_reordered_iff {is js : List Index} (hi : t.indices.Perm is)
    (hj : u.indices.Perm js) :
    { t with indices := is }.Agrees { u with indices := js } ↔ t.Agrees u :=
  ⟨fun h ↦ ⟨h.name, h.primaryKey, h.interleave, h.columns, hi.trans (h.indices.trans hj.symm)⟩,
    fun h ↦ ⟨h.name, h.primaryKey, h.interleave, h.columns, hi.symm.trans (h.indices.trans hj)⟩⟩

/-- A table whose indices have distinct names does not differ from those with which it agrees, and
from no others. So it does not matter which of two is asked about the other, nor in which order
their indices stand, and no table differs from itself. -/
theorem differs_iff_not_agrees (hdistinct : (t.indices.map (·.name)).Nodup) :
    (t.differs u = false ↔ t.Agrees u) ∧ t.differs u = u.differs t ∧ t.differs t = false ∧
      ∀ is js : List Index, t.indices.Perm is → u.indices.Perm js →
        { t with indices := is }.differs { u with indices := js } = t.differs u := by
  refine ⟨differs_eq_false_iff hdistinct, differs_comm t u, differs_self t, fun is js hi hj ↦ ?_⟩
  have his : (is.map (·.name)).Nodup := (hi.map _).nodup hdistinct
  rw [Bool.eq_iff_iff, ← not_iff_not, Bool.not_eq_true, Bool.not_eq_true,
    differs_eq_false_iff (t := { t with indices := is }) his, differs_eq_false_iff hdistinct]
  exact agrees_reordered_iff hi hj

/-- Parcels as the application declares them. -/
def parcels : Table where
  name := "parcel"
  columns :=
    [{ name := "id", type := .string, nullable := false, length := some (.size 36),
       isPrimary := true, generation := some .uuid },
      { name := "depot", type := .int64, isUnique := true, defaultValue := some (.expression "7") }]
  primaryKey := ["id"]
  indices :=
    [{ name := "uq_parcel_depot", table := "parcel", columns := [⟨"depot", .asc⟩], unique := true },
      { name := "by_depot", table := "parcel", columns := [⟨"depot", .desc⟩, ⟨"id", .asc⟩] }]
  uniques := [⟨"uq_parcel_depot", ["depot"]⟩]
  interleave := some ⟨"people", true⟩

/-- The same parcels as a dump shows them: nothing is said of how the key is made, and indices come
by name. -/
def dumpedParcels : Table :=
  { parcels with
    columns := parcels.columns.map fun c ↦ { c with generation := none }
    indices := parcels.indices.reverse
    uniques := [] }

theorem parcels_do_not_differ :
    (parcels.indices.map (·.name)).Nodup ∧ parcels.Agrees dumpedParcels ∧
    parcels.differs dumpedParcels = false ∧
      dumpedParcels.differs parcels = false ∧
      { parcels with indices := parcels.indices.reverse }.differs
        { dumpedParcels with primaryKey := [] } = true := by
  have hdistinct : (parcels.indices.map (·.name)).Nodup := by decide
  have hagrees : parcels.Agrees dumpedParcels := by decide
  have hother : ¬parcels.Agrees { dumpedParcels with primaryKey := [] } := by decide
  obtain ⟨hiff, hcomm, -, -⟩ := differs_iff_not_agrees (u := dumpedParcels) hdistinct
  obtain ⟨hiff', -, -, hreordered⟩ :=
    differs_iff_not_agrees (u := { dumpedParcels with primaryKey := [] }) hdistinct
  have hdiffers := hiff.2 hagrees
  refine ⟨hdistinct, hagrees, hdiffers, hcomm ▸ hdiffers, ?_⟩
  rw [hreordered _ _ (List.reverse_perm _).symm (.refl _), ← Bool.not_eq_false, hiff']
  exact hother

end Table

end SchemaLedger
