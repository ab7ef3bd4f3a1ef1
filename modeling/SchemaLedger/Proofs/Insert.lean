import Mathlib
import SchemaLedger.Insert
import SchemaLedger.Proofs.Program
import SchemaLedger.Proofs.Surrogate

/-!
# What completing a row does

A row that names an unknown column is refused as it is. Any other row only gets more: each column of
the table that makes values adds one if the row does not name it. Filling a column is one step, and
what the columns of a table do together is shown by going through them; here a step must not change
what the later columns find, which is why their names have to be distinct. A row that has been
completed names every column that makes values, so it is not changed again.
-/

namespace SchemaLedger

open Std

theorem Completion.get_bind {α : Type} (f : OpenRow → Completion α) (o : OpenRow) :
    (get >>= f) o = f o o :=
  rfl

namespace Column

/-! ## One column -/

/-- The number of bytes that a column draws to make its value. -/
def size (c : Column) : Nat := c.generation.elim 0 Generation.size

/-- The column makes a value where a row does not name it. -/
def fillable (c : Column) : Bool :=
  c.generation == some .increment || c.generation == some .uuid || c.defaultValue == some
    .commitTimestamp

/-- The number of bytes that a column draws for a row. -/
def sizeFor (row : Row) (c : Column) : Nat := if row.contains c.name then 0 else c.size

/-- The column makes a value for the row. -/
def fills (row : Row) (c : Column) : Bool := c.fillable && !row.contains c.name

theorem fills_iff {row : Row} {c : Column} :
    c.fills row = true ↔ c.fillable = true ∧ c.name ∉ row := by
  rw [fills, Bool.and_eq_true_iff, Bool.not_eq_true', ← Bool.not_eq_true,
    ← ExtTreeMap.mem_iff_contains]

theorem run_fill {c : Column} {supply : List UInt8} (h : c.size ≤ supply.length) :
    ∃ v, c.fill.run supply = .ok (v, supply.drop c.size) ∧ v.isSome = c.fillable := by
  obtain ⟨name, type, nullable, length, isArray, isPrimary, isUnique, defaultValue, generation⟩ := c
  have hgenerate (g : Generation) (hg : g.size ≤ supply.length) :=
    (Random.run_generate g supply).trans (if_pos hg)
  rcases generation with _ | _ | _ | generator
  case some.increment => exact ⟨_, hgenerate .increment h, rfl⟩
  case some.uuid => exact ⟨_, hgenerate .uuid h, rfl⟩
  all_goals
    rcases defaultValue with _ | text | _
    · exact ⟨none, rfl, rfl⟩
    · exact ⟨none, rfl, rfl⟩
    · exact ⟨some ColumnDefault.sentinel, rfl, rfl⟩

variable {c : Column} {o : OpenRow}

theorem complete_of_contains (h : o.row.contains c.name = true) : c.complete o = .ok [] o := by
  rw [complete, Completion.get_bind, if_pos h]
  rfl

/-- A row that does not name the column gets the value that the column makes. -/
theorem complete_of_not_contains (h : ¬o.row.contains c.name = true) {v : Option String}
    {rest : List UInt8} (hfill : c.fill.run o.supply = .ok (v, rest)) :
    c.complete o = v.elim (.ok [] ⟨o.row, rest⟩)
      fun text ↦ .ok [c.name] ⟨o.row.insert c.name (.string text), rest⟩ := by
  have hdraw : Completion.draw c.fill o = .ok v ⟨o.row, rest⟩ := by
    rw [Completion.draw, ofRandom, hfill]
    rfl
  rw [complete, Completion.get_bind, if_neg h, run_bind_of_ok hdraw]
  cases v <;> rfl

theorem size_of_not_fillable (h : c.fillable = false) : c.size = 0 := by
  obtain ⟨name, type, nullable, length, isArray, isPrimary, isUnique, defaultValue, generation⟩ := c
  rcases generation with _ | _ | _ | generator
  case some.increment => contradiction
  case some.uuid => contradiction
  all_goals rfl

theorem complete_of_not_fillable (h : c.fillable = false) : c.complete o = .ok [] o := by
  by_cases hc : o.row.contains c.name = true
  · exact complete_of_contains hc
  · have hsize := size_of_not_fillable h
    have hsupply : c.size ≤ o.supply.length := hsize ▸ Nat.zero_le _
    obtain ⟨v, hfill, hv⟩ := run_fill hsupply
    obtain rfl : v = none := Option.isNone_iff_eq_none.1 (by rw [← Option.not_isSome, hv, h]; rfl)
    rw [complete_of_not_contains hc hfill, hsize]
    rfl

end Column

/-! ## All columns -/

/-- What columns have added to a row: the values that they made, each under its own name, where the
row had none. -/
structure Addition (cs : List Column) (row row' : Row) (filled : List String) : Prop where
  kept : ∀ (name : String) (v : Json), row[name]? = some v → row'[name]? = some v
  added : ∀ name, name ∈ filled ↔ name ∈ row' ∧ name ∉ row
  filled_eq : filled = (cs.filter (·.fills row)).map (·.name)
  made : ∀ c ∈ cs, c.name ∈ filled →
    ∃ supply text rest, c.fill.run supply = .ok (some text, rest) ∧
    row'[c.name]? = some (.string text)

namespace Addition

variable {c : Column} {cs : List Column} {row row₁ row' : Row} {filled filled' : List String}

theorem mem_of_mem (h : Addition cs row row' filled) {name : String} (hname : name ∈ row) :
    name ∈ row' := by
  rw [ExtTreeMap.mem_iff_isSome_getElem?] at hname ⊢
  obtain ⟨v, hv⟩ := Option.isSome_iff_exists.1 hname
  rw [h.kept name v hv]
  rfl

theorem mem_map_name (h : Addition cs row row' filled) {name : String} (hname : name ∈ filled) :
    name ∈ cs.map (·.name) := by
  rw [h.filled_eq] at hname
  exact List.map_subset _ (List.filter_subset_self cs) hname

/-- Columns that make no value for the row add nothing. -/
theorem nothing (h : ∀ c ∈ cs, c.fills row = false) : Addition cs row row [] where
  kept := fun _ _ hv ↦ hv
  added := fun name ↦ iff_of_false List.not_mem_nil fun h ↦ h.2 h.1
  filled_eq := by
    rw [List.filter_eq_nil_iff.2 fun c hc ↦ Bool.not_eq_true _ ▸ h c hc]
    rfl
  made := fun c _ hc ↦ absurd hc List.not_mem_nil

theorem insert (h : c.fills row = true) {supply rest : List UInt8} {text : String}
    (hfill : c.fill.run supply = .ok (some text, rest)) :
    Addition [c] row (row.insert c.name (.string text)) [c.name] where
  kept := by
    intro name v hv
    have hname : c.name ≠ name := by
      rintro rfl
      refine (Column.fills_iff.1 h).2 (ExtTreeMap.mem_iff_isSome_getElem?.2 ?_)
      rw [hv]
      rfl
    rw [ExtTreeMap.getElem?_insert, if_neg fun e ↦ hname (LawfulEqOrd.compare_eq_iff_eq.1 e), hv]
  added := by
    intro name
    rw [ExtTreeMap.mem_insert, LawfulEqOrd.compare_eq_iff_eq, List.mem_singleton]
    constructor
    · rintro rfl
      exact ⟨.inl rfl, (Column.fills_iff.1 h).2⟩
    · rintro ⟨hmem, hnot⟩
      exact (hmem.resolve_right hnot).symm
  filled_eq := by
    rw [List.filter_cons_of_pos h]
    rfl
  made := by
    intro d hd _
    obtain rfl := List.mem_singleton.1 hd
    exact ⟨supply, text, rest, hfill, by rw [ExtTreeMap.getElem?_insert_self]⟩

/-- Other names are as they were. -/
theorem contains_eq (h : Addition [c] row row₁ filled) {name : String} (hname : name ≠ c.name) :
    row₁.contains name = row.contains name := by
  have hfilled : name ∉ filled := fun hmem ↦ hname (List.mem_singleton.1 (h.mem_map_name hmem))
  rw [h.added, not_and_not_right] at hfilled
  rw [Bool.eq_iff_iff, ← ExtTreeMap.mem_iff_contains, ← ExtTreeMap.mem_iff_contains]
  exact ⟨hfilled, h.mem_of_mem⟩

/-- What one column adds first does not change what the others add. -/
theorem cons (h : Addition [c] row row₁ filled) (hrest : Addition cs row₁ row' filled')
    (hfresh : ∀ d ∈ cs, d.name ≠ c.name) : Addition (c :: cs) row row' (filled ++ filled') where
  kept := fun name v hv ↦ hrest.kept name v (h.kept name v hv)
  added := by
    intro name
    rw [List.mem_append, h.added, hrest.added]
    have hkept : name ∈ row → name ∈ row₁ := h.mem_of_mem
    have hkept' : name ∈ row₁ → name ∈ row' := hrest.mem_of_mem
    tauto
  filled_eq := by
    have hsame : cs.filter (·.fills row₁) = cs.filter (·.fills row) := by
      refine List.filter_congr fun d hd ↦ ?_
      rw [Column.fills, Column.fills, h.contains_eq (hfresh d hd)]
    rw [h.filled_eq, hrest.filled_eq, hsame, ← List.map_append, ← List.filter_append,
      List.singleton_append]
  made := by
    intro d hd hmem
    rcases List.mem_cons.1 hd with rfl | hd
    · have hmem : d.name ∈ filled := (List.mem_append.1 hmem).resolve_right fun hmem' ↦ by
        obtain ⟨e, he, hname⟩ := List.mem_map.1 (hrest.mem_map_name hmem')
        exact hfresh e he hname
      obtain ⟨supply, text, rest, hfill, hvalue⟩ := h.made d List.mem_cons_self hmem
      exact ⟨supply, text, rest, hfill, hrest.kept _ _ hvalue⟩
    · refine hrest.made d hd ((List.mem_append.1 hmem).resolve_left fun hmem' ↦ ?_)
      exact hfresh d hd (List.mem_singleton.1 (h.mem_map_name hmem'))

/-- The columns have nothing to add to a row that they have added to. -/
theorem settled (h : Addition cs row row' filled) : ∀ c ∈ cs, c.fills row' = false := by
  intro c hc
  by_contra hfills
  rw [Bool.not_eq_false, Column.fills_iff] at hfills
  obtain ⟨hfillable, hnot⟩ := hfills
  have hfillsRow : c.fills row = true :=
    Column.fills_iff.2 ⟨hfillable, fun hmem ↦ hnot (h.mem_of_mem hmem)⟩
  refine hnot ((h.added c.name).1 ?_).1
  rw [h.filled_eq]
  exact List.mem_map_of_mem (List.mem_filter.2 ⟨hc, hfillsRow⟩)

end Addition

namespace Column

variable {c : Column} {cs : List Column} {o : OpenRow}

/-- One step: the column draws its bytes and adds its value, unless it makes none or the row has
one. -/
theorem complete_adds (h : c.sizeFor o.row ≤ o.supply.length) :
    ∃ filled row', c.complete o = .ok filled ⟨row', o.supply.drop (c.sizeFor o.row)⟩ ∧
      Addition [c] o.row row' filled := by
  by_cases hc : o.row.contains c.name = true
  · rw [complete_of_contains hc, sizeFor, if_pos hc]
    refine ⟨[], o.row, rfl, .nothing fun d hd ↦ ?_⟩
    rw [List.mem_singleton.1 hd, fills, hc, Bool.not_true, Bool.and_false]
  · rw [sizeFor, if_neg hc] at h ⊢
    obtain ⟨v, hfill, hv⟩ := run_fill h
    have hfills : c.fills o.row = v.isSome := by
      rw [fills, Bool.eq_false_of_not_eq_true hc, ← hv, Bool.not_false, Bool.and_true]
    rw [complete_of_not_contains hc hfill]
    cases v with
    | none =>
      exact ⟨[], o.row, rfl, .nothing fun d hd ↦ List.mem_singleton.1 hd ▸ hfills⟩
    | some text => exact ⟨[c.name], _, rfl, .insert hfills hfill⟩

/-- Columns of distinct names one after another. -/
theorem mapM_complete_adds (hnames : (cs.map (·.name)).Nodup)
    (h : (cs.map (·.sizeFor o.row)).sum ≤ o.supply.length) :
    ∃ lists row', cs.mapM complete o = .ok lists ⟨row',
      o.supply.drop (cs.map (·.sizeFor o.row)).sum⟩ ∧
      Addition cs o.row row' lists.flatten := by
  induction cs generalizing o with
  | nil => exact ⟨[], o.row, rfl, .nothing fun d hd ↦ absurd hd List.not_mem_nil⟩
  | cons c cs ih =>
    rw [List.map_cons, List.nodup_cons] at hnames
    have hfresh : ∀ d ∈ cs, d.name ≠ c.name := fun d hd hname ↦
      hnames.1 (hname ▸ List.mem_map_of_mem hd)
    rw [List.map_cons, List.sum_cons] at h
    obtain ⟨filled, row₁, hc, hadds⟩ := complete_adds (c := c) (o := o) (by omega)
    have hsizes : cs.map (·.sizeFor row₁) = cs.map (·.sizeFor o.row) :=
      List.map_congr_left fun d hd ↦ by rw [sizeFor, sizeFor, hadds.contains_eq (hfresh d hd)]
    obtain ⟨lists, row', hcs, haddsRest⟩ :=
      ih (o := ⟨row₁, o.supply.drop (c.sizeFor o.row)⟩) hnames.2
      (by rw [hsizes, List.length_drop]; omega)
    refine ⟨filled :: lists, row', ?_, hadds.cons haddsRest hfresh⟩
    rw [List.mapM_cons, run_bind_of_ok hc, run_bind_of_ok hcs, hsizes, List.drop_drop,
      List.map_cons, List.sum_cons]
    rfl

/-- Columns that the row names, or that make no value, leave everything as it is. -/
theorem mapM_complete_of_settled (h : ∀ d ∈ cs, d.fills o.row = false) :
    ∃ lists, cs.mapM complete o = .ok lists o ∧ lists.flatten = [] := by
  induction cs with
  | nil => exact ⟨[], rfl, rfl⟩
  | cons c cs ih =>
    have hc : c.complete o = .ok [] o := by
      rcases Bool.and_eq_false_iff.1 (h c List.mem_cons_self) with hc | hc
      · exact complete_of_not_fillable hc
      · exact complete_of_contains ((Bool.not_eq_false' _).mp hc)
    obtain ⟨lists, hcs, hempty⟩ := ih fun d hd ↦ h d (List.mem_cons_of_mem c hd)
    refine ⟨[] :: lists, ?_, hempty⟩
    rw [List.mapM_cons, run_bind_of_ok hc, run_bind_of_ok hcs]
    rfl

end Column

namespace Table

variable {t : Table} {row : Row} {supply : List UInt8}

/-- The number of bytes that completing a row draws from a supply that does not fail. -/
def sizeFor (t : Table) (row : Row) : Nat := (t.columns.map (·.sizeFor row)).sum

/-- A row with an unknown column is refused before anything is done. -/
theorem completeRow_of_unknown (h : ∃ name ∈ row, name ∉ t.columnNames) :
    ∃ unknown ∈ row, unknown ∉ t.columnNames ∧ t.completeRow ⟨row, supply⟩ =
      .error (.invalidRow t.name ("unknown column '" ++ unknown ++ "'")) ⟨row, supply⟩ := by
  obtain ⟨name, hmem, hname⟩ := h
  cases hfind : row.keys.find? (!t.hasColumn ·) with
  | none =>
    have hknown := List.find?_eq_none.1 hfind name (ExtTreeMap.mem_keys.2 hmem)
    rw [Bool.not_eq_true, Bool.not_eq_false', hasColumn_iff] at hknown
    contradiction
  | some unknown =>
    have hunknown := List.find?_some hfind
    rw [Bool.not_eq_true', ← Bool.not_eq_true, hasColumn_iff] at hunknown
    refine ⟨unknown, ExtTreeMap.mem_keys.1 (List.mem_of_find?_eq_some hfind), hunknown, ?_⟩
    rw [completeRow, Completion.get_bind, hfind]
    rfl

theorem completeRow_of_known (h : ∀ name ∈ row, name ∈ t.columnNames) {lists : List (List String)}
    {o : OpenRow} (hcolumns : t.columns.mapM Column.complete ⟨row, supply⟩ = .ok lists o) :
    t.completeRow ⟨row, supply⟩ = .ok lists.flatten o := by
  have hfind : row.keys.find? (!t.hasColumn ·) = none := by
    refine List.find?_eq_none.2 fun name hname ↦ ?_
    rw [hasColumn_iff.2 (h name (ExtTreeMap.mem_keys.1 hname)), Bool.not_true]
    exact Bool.false_ne_true
  rw [completeRow, Completion.get_bind, hfind]
  change EStateM.map _ _ _ = _
  rw [EStateM.map, hcolumns]

/-- Completing a row of a table whose columns have distinct names, with a supply that does not fail:
a row that names an unknown column is refused and stays as it is. Any other row keeps its values and
gets those of the columns that make some, in order. Then it is complete. -/
theorem completeRow_completes (hnames : t.columnNames.Nodup)
    (hsupply : t.sizeFor row ≤ supply.length) :
    ((∃ name ∈ row, name ∉ t.columnNames) → ∃ unknown ∈ row, unknown ∉ t.columnNames ∧
      t.completeRow ⟨row, supply⟩ =
        .error (.invalidRow t.name ("unknown column '" ++ unknown ++ "'")) ⟨row, supply⟩) ∧
    ((∀ name ∈ row, name ∈ t.columnNames) → ∃ filled row',
      t.completeRow ⟨row, supply⟩ = .ok filled ⟨row', supply.drop (t.sizeFor row)⟩ ∧
      Addition t.columns row row' filled ∧
      ∀ supply', t.completeRow ⟨row', supply'⟩ = .ok [] ⟨row', supply'⟩) := by
  refine ⟨completeRow_of_unknown, fun hknown ↦ ?_⟩
  obtain ⟨lists, row', hcolumns, hadds⟩ :=
    Column.mapM_complete_adds (o := ⟨row, supply⟩) hnames hsupply
  refine ⟨lists.flatten, row', completeRow_of_known hknown hcolumns, hadds, fun supply' ↦ ?_⟩
  have hknown' : ∀ name ∈ row', name ∈ t.columnNames := by
    intro name hmem
    by_cases hrow : name ∈ row
    · exact hknown name hrow
    · exact hadds.mem_map_name ((hadds.added name).2 ⟨hmem, hrow⟩)
  obtain ⟨lists', hcolumns', hempty⟩ :=
    Column.mapM_complete_of_settled (o := ⟨row', supply'⟩) hadds.settled
  rw [completeRow_of_known hknown' hcolumns', hempty]

/-- A table with a column of each kind. -/
def guestbook : Table where
  name := "guestbook"
  columns := [{ name := "id", type := .int64, generation := some .increment },
    { name := "token", type := .string, generation := some .uuid },
    { name := "slug", type := .string, generation := some (.custom "slugger") },
    { name := "at", type := .timestamp, defaultValue := some .commitTimestamp },
    { name := "note", type := .string }]

/-- A row with a `null` where a value would be made. -/
def guest : Row := (∅ : Row).insert "token" .null |>.insert "note" (.string "hello")

theorem guestbook_completeRow :
    guestbook.columnNames.Nodup ∧
    guestbook.sizeFor guest ≤ ([0, 0, 0, 0, 0, 0, 0, 7, 9] : List UInt8).length ∧
    ∃ filled row', guestbook.completeRow ⟨guest, [0, 0, 0, 0, 0, 0, 0, 7, 9]⟩ =
      .ok filled ⟨row', [9]⟩ ∧
      Addition guestbook.columns guest row' filled ∧ filled = ["id", "at"] ∧
      row'["token"]? = some .null := by
  have hnames : guestbook.columnNames.Nodup := by decide
  have hsize : guestbook.sizeFor guest = 8 := by decide +kernel
  have hsupply : guestbook.sizeFor guest ≤ ([0, 0, 0, 0, 0, 0, 0, 7, 9] : List UInt8).length :=
    hsize ▸ by decide
  have hknown : ∀ name ∈ guest, name ∈ guestbook.columnNames := by
    intro name hmem
    rw [guest, ExtTreeMap.mem_insert, ExtTreeMap.mem_insert, LawfulEqOrd.compare_eq_iff_eq,
      LawfulEqOrd.compare_eq_iff_eq] at hmem
    obtain rfl | rfl := hmem.imp_right fun h ↦ h.resolve_right ExtTreeMap.not_mem_empty
    · decide
    · decide
  obtain ⟨filled, row', hrun, hadds, -⟩ := (completeRow_completes hnames hsupply).2 hknown
  rw [hsize] at hrun
  exact ⟨hnames, hsupply, filled, row', hrun, hadds, hadds.filled_eq.trans (by decide +kernel),
    hadds.kept "token" .null (by rfl)⟩

end Table

end SchemaLedger
