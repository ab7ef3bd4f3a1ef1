import Mathlib
import SchemaLedger.Table

/-!
# Tables and their columns

What the operations on a table do to its columns and to what is repeated about its unique indices.
-/

namespace SchemaLedger

namespace Index

/-- The index makes the values of a column unique, perhaps together with those of others. -/
def covers (i : Index) (column : String) : Bool := i.unique && i.columnNames.contains column

/-- How a table repeats a unique index. -/
def constraint (i : Index) : UniqueConstraint := ⟨i.name, i.columnNames⟩

end Index

namespace Table

/-! ## Columns of a name -/

/-- Where names are distinct, only one column has the name. -/
theorem modifyFirst_eq_map {cs : List Column} (h : (cs.map (·.name)).Nodup) (name : String)
    (f : Column → Column) :
    modifyFirst name f cs = cs.map fun c ↦ if c.name = name then f c else c := by
  induction cs with
  | nil => rfl
  | cons c cs ih =>
    rw [List.map_cons, List.nodup_cons] at h
    rw [modifyFirst, List.map_cons]
    by_cases hc : c.name = name
    · have htail : cs.map (fun d ↦ if d.name = name then f d else d) = cs := by
        refine (List.map_congr_left (g := id) fun d hd ↦ if_neg fun e ↦ h.1 ?_).trans
          (List.map_id cs)
        exact hc ▸ e ▸ List.mem_map_of_mem hd
      rw [if_pos (by simpa using hc), if_pos hc, htail]
    · rw [if_neg (by simpa using hc), if_neg hc, ih h.2]

theorem columnNames_modifyColumn (t : Table) (name : String) {f : Column → Column}
    (hf : ∀ c, (f c).name = c.name) : (t.modifyColumn name f).columnNames = t.columnNames := by
  have hfirst : ∀ cs : List Column, (modifyFirst name f cs).map (·.name) = cs.map (·.name) := by
    intro cs
    induction cs with
    | nil => rfl
    | cons c cs ih =>
      rw [modifyFirst]
      split
      · rw [List.map_cons, List.map_cons, hf]
      · rw [List.map_cons, List.map_cons, ih]
  exact hfirst t.columns

/-- Columns changed one after another are changed all at once. -/
theorem foldl_modifyColumn {t : Table} (h : t.columnNames.Nodup) {f : Column → Column}
    (hname : ∀ c, (f c).name = c.name) (hidem : ∀ c, f (f c) = f c) (names : List String) :
    names.foldl (fun u name ↦ u.modifyColumn name f) t
      = { t with columns := t.columns.map fun c ↦ if c.name ∈ names then f c else c } := by
  induction names generalizing t with
  | nil =>
    have hid : t.columns.map (fun c ↦ if c.name ∈ ([] : List String) then f c else c) = t.columns :=
      (List.map_congr_left fun c _ ↦ if_neg List.not_mem_nil).trans (List.map_id' _)
    rw [List.foldl_nil, hid]
  | cons n ns ih =>
    have hstep : (t.modifyColumn n f).columnNames.Nodup := by
      rwa [columnNames_modifyColumn t n hname]
    have hmap : (modifyFirst n f t.columns).map (fun c ↦ if c.name ∈ ns then f c else c)
        = t.columns.map fun c ↦ if c.name ∈ n :: ns then f c else c := by
      rw [modifyFirst_eq_map h, List.map_map]
      refine List.map_congr_left fun c _ ↦ ?_
      dsimp only [Function.comp_apply]
      by_cases hc : c.name = n
      · rw [if_pos hc, if_pos (List.mem_cons.2 (Or.inl hc)), hname, hidem, ite_self]
      · rw [if_neg hc]
        simp only [List.mem_cons, hc, false_or]
    rw [List.foldl_cons, ih hstep]
    exact congrArg (fun cs ↦ { t with columns := cs }) hmap

/-! ## Registered indices -/

theorem registerIndex_eq (t : Table) (i : Index) :
    t.registerIndex i =
      { t with
        columns := t.columns.map fun c ↦ { c with isUnique := c.isUnique || i.covers c.name }
        uniques := t.uniques ++ if i.unique then [i.constraint] else []
        indices := t.indices ++ [i] } := by
  rw [registerIndex]
  cases hi : i.unique with
  | false =>
    have hid : t.columns.map (fun c ↦ { c with isUnique := c.isUnique || i.covers c.name })
        = t.columns := by
      refine (List.map_congr_left (g := id) fun c _ ↦ ?_).trans (List.map_id _)
      rw [Index.covers, hi, Bool.false_and, Bool.or_false]
      rfl
    rw [if_neg Bool.false_ne_true, if_neg Bool.false_ne_true, hid, List.append_nil]
  | true =>
    rw [if_pos rfl, if_pos rfl, markUnique]
    simp only [Index.covers, hi, Bool.true_and]
    rfl

/-- What a table has after indices have been registered with it. -/
theorem foldl_registerIndex (t : Table) (is : List Index) :
    is.foldl registerIndex t =
      { t with
        columns := t.columns.map fun c ↦
          { c with isUnique := c.isUnique || is.any (·.covers c.name) }
        uniques := t.uniques ++ (is.filter (·.unique)).map Index.constraint
        indices := t.indices ++ is } := by
  induction is generalizing t with
  | nil =>
    have hid : t.columns.map (fun c ↦ { c with
        isUnique := c.isUnique || ([] : List Index).any (·.covers c.name) }) = t.columns := by
      refine (List.map_congr_left (g := id) fun c _ ↦ ?_).trans (List.map_id _)
      rw [List.any_nil, Bool.or_false]
      rfl
    rw [List.foldl_nil, hid, List.filter_nil, List.map_nil, List.append_nil, List.append_nil]
  | cons i is ih =>
    have huniques : (if i.unique then [i.constraint] else []) ++ (is.filter (·.unique)).map
        Index.constraint = ((i :: is).filter (·.unique)).map Index.constraint := by
      cases hi : i.unique with
      | false => rw [List.filter_cons_of_neg (by simp [hi])]; rfl
      | true => rw [List.filter_cons_of_pos (by simp [hi])]; rfl
    rw [List.foldl_cons, ih, registerIndex_eq]
    simp only [List.map_map, List.append_assoc, List.singleton_append, huniques, List.any_cons,
      Function.comp_def, Bool.or_assoc]

end Table

end SchemaLedger
