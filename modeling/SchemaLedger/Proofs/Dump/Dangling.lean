import Mathlib
import SchemaLedger.Proofs.Database.Described

/-!
# Dumps do not dangle

The dump of a sound database may fail to be written, and what is written may fail to be read: a
column that is no timestamp may hold the commit timestamp, and a name may end in a backslash. But
neither fails for a reference to a table or a column that is not there.
-/

namespace SchemaLedger

variable {α β : Type}

/-- Fails, if at all, not for a reference to something that is not there. -/
def Undangling (x : Except SchemaError α) : Prop := ∀ e, x = .error e → e.isDangling = false

namespace Undangling

theorem ok (a : α) : Undangling (.ok a) := by
  intro e h
  contradiction

theorem error {e : SchemaError} (h : e.isDangling = false) :
    Undangling (.error e : Except SchemaError α) :=
  fun _ h' ↦ Except.error.inj h' ▸ h

theorem bind {x : Except SchemaError α} {f : α → Except SchemaError β} (hx : Undangling x)
    (hf : ∀ a, x = .ok a → Undangling (f a)) : Undangling (x >>= f) := by
  cases x with
  | error e => exact .error (hx e rfl)
  | ok a => exact hf a rfl

theorem map {x : Except SchemaError α} (hx : Undangling x) (f : α → β) : Undangling (f <$> x) := by
  cases x with
  | error e => exact .error (hx e rfl)
  | ok a => exact .ok (f a)

theorem mapM {f : α → Except SchemaError β} {xs : List α} (h : ∀ x ∈ xs, Undangling (f x)) :
    Undangling (xs.mapM f) := by
  induction xs with
  | nil => exact .ok []
  | cons x xs ih =>
    rw [List.mapM_cons]
    exact .bind (h x List.mem_cons_self) fun y _ ↦
      .bind (ih fun z hz ↦ h z (List.mem_cons_of_mem x hz)) fun ys _ ↦ .ok (y :: ys)

theorem foldlM {f : β → α → Except SchemaError β} {xs : List α}
    (h : ∀ b, ∀ x ∈ xs, Undangling (f b x)) (b : β) : Undangling (xs.foldlM f b) := by
  induction xs generalizing b with
  | nil => exact .ok b
  | cons x xs ih =>
    rw [List.foldlM_cons]
    exact .bind (h b x List.mem_cons_self) fun b' _ ↦
      ih (fun c y hy ↦ h c y (List.mem_cons_of_mem x hy)) b'

theorem reading (read : List Char → Except Malformation α) (cs : List Char) :
    Undangling (Dump.reading read cs) := by
  rw [Dump.reading]
  cases read cs with
  | error e => exact .error rfl
  | ok a => exact .ok a

end Undangling

/-! ## Writing -/

theorem ColumnDef.undangling_lower (table : String) (c : ColumnDef) :
    Undangling (c.lower table) := by
  rw [lower]
  split
  · exact .error rfl
  · dsimp only
    split
    · exact .error rfl
    · split
      · exact .error rfl
      · exact .ok _

theorem TableDraft.undangling_add (table : String) (d : TableDraft) (x : Definition) :
    Undangling (d.add table x) := by
  cases x with
  | column c =>
    rw [add]
    split
    · exact .error rfl
    · exact .bind (c.undangling_lower table) fun x _ ↦ .ok _
  | primaryKey parts =>
    rw [add]
    split
    · exact .error rfl
    · exact .ok _
  | index kind i => exact .ok _
  | foreignKey key => exact .error rfl
  | check c => exact .error rfl

/-- Where a sound table cannot be written, a column holds what its type cannot. -/
theorem Table.Sound.undangling_sql {t : Table} (h : t.Sound) : Undangling t.sql := by
  refine .map (.map (.mapM fun s hs ↦ ?_) _) _
  rcases List.mem_cons.1 hs with rfl | hs
  · have hdraft : Undangling t.toCreate.draft := .foldlM (fun d x _ ↦ d.undangling_add _ x) _
    rw [Statement.lower]
    cases hd : t.toCreate.draft with
    | error e =>
      rw [CreateTable.lower, hd]
      exact .error (hdraft e hd)
    | ok d =>
      rw [lower_toCreate (timed_of_draft hd) h.declaresKey]
      exact .ok _
  · obtain ⟨i, hi, rfl⟩ := List.mem_map.1 hs
    rw [lower_toIndex (h.indices i hi).2.1]
    exact .ok _

/-! ## Reading -/

namespace Dump

theorem undangling_columnOfText (cs : List Char) : Undangling (columnOfText cs) :=
  .reading readColumn cs

theorem undangling_add (b : TableBody) (element : List Char) : Undangling (b.add element) := by
  rw [TableBody.add]
  split
  · split
    · exact .error rfl
    · exact .bind (.reading _ _) fun k _ ↦ .ok _
  · split
    · exact .ok b
    · refine .bind (undangling_columnOfText _) fun c _ ↦ ?_
      split
      · exact .error rfl
      · exact .ok _

theorem undangling_key (t : TableText) (b : TableBody) : Undangling (t.key b) := by
  rw [TableText.key]
  split
  · exact .ok _
  · refine .bind (.reading _ _) fun k _ ↦ ?_
    split
    · exact .error rfl
    · exact .ok k

/-- The statement of a sound table has no key of columns that are not there. -/
theorem undangling_build {t : Table} (h : t.Sound) {text : TableText}
    (hread : readItem t.toDdl.text.toList = .ok (.table text)) : Undangling text.build := by
  cases hbody : text.elements.foldlM TableBody.add {} with
  | error e =>
    rw [TableText.build, hbody]
    exact .error (Undangling.foldlM (fun b x _ ↦ undangling_add b x) _ e hbody)
  | ok body =>
    cases hk : text.key body with
    | error e =>
      rw [TableText.build, hbody, ok_bind, hk]
      exact .error (undangling_key text body e hk)
    | ok k =>
      obtain ⟨parent, -, -, hbuild⟩ := declarable_of_key h.legible h.noBacktick_clauses
        h.declaresKey_clauses h.noBacktick_parents hread rfl hbody hk
      rw [hbuild]
      exact .ok _

theorem undangling_build_of_mem {ts : List Table} (hts : ∀ t ∈ ts, t.Sound)
    {owns : List (List String)} (hsql : ts.mapM Table.sql = .ok owns) {items : List Item}
    (hitems : readItems owns.flatten = .ok items) :
    ∀ text ∈ tables items, Undangling text.build := by
  induction ts generalizing owns items with
  | nil =>
    obtain rfl := Except.ok.inj hsql
    obtain rfl := Except.ok.inj hitems
    exact fun text htext ↦ absurd htext List.not_mem_nil
  | cons t ts ih =>
    obtain ⟨own, owns, hown, howns, rfl⟩ := mapM_cons_eq_ok hsql
    rw [List.flatten_cons] at hitems
    obtain ⟨text, js, ys, hread, -, hys, htables, -⟩ :=
      exists_of_readItems_sql (hts t List.mem_cons_self) hown hitems
    rw [htables]
    intro u hu
    rcases List.mem_cons.1 hu with rfl | hu
    · exact undangling_build (hts t List.mem_cons_self) hread
    · exact ih (fun v hv ↦ hts v (List.mem_cons_of_mem t hv)) howns hys u hu

theorem undangling_addTable {text : TableText} (h : Undangling text.build) (s : Schema) :
    Undangling (addTable s text) := by
  refine .bind h fun t _ ↦ ?_
  split
  · exact .error rfl
  · exact .ok _

/-- Indices whose columns are there are added. -/
theorem exists_foldlM_addIndex {is : List Index} {s : Schema}
    (h : ∀ i ∈ is, ∃ t, s[i.table]? = some t ∧ ∀ c ∈ i.referenced, c ∈ t.columnNames) :
    ∃ s', is.foldlM addIndex s = .ok s' := by
  induction is generalizing s with
  | nil => exact ⟨s, rfl⟩
  | cons i is ih =>
    obtain ⟨t, ht, hcolumns⟩ := h i List.mem_cons_self
    have hadd : addIndex s i = .ok (s.insert i.table (t.registerIndex i)) := by
      rw [addIndex, ht]
      dsimp only
      rw [Table.addIndex_of_referenced hcolumns]
      rfl
    rw [List.foldlM_cons, hadd]
    refine ih fun j hj ↦ ?_
    obtain ⟨u, hu, hcolumns⟩ := h j (List.mem_cons_of_mem i hj)
    rw [Std.ExtTreeMap.getElem?_insert]
    by_cases hij : i.table = j.table
    · obtain rfl : t = u := Option.some.inj (ht.symm.trans (hij ▸ hu))
      refine ⟨t.registerIndex i, if_pos (Std.LawfulEqOrd.compare_eq_iff_eq.2 hij), fun c hc ↦ ?_⟩
      rw [Table.columnNames_registerIndex]
      exact hcolumns c hc
    · exact ⟨u, (if_neg fun e ↦ hij (Std.LawfulEqOrd.compare_eq_iff_eq.1 e)).trans hu, hcolumns⟩

/-- The statements of sound tables are read, or something else is wrong with them. -/
theorem undangling_parse {ts : List Table} (hts : ∀ t ∈ ts, t.Sound) {owns : List (List String)}
    (hsql : ts.mapM Table.sql = .ok owns) : Undangling (parse owns.flatten) := by
  refine .bind (.mapM fun cs _ ↦ .reading _ cs) fun items hitems ↦ ?_
  have hbuild := undangling_build_of_mem hts hsql hitems
  refine .bind (.foldlM (fun s text htext ↦ undangling_addTable (hbuild text htext) s) ∅) fun s hs ↦
    ?_
  obtain ⟨us, hus, hdistinct, -, hlookup⟩ := of_foldlM_addTable hs
  obtain ⟨rfl, hindices, -⟩ := of_readItems_sql hts hsql hitems hus
  obtain ⟨s', hs'⟩ : ∃ s', (indices items).foldlM addIndex s = .ok s' := by
    refine exists_foldlM_addIndex fun i hi ↦ ?_
    rw [hindices] at hi
    obtain ⟨t, ht, hi⟩ := List.mem_flatMap.1 hi
    have hfind : (ts.map Table.bare).find? (·.name == t.name) = some t.bare :=
      find?_eq_some_of_mem hdistinct (List.mem_map_of_mem ht)
    refine ⟨t.bare, ?_, fun c hc ↦ ?_⟩
    · rw [hlookup, (hts t ht).named i hi, hfind]
      rfl
    · rw [Table.columnNames_bare]
      exact (hts t ht).declaresIndexed i hi c hc
  rw [hs']
  exact .ok s'

end Dump

/-- What a sound database describes is there. -/
theorem Database.Sound.undangling_described {db : Database} (h : db.Sound) :
    Undangling db.described := by
  have hsound : ∀ t ∈ dumpOrder db.schema, t.Sound := by
    intro t ht
    obtain ⟨n, hn⟩ := mem_dumpOrder.1 ht
    rw [getElem?_schema] at hn
    obtain ⟨u, hu, rfl⟩ := Option.map_eq_some_iff.1 hn
    exact (h.tables n u hu).schema
  have hwrite : Undangling (dumpStatements db.schema) :=
    .map (.mapM fun t ht ↦ (hsound t ht).undangling_sql) _
  refine .bind hwrite fun dump hdump ↦ ?_
  obtain ⟨owns, howns, rfl⟩ := map_eq_ok hdump
  exact Dump.undangling_parse hsound howns

end SchemaLedger
