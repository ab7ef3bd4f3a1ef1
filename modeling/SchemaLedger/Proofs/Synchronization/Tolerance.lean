import Mathlib
import SchemaLedger.Proofs.Synchronization.Following

/-!
# Passing over what is missing

Facts are held against the tables that are there in three places: when entities are compared with
what is stored, when a table is given its facts, and when a delta is carried out. Each of them has a
flag to pass over facts about columns that are missing. The flag is read in different ways, since
such a fact is not wanted in the first, not looked at in the second and not written in the third.
But it stands for the same in all of them, which is said once as `Lenience`: without the flag a
computation fails exactly when one of the facts that it looks at is about a missing column, with the
flag it never fails over that, and where no such fact is there the flag makes no difference.
-/

namespace SchemaLedger

open SideTable

/-- A computation with a flag to pass over what is missing; `dangles` tells when an outcome is an
error about that. -/
structure Lenience {ρ : Type} (dangles : ρ → Prop) (missing : Prop) (f : Bool → ρ) : Prop where
  strict : dangles (f false) ↔ missing
  eq : ¬missing → f true = f false
  lenient : ¬dangles (f true)

/-- The computation fails over a reference to something that is not there. -/
def Dangles {α : Type} (x : Except SchemaError α) : Prop := ∃ e, x = .error e ∧ e.isDangling = true

theorem Dangles.not_ok {α : Type} (a : α) : ¬Dangles (.ok a) := by
  rintro ⟨e, he, -⟩
  contradiction

/-- A computation that cannot fail with the flag, and without it fails over missing columns
alone. -/
theorem Lenience.of_except {α : Type} {f : Bool → Except SchemaError α} {missing : Prop} {a : α}
    (hlenient : f true = .ok a) (hstrict : ¬missing → f false = .ok a)
    (hmissing : missing → Dangles (f false)) : Lenience Dangles missing f := by
  refine ⟨⟨fun hdangles ↦ ?_, hmissing⟩, fun h ↦ hlenient.trans (hstrict h).symm, ?_⟩
  · by_contra h
    rw [hstrict h] at hdangles
    exact Dangles.not_ok a hdangles
  · rw [hlenient]
    exact Dangles.not_ok a

/-! ## Differences -/

section

variable {s : Schema} {context : String} {ignoreMissing : Bool} {facts : List Fact}

theorem isDangling_of_keepExisting {e : SchemaError}
    (h : keepExisting s context ignoreMissing facts = .error e) : e.isDangling = true := by
  rw [keepExisting] at h
  split at h
  · exact Except.error.inj h ▸ rfl
  · contradiction

end

namespace Diff

variable {s : Schema} {ignoreMissing : Bool}

theorem isDangling_of_ofEntities {entities : List Entity} {l : Ledger} {e : SchemaError}
    (h : ofEntities entities l s ignoreMissing = .error e) : e.isDangling = true := by
  rw [ofEntities] at h
  rcases bind_eq_error h with h | ⟨desired, -, h⟩
  · exact isDangling_of_keepExisting (map_eq_error h)
  · rcases bind_eq_error h with h | ⟨_, -, h⟩
    · exact isDangling_of_keepExisting h
    · contradiction

theorem isDangling_of_ofDelta {delta : Delta} {l : Ledger} {e : SchemaError}
    (h : ofDelta delta l s ignoreMissing = .error e) : e.isDangling = true := by
  rw [ofDelta] at h
  rcases bind_eq_error h with h | ⟨target, -, h⟩
  · exact isDangling_of_keepExisting (map_eq_error h)
  · contradiction

theorem lenience_ofEntities (entities : List Entity) (l : Ledger) (s : Schema) :
    Lenience Dangles (∃ f ∈ entities.flatMap Entity.desiredFacts ++ l.entries, f.existsIn s = false)
      (ofEntities entities l s) := by
  refine .of_except (ofEntities_eq_ok.2 ⟨.inl rfl, rfl⟩) (fun h ↦ ?_) fun ⟨f, hf, hmissing⟩ ↦ ?_
  · have hall : ∀ f ∈ entities.flatMap Entity.desiredFacts ++ l.entries, f.existsIn s = true := by
      simpa using h
    exact ofEntities_eq_ok.2 ⟨.inr ⟨fun f hf ↦ hall f (List.mem_append_left _ hf),
      fun f hf ↦ hall f (List.mem_append_right _ hf)⟩, rfl⟩
  · cases h : ofEntities entities l s false with
    | error e => exact ⟨e, rfl, isDangling_of_ofEntities h⟩
    | ok d =>
      obtain ⟨hall, -⟩ := ofEntities_eq_ok.1 h
      obtain ⟨hdesired, hstored⟩ := hall.resolve_left Bool.false_ne_true
      have hexists : f.existsIn s = true := (List.mem_append.1 hf).elim (hdesired f) (hstored f)
      rw [hexists] at hmissing
      contradiction

theorem lenience_ofDelta (delta : Delta) (l : Ledger) (s : Schema) :
    Lenience Dangles (∃ f ∈ (l.applyAll delta).entries, f.existsIn s = false)
      (ofDelta delta l s) := by
  refine .of_except (ofDelta_eq_ok.2 ⟨.inl rfl, rfl⟩) (fun h ↦ ?_) fun ⟨f, hf, hmissing⟩ ↦ ?_
  · have hall : ∀ f ∈ (l.applyAll delta).entries, f.existsIn s = true := by simpa using h
    exact ofDelta_eq_ok.2 ⟨.inr hall, rfl⟩
  · cases h : ofDelta delta l s false with
    | error e => exact ⟨e, rfl, isDangling_of_ofDelta h⟩
    | ok d =>
      have hexists := (ofDelta_eq_ok.1 h).1.resolve_left Bool.false_ne_true f hf
      rw [hexists] at hmissing
      contradiction

/-- Nothing is written about a missing column. -/
theorem existsIn_of_mem_additions {entities : List Entity} {l : Ledger} {d : Diff}
    (h : ofEntities entities l s ignoreMissing = .ok d) :
    ∀ f ∈ d.additions, f.existsIn s = true := by
  obtain ⟨-, rfl⟩ := ofEntities_eq_ok.1 h
  exact fun f hf ↦ Entity.existsIn_of_wanted (Ledger.mem_additions.1 hf).1

end Diff

/-! ## Tables with their facts -/

namespace Table

variable {f : Column → Column}

/-- Some columns have been changed, each at most once. -/
theorem forall₂_modifyFirst (hf : ∀ c, f (f c) = f c) (name : String) {cs ds : List Column}
    (h : List.Forall₂ (fun c d ↦ d = c ∨ d = f c) cs ds) :
    List.Forall₂ (fun c d ↦ d = c ∨ d = f c) cs (modifyFirst name f ds) := by
  induction h with
  | nil => exact .nil
  | @cons c d cs ds hcd hrest ih =>
    rw [modifyFirst]
    split
    · refine .cons (.inr ?_) hrest
      rcases hcd with rfl | rfl
      · rfl
      · exact hf c
    · exact .cons hcd ih

end Table

namespace Ledger

/-- With the flag some columns get the facts under their own names, and all else stays as it is. -/
theorem exists_of_decorate (l : Ledger) (t : Table) :
    ∃ cs, l.decorate t true = .ok { t with columns := cs } ∧
      t.columns.Forall₂ (fun c d ↦ d = c ∨ d = l.decorateColumn t.name c) cs := by
  have hfold (names : List String) {cs : List Column}
      (h : t.columns.Forall₂ (fun c d ↦ d = c ∨ d = l.decorateColumn t.name c) cs) :
      ∃ ds, names.foldl (fun u name ↦ u.modifyColumn name (l.decorateColumn t.name))
        { t with columns := cs }
          = { t with columns := ds } ∧
        t.columns.Forall₂ (fun c d ↦ d = c ∨ d = l.decorateColumn t.name c) ds := by
    induction names generalizing cs with
    | nil => exact ⟨cs, rfl, h⟩
    | cons name names ih =>
      exact ih (Table.forall₂_modifyFirst (decorateColumn_decorateColumn l t.name) name h)
  obtain ⟨cs, hcs, h⟩ := hfold (l.columns t.name) (List.forall₂_same.2 fun _ _ ↦ .inl rfl)
  exact ⟨cs, congrArg Except.ok hcs, h⟩

theorem lenience_decorate (l : Ledger) (t : Table) :
    Lenience Dangles (∃ f ∈ l.ofTable t.name, t.hasColumn f.column = false) (l.decorate t) := by
  have hcolumns (c : String) : c ∈ l.columns t.name ↔ ∃ f ∈ l.ofTable t.name, f.column = c := by
    rw [mem_columns]
    constructor
    · rintro ⟨p, v, hv⟩
      exact ⟨⟨t.name, c, p, v⟩, mem_ofTable.2 ⟨mem_entries.2 hv, rfl⟩, rfl⟩
    · rintro ⟨f, hf, rfl⟩
      obtain ⟨hf, htable⟩ := mem_ofTable.1 hf
      exact ⟨f.property, f.value, htable ▸ mem_entries.1 hf⟩
  refine .of_except rfl (fun h ↦ ?_) fun hany ↦ ?_
  · have hnone : l.missingColumn? t = none := by
      refine List.find?_eq_none.2 fun c hc hmissing ↦ ?_
      obtain ⟨f, hf, rfl⟩ := (hcolumns c).1 hc
      exact h ⟨f, hf, by simpa using hmissing⟩
    rw [decorate, hnone]
    rfl
  · obtain ⟨f, hf, hmissing⟩ := hany
    obtain ⟨c, hc⟩ : ∃ c, l.missingColumn? t = some c := by
      refine Option.isSome_iff_exists.1
        (List.find?_isSome.2 ⟨f.column, (hcolumns _).2 ⟨f, hf, rfl⟩, ?_⟩)
      rw [hmissing]
      rfl
    rw [decorate, hc]
    exact ⟨_, rfl, rfl⟩

end Ledger

/-- Nothing is noted where nothing is missing. -/
theorem missingNotes_eq_nil {s : Schema} {facts : List Fact} (h : ∀ f ∈ facts, f.existsIn s = true)
    (ignoreMissing : Bool) (note : Fact → Note) : missingNotes s ignoreMissing note facts = [] := by
  rw [missingNotes]
  split
  · rw [List.map_eq_nil_iff, List.filter_eq_nil_iff]
    intro f hf
    rw [h f hf]
    exact Bool.false_ne_true
  · rfl

/-! ## Deltas -/

namespace Database

/-- A property of the rows of a table is kept by a write that gives rows with it. -/
theorem keeps_rows_modifyRows {db : Database} {name : String} {P : Row → Prop}
    (h : ∀ row ∈ db.rowsOf name, P row) {g : Std.ExtTreeMap String Row → Std.ExtTreeMap String Row}
    (hg : ∀ (rows : Std.ExtTreeMap String Row) (k : String) (row : Row), (g rows)[k]? = some row →
      rows[k]? = some row ∨ P row) : ∀ row ∈ (modifyRows name g db.counted).rowsOf name, P row := by
  intro row hrow
  rw [rowsOf, getElem?_modifyRows, if_pos rfl] at hrow
  cases ht : db.tables[name]? with
  | none =>
    rw [show db.counted.tables[name]? = none from ht] at hrow
    contradiction
  | some t =>
    rw [show db.counted.tables[name]? = some t from ht] at hrow
    obtain ⟨k, hk⟩ := mem_values.1 (show row ∈ (g t.rows).values from hrow)
    rcases hg t.rows k row hk with hold | hP
    · refine h row ?_
      rw [rowsOf, ht]
      exact mem_values.2 ⟨k, hold⟩
    · exact hP

variable {name : String} {P : Row → Prop}

theorem keeps_rows_upsertRow {columns : List String} {values : List Json}
    (h : ∀ old, P (mergeRow old (columns.zip values))) :
    Keeps (fun db ↦ ∀ row ∈ db.rowsOf name, P row) (upsertRow name columns values) := by
  refine keeps_upsertRow fun db t key hdb _ _ _ ↦
    keeps_rows_modifyRows hdb fun rows k row hrow ↦ ?_
  rw [Std.ExtTreeMap.getElem?_alter] at hrow
  split at hrow
  · exact .inr (Option.some.inj hrow ▸ h _)
  · exact .inl hrow

theorem keeps_rows_deleteRow (key : List Json) :
    Keeps (fun db ↦ ∀ row ∈ db.rowsOf name, P row) (deleteRow name key) := by
  refine keeps_deleteRow fun db hdb ↦ keeps_rows_modifyRows hdb fun rows k row hrow ↦ .inl ?_
  rw [Std.ExtTreeMap.getElem?_erase] at hrow
  split at hrow
  · contradiction
  · exact hrow

end Database

/-- Each row of the side table comes from a site: it was there, or it is written for a fact about a
column that is there. -/
def Site.RowsFrom (sideTable : String) (s : Site) (db : Database) : Prop :=
  ∀ row ∈ db.rowsOf sideTable,
    row ∈ s.database.rowsOf sideTable ∨ ∃ f : Fact, f.existsIn s.cache.tables = true ∧
    cellsOf row = cells f

namespace Pass

variable {α : Type} {o : PassOptions} {s t : Site}

/-- The program fails over a reference to something that is not there. -/
def Dangles (x : EStateM.Result PassError Site α) : Prop :=
  ∃ e t, x = .error e t ∧ e.isDangling = true

theorem not_dangles_ok (a : α) (s : Site) : ¬Dangles (.ok a s) := by
  rintro ⟨e, t, he, -⟩
  contradiction

theorem not_dangles_error {e : PassError} (h : e.Undangling) (s : Site) :
    ¬Dangles (.error e s : EStateM.Result PassError Site α) := by
  rintro ⟨e', t, he, hdangling⟩
  obtain ⟨rfl, -⟩ := EStateM.Result.error.inj he
  exact Bool.false_ne_true (h.symm.trans hdangling)

theorem not_dangles_of_failsOnly {m : Pass α} (h : FailsOnly PassError.Undangling m s) :
    ¬Dangles (m s) := by
  cases hm : m s with
  | ok a t => exact not_dangles_ok a t
  | error e t => exact not_dangles_error (h e t hm) t

/-- Nothing but the difference can fail over what is missing. -/
theorem dangles_applyDelta_iff {delta : Delta} (hdelta : delta.isEmpty = false)
    (ignoreMissing : Bool)
    {l : Ledger} (h : loaded o s = .ok l t) : Dangles (applyDelta o delta ignoreMissing s) ↔
      SchemaLedger.Dangles (Diff.ofDelta delta l s.cache.tables ignoreMissing) := by
  rw [applyDelta_of_loaded hdelta ignoreMissing h]
  cases hd : Diff.ofDelta delta l s.cache.tables ignoreMissing with
  | error e => exact ⟨fun _ ↦ ⟨e, rfl, Diff.isDangling_of_ofDelta hd⟩,
      fun _ ↦ ⟨.schema e, _, rfl, Diff.isDangling_of_ofDelta hd⟩⟩
  | ok d =>
    refine iff_of_false (not_dangles_of_failsOnly ?_) (SchemaLedger.Dangles.not_ok d)
    rw [ofExcept_ok, pure_bind]
    exact (failsOnly_write d _).bind fun _ _ _ ↦ .pure _ _

theorem lenience_applyDelta (o : PassOptions) (delta : Delta) (s : Site) :
    Lenience Dangles
      (delta.isEmpty = false ∧ ∃ l t, loaded o s = .ok l t ∧
        ∃ f ∈ (l.applyAll delta).entries, f.existsIn s.cache.tables = false)
      fun ignoreMissing ↦ applyDelta o delta ignoreMissing s := by
  -- Where the tables are not looked at, the flag is not either.
  have hidle {r : EStateM.Result PassError Site Diff} {missing : Prop} (hr : ¬Dangles r)
      (hmissing : ¬missing) (heq : ∀ ignoreMissing, applyDelta o delta ignoreMissing s = r) :
      Lenience Dangles missing fun ignoreMissing ↦ applyDelta o delta ignoreMissing s := by
    simp only [heq]
    exact ⟨iff_of_false hr hmissing, fun _ ↦ rfl, hr⟩
  cases hempty : delta.isEmpty with
  | true =>
    refine hidle (not_dangles_ok {} s) (fun h ↦ absurd h.1.symm Bool.false_ne_true)
      fun ignoreMissing ↦ ?_
    rw [applyDelta, if_pos hempty]
    rfl
  | false =>
    cases hloaded : loaded o s with
    | error e t =>
      refine hidle (not_dangles_error (failsOnly_loaded s e t hloaded) t) ?_ fun ignoreMissing ↦
        applyDelta_of_error hempty ignoreMissing hloaded
      rintro ⟨-, l, t', hok, -⟩
      contradiction
    | ok l t =>
      have hdiff := Diff.lenience_ofDelta delta l s.cache.tables
      have hdangles (ignoreMissing : Bool) := dangles_applyDelta_iff hempty ignoreMissing hloaded
      have hmissing :
          (True ∧ ∃ l' t', (EStateM.Result.ok l t : EStateM.Result PassError Site Ledger) =
            .ok l' t' ∧
          ∃ f ∈ (l'.applyAll delta).entries, f.existsIn s.cache.tables = false) ↔
          ∃ f ∈ (l.applyAll delta).entries, f.existsIn s.cache.tables = false := by
        constructor
        · rintro ⟨-, l', t', hok, h⟩
          obtain ⟨rfl, rfl⟩ := EStateM.Result.ok.inj hok
          exact h
        · exact fun h ↦ ⟨trivial, l, t, rfl, h⟩
      simp only [true_and] at hmissing ⊢
      rw [hmissing]
      refine ⟨(hdangles false).trans hdiff.strict, fun h ↦ ?_,
        fun h ↦ hdiff.lenient ((hdangles true).1 h)⟩
      have hexist : ∀ f ∈ (l.applyAll delta).entries, f.existsIn s.cache.tables = true := by
        simpa using h
      calc applyDelta o delta true s
          = _ := applyDelta_of_loaded hempty true hloaded
        _ = _ := by rw [hdiff.eq h, missingNotes_eq_nil hexist, missingNotes_eq_nil hexist]
        _ = applyDelta o delta false s := (applyDelta_of_loaded hempty false hloaded).symm

/-- A row that is there after a delta has been carried out was there before, or it is written for a
fact about a column that is there. -/
theorem rows_of_applyDelta (o : PassOptions) (delta : Delta) (ignoreMissing : Bool) (s : Site) :
    ∀ row ∈ (ending (applyDelta o delta ignoreMissing) s).database.rowsOf o.sideTable,
      row ∈ s.database.rowsOf o.sideTable ∨
        ∃ f : Fact, f.existsIn s.cache.tables = true ∧ cellsOf row = cells f := by
  have hstart : s.RowsFrom o.sideTable s.database := fun row hrow ↦ .inl hrow
  have hadd (f : Fact) (hf : f.existsIn s.cache.tables = true) :
      Keeps (s.RowsFrom o.sideTable) (Database.upsertRow o.sideTable columns (cells f)) :=
    Database.keeps_rows_upsertRow fun old ↦ .inr ⟨f, hf, cellsOf_mergeRow old f⟩
  have hremove (f : Fact) :
      Keeps (s.RowsFrom o.sideTable) (Database.deleteRow o.sideTable (keyCells f)) :=
    Database.keeps_rows_deleteRow (keyCells f)
  change s.RowsFrom o.sideTable (ending (applyDelta o delta ignoreMissing) s).database
  cases hempty : delta.isEmpty with
  | true =>
    rw [applyDelta, if_pos hempty]
    exact hstart
  | false =>
    have hloading := keeps_loaded (o := o) (q := s.RowsFrom o.sideTable) s hstart
    cases hloaded : loaded o s with
    | error e t =>
      rw [ending_of_error (applyDelta_of_error hempty ignoreMissing hloaded),
        ← ending_of_error hloaded]
      exact hloading
    | ok l t =>
      rw [ending_of_ok hloaded] at hloading
      rw [ending_congr (applyDelta_of_loaded hempty ignoreMissing hloaded)]
      cases hd : Diff.ofDelta delta l s.cache.tables ignoreMissing with
      | error e => exact hloading
      | ok d =>
        have hwrite : Keeps (fun t ↦ s.RowsFrom o.sideTable t.database) (write o d) :=
          keeps_write (fun f hf ↦ hadd f ((Diff.mem_additions_ofDelta hd).1 hf).2.1) fun f _ ↦
            hremove f
        rw [ofExcept_ok, pure_bind]
        exact Keeps.bind hwrite (fun _ ↦ .pure d) _ hloading

/-- The flag to pass over missing columns adds tolerance and nothing else, wherever there is one.
Where a missing column would be an error without it, nothing is stored about the column, and no
column gets other facts than those under its own name. -/
theorem missing_columns_tolerated (entities : List Entity) (l : Ledger) (r : Schema) (t : Table)
    (o : PassOptions) (delta : Delta) (s : Site) :
    (Lenience SchemaLedger.Dangles
        (∃ f ∈ entities.flatMap Entity.desiredFacts ++ l.entries, f.existsIn r = false)
        (Diff.ofEntities entities l r) ∧
      ∃ d, Diff.ofEntities entities l r true = .ok d ∧ ∀ f ∈ d.additions, f.existsIn r = true) ∧
    (Lenience SchemaLedger.Dangles (∃ f ∈ l.ofTable t.name, t.hasColumn f.column = false)
      (l.decorate t) ∧
      ∃ cs, l.decorate t true = .ok { t with columns := cs } ∧
        t.columns.Forall₂ (fun c d ↦ d = c ∨ d = l.decorateColumn t.name c) cs) ∧
    Lenience Dangles
        (delta.isEmpty = false ∧ ∃ l t, loaded o s = .ok l t ∧
          ∃ f ∈ (l.applyAll delta).entries, f.existsIn s.cache.tables = false)
        (fun ignoreMissing ↦ applyDelta o delta ignoreMissing s) ∧
      ∀ row ∈ (ending (applyDelta o delta true) s).database.rowsOf o.sideTable,
        row ∈ s.database.rowsOf o.sideTable ∨
          ∃ f : Fact, f.existsIn s.cache.tables = true ∧ cellsOf row = cells f := by
  have hsucceeds : ∃ d, Diff.ofEntities entities l r true = .ok d :=
    ⟨_, Diff.ofEntities_eq_ok.2 ⟨.inl rfl, rfl⟩⟩
  obtain ⟨d, hd⟩ := hsucceeds
  exact ⟨⟨Diff.lenience_ofEntities entities l r, d, hd, Diff.existsIn_of_mem_additions hd⟩,
    ⟨l.lenience_decorate t, l.exists_of_decorate t⟩, lenience_applyDelta o delta s,
    rows_of_applyDelta o delta true s⟩

/-- A fact about a table that is not there is an error, or is taken back. -/
example :
    let f : Fact := ⟨"t", "a", .strategy, "uuid"⟩
    Diff.ofEntities [] (.ofList [f]) ∅ false =
      .error (.dangling "t" (some "a") "extended schema entry") ∧
      Diff.ofEntities [] (.ofList [f]) ∅ true = .ok ⟨[], [f]⟩ := by
  decide

end Pass

end SchemaLedger
