import Mathlib
import SchemaLedger.Proofs.Reconciliation.Stored
import SchemaLedger.Synchronization

/-!
# Parts of a pass

What the parts of a pass do to a site: which of its members they leave alone, and what they come to.
-/

namespace SchemaLedger

open SideTable

namespace Pass

variable {α : Type} {p : Site → Prop}

/-! ## Single steps -/

/-- The site with more in its journal. -/
def noted (notes : List Note) (s : Site) : Site := { s with journal := s.journal ++ notes }

theorem noteAll_eq (notes : List Note) (s : Site) : noteAll notes s = .ok () (noted notes s) := rfl

theorem note_eq (n : Note) (s : Site) : note n s = .ok () (noted [n] s) := rfl

theorem ofExcept_ok (a : α) : ofExcept (.ok a) = pure a := rfl

theorem exists_of_ofExcept {x : Except SchemaError α} {a : α} {s t : Site}
    (h : ofExcept x s = .ok a t) :
    x = .ok a ∧ t = s := by
  cases x with
  | error e => contradiction
  | ok b =>
    obtain ⟨rfl, rfl⟩ := EStateM.Result.ok.inj h
    exact ⟨rfl, rfl⟩

theorem keeps_ofExcept (x : Except SchemaError α) : Keeps p (ofExcept x) := by
  cases x with
  | error e => exact .throw _
  | ok a => exact .pure a

theorem ending_call (m : DatabaseM α) (s : Site) :
    ending (call m) s = { s with database := ending m s.database } := by
  rw [ending, ending, call]
  cases m s.database <;> rfl

theorem keeps_call {q : Database → Prop} {m : DatabaseM α} (h : Keeps q m) :
    Keeps (fun s ↦ q s.database) (call m) := by
  intro s hs
  rw [ending_call]
  exact h s.database hs

theorem exists_of_call_error {m : DatabaseM α} {s t : Site} {e : PassError}
    (h : call m s = .error e t) :
    ∃ db, m s.database = .error e db := by
  rw [call] at h
  split at h
  · contradiction
  · rename_i e' db hm
    obtain ⟨rfl, -⟩ := EStateM.Result.error.inj h
    exact ⟨db, hm⟩

theorem ending_outcome (m : Pass α) (s : Site) : ending (outcome m) s = ending m s := by
  rw [ending, ending, outcome]
  cases m s <;> rfl

/-- What a program comes to, as a value. -/
def value (m : Pass α) (s : Site) : Except PassError α :=
  match m s with
  | .ok a _ => .ok a
  | .error e _ => .error e

theorem value_congr {m n : Pass α} {s : Site} (h : m s = n s) : value m s = value n s := by
  rw [value, value, h]

theorem exists_of_value {m : Pass α} {s : Site} {a : α} (h : value m s = .ok a) :
    ∃ t, m s = .ok a t := by
  rw [value] at h
  split at h
  · rename_i t hm
    exact ⟨t, Except.ok.inj h ▸ hm⟩
  · contradiction

theorem exists_of_value_error {m : Pass α} {s : Site} {e : PassError} (h : value m s = .error e) :
    ∃ t, m s = .error e t := by
  rw [value] at h
  split at h
  · contradiction
  · rename_i e' t hm
    exact ⟨t, Except.error.inj h ▸ hm⟩

theorem outcome_eq (m : Pass α) (s : Site) : outcome m s = .ok (value m s) (ending m s) := by
  rw [ending, value, outcome]
  cases m s <;> rfl

/-- Statements are executed on the database alone. -/
theorem updateDdl_eq_call (sql : List String) (s : Site) :
    ∃ notes, updateDdl sql s = call (Database.updateDdl sql) (noted notes s) := by
  induction sql generalizing s with
  | nil => exact ⟨[], by rw [noted, List.append_nil]; rfl⟩
  | cons x sql ih =>
    cases hx : Database.execute x s.database with
    | error e db =>
      have hcall : call (Database.execute x) (noted [.statementApplying x] s)
          = .error e { noted [.statementApplying x] s with database := db } := by
        simp only [call, noted, hx]
      have hall : Database.updateDdl (x :: sql) s.database = .error e db := run_bind_of_error hx
      refine ⟨[.statementApplying x], ?_⟩
      have hfirst : (do note (.statementApplying x); call (Database.execute x) : Pass Unit) s = _ :=
        (run_bind_of_ok (note_eq _ s)).trans hcall
      refine (run_bind_of_error hfirst).trans ?_
      simp only [call, noted, hall]
    | ok _ db =>
      have hcall : call (Database.execute x) (noted [.statementApplying x] s)
          = .ok () { noted [.statementApplying x] s with database := db } := by
        simp only [call, noted, hx]
      have hall : Database.updateDdl (x :: sql) s.database = Database.updateDdl sql db :=
        run_bind_of_ok hx
      obtain ⟨notes, hnotes⟩ := ih { noted [.statementApplying x] s with database := db }
      refine ⟨.statementApplying x :: notes, ?_⟩
      have hfirst : (do note (.statementApplying x); call (Database.execute x) : Pass Unit) s = _ :=
        (run_bind_of_ok (note_eq _ s)).trans hcall
      refine (run_bind_of_ok hfirst).trans (hnotes.trans ?_)
      simp only [call, noted, hall, List.append_assoc, List.singleton_append]

/-- A property of sites that says nothing of the cached tables and the journal. -/
def Steady (p : Site → Prop) : Prop :=
  ∀ s tables journal, p s → p ⟨s.database, ⟨tables, s.cache.ledger⟩, journal⟩

theorem Steady.noteAll (hp : Steady p) (notes : List Note) : Keeps p (noteAll notes) :=
  fun s hs ↦ hp s s.cache.tables _ hs

theorem Steady.note (hp : Steady p) (n : Note) : Keeps p (note n) := hp.noteAll [n]

/-! ## Tables are read back -/

theorem call_schemaDdl (s : Site) : ending (call Database.schemaDdl) s = s := by
  rw [ending_call]
  have hsame : ending Database.schemaDdl s.database = s.database := by
    rw [Database.schemaDdl, ending_bind_of_ok (m := get) (a := s.database) (t := s.database) rfl]
    cases Database.dumpStatements s.database.schema <;> rfl
  rw [hsame]

/-- Reading the tables back changes nothing but the cached tables. -/
theorem Steady.reloadTables (hp : Steady p) (ignoreMissing : Bool) :
    Keeps p (reloadTables ignoreMissing) := by
  have hcache {f : Cache → Cache} (hf : ∀ c, (f c).ledger = c.ledger) :
      Keeps p (modifyCache f) := by
    intro s hs
    have h := hp s (f s.cache).tables s.journal hs
    rw [← hf] at h
    exact h
  refine .bind (fun s hs ↦ (call_schemaDdl s).symm ▸ hs) fun dump ↦ .bind (keeps_ofExcept _) fun s ↦
    .get_bind fun site ↦ .bind (.forM fun t _ ↦ ?_) fun _ ↦ .get_bind fun site' ↦
    .bind (hp.noteAll _) fun _ ↦ .bind (hcache fun _ ↦ rfl) fun _ ↦ .pure _
  unfold cacheTable
  cases site.cache.ledger with
  | none => exact .bind (.pure t) fun t ↦ hcache fun _ ↦ rfl
  | some l =>
    exact .bind (hp.noteAll _) fun _ ↦ .bind (keeps_ofExcept _) fun t ↦ hcache fun _ ↦ rfl

/-! ## The side table is loaded -/

variable {o : PassOptions}

theorem load_of_stored {s : Site} {l : Ledger} (h : stored o.sideTable s.database = .ok l) :
    load o s = .ok l
      { s with
        cache := { s.cache with ledger := some l }
        journal := s.journal ++ [.ledgerLoaded o.sideTable l.size] } := by
  obtain ⟨t, ht, hcolumns, hrows⟩ := stored_eq_ok.1 h
  have hread : call (Database.readRows o.sideTable columns) s
      = .ok (t.rows.values.map cellsOf) s := by
    rw [call, readRows_of_some ht hcolumns]
  rw [load, run_bind_of_ok hread, hrows]
  rfl

theorem load_of_error {s : Site} {e : PassError} (h : stored o.sideTable s.database = .error e) :
    ∃ e', load o s = .error e' s := by
  rcases readRows_cases o.sideTable s.database with ⟨e', he⟩ | ⟨t, ht, hcolumns⟩
  · have hread : call (Database.readRows o.sideTable columns) s = .error e' s := by
      rw [call, he]
    exact ⟨e', by rw [load, run_bind_of_error hread]⟩
  · have hread : call (Database.readRows o.sideTable columns) s
        = .ok (t.rows.values.map cellsOf) s := by
      rw [call, readRows_of_some ht hcolumns]
    rw [stored, readRows_of_some ht hcolumns] at h
    dsimp only at h
    exact ⟨e, by rw [load, run_bind_of_ok hread, h]; rfl⟩

/-! ## Batches in two parts -/

/-- What is left of a batch once its statements have been executed. -/
def concludeDdl (o : PassOptions) (l : Lowered) (ignoreMissing : Bool)
    (applied : Except PassError Unit) :
    Pass (List String × Diff) := do
  let _ ← reloadTables true
  match applied with
  | .error e => throw e
  | .ok () =>
    if l.delta.isEmpty then return (l.sql, {})
    if !(← get).cache.tables.contains o.sideTable then
      note (.sideTableMissing o.sideTable)
      return (l.sql, {})
    let d ← applyDelta o l.delta ignoreMissing
    if !d.isEmpty then
      let _ ← reloadTables ignoreMissing
    return (l.sql, d)

/-- The site without its ledger, if statements touch the side table. -/
def invalidated (o : PassOptions) (statements : List Statement) (s : Site) : Site :=
  if statements.any (·.touched.contains o.sideTable) then
    { noted [.sideTableTouched o.sideTable] s with cache := { s.cache with ledger := none } }
  else s

theorem database_invalidated (o : PassOptions) (statements : List Statement) (s : Site) :
    (invalidated o statements s).database = s.database := by
  rw [invalidated]
  split <;> rfl

section

variable {statements : List Statement}

theorem executeDdl_of_error {e : SchemaError} (hlower : Statement.lowerAll statements = .error e)
    (ignoreMissing : Bool) (s : Site) :
    executeDdl o statements ignoreMissing s =
      .error (.schema e) (noted (Statement.notesAll statements) s) := by
  rw [executeDdl, run_bind_of_ok (noteAll_eq _ s), hlower]
  rfl

variable {l : Lowered} (hlower : Statement.lowerAll statements = .ok l)

include hlower

theorem executeDdl_of_nil (hsql : l.sql = []) (ignoreMissing : Bool) (s : Site) :
    executeDdl o statements ignoreMissing s =
      .ok (l.sql, {}) (noted (Statement.notesAll statements) s) := by
  rw [executeDdl, run_bind_of_ok (noteAll_eq _ s), hlower, ofExcept_ok, pure_bind]
  dsimp only
  rw [if_pos (List.isEmpty_iff.2 hsql)]
  rfl

theorem executeDdl_of_dryRun (hdry : o.dryRun = true) (hsql : l.sql ≠ []) (ignoreMissing : Bool)
    (s : Site) :
    executeDdl o statements ignoreMissing s = .ok (l.sql, ⟨l.delta.upserts, []⟩)
      (noted (l.sql.map .statementPlanned) (noted (Statement.notesAll statements) s)) := by
  rw [executeDdl, run_bind_of_ok (noteAll_eq _ s), hlower, ofExcept_ok, pure_bind]
  dsimp only
  rw [if_neg fun h ↦ hsql (List.isEmpty_iff.1 h), hdry, if_pos rfl, run_bind_of_ok (noteAll_eq _ _)]
  rfl

/-- The statements are executed, the ledger is dropped where they touch the side table, and the
batch is concluded from there. -/
theorem executeDdl_eq (hdry : o.dryRun = false) (hsql : l.sql ≠ []) (ignoreMissing : Bool)
    (s : Site) :
    ∃ notes, executeDdl o statements ignoreMissing s =
      concludeDdl o l ignoreMissing (value (updateDdl l.sql) (noted notes s))
        (invalidated o statements (ending (updateDdl l.sql) (noted notes s))) := by
  refine ⟨Statement.notesAll statements ++ l.sql.map .statementExecuting, ?_⟩
  have hnoted (xs ys : List Note) : noted ys (noted xs s) = noted (xs ++ ys) s := by
    rw [noted, noted, noted, List.append_assoc]
  rw [executeDdl, run_bind_of_ok (noteAll_eq _ s), hlower, ofExcept_ok, pure_bind]
  dsimp only
  rw [if_neg fun h ↦ hsql (List.isEmpty_iff.1 h), hdry, if_neg Bool.false_ne_true,
    run_bind_of_ok (noteAll_eq _ _), run_bind_of_ok (outcome_eq _ _), hnoted, invalidated]
  cases statements.any (·.touched.contains o.sideTable) <;> rfl

/-- As far as the database goes, a batch is concluded where its statements lead to. -/
theorem exists_executeDdl_eq (hdry : o.dryRun = false) (hsql : l.sql ≠ []) (ignoreMissing : Bool)
    (s : Site) :
    ∃ applied u, executeDdl o statements ignoreMissing s = concludeDdl o l ignoreMissing applied u ∧
      u.database = ending (Database.updateDdl l.sql) s.database ∧
      (u.cache.ledger = none ∨ u.cache.ledger = s.cache.ledger) ∧
      ∀ e, applied = .error e → ∃ db, Database.updateDdl l.sql s.database = .error e db := by
  obtain ⟨notes, heq⟩ := executeDdl_eq hlower hdry hsql ignoreMissing s
  obtain ⟨notes', hupdate⟩ := updateDdl_eq_call l.sql (noted notes s)
  have hending : ending (updateDdl l.sql) (noted notes s)
      = { noted notes' (noted notes s) with
        database := ending (Database.updateDdl l.sql) s.database } := by
    rw [ending_congr hupdate, ending_call]
    rfl
  refine ⟨_, _, heq, ?_, ?_, fun e he ↦ ?_⟩
  · rw [database_invalidated, hending]
  · rw [invalidated, hending]
    split
    · exact .inl rfl
    · exact .inr rfl
  · obtain ⟨t, ht⟩ := exists_of_value_error he
    rw [hupdate] at ht
    obtain ⟨db, hdb⟩ := exists_of_call_error ht
    exact ⟨db, hdb⟩

end

/-! ## What the parts keep of a database -/

section

variable {q : Database → Prop}

theorem keeps_readRows (sideTable : String) : Keeps q (Database.readRows sideTable columns) := by
  intro db h
  rcases readRows_cases sideTable db with ⟨e, he⟩ | ⟨t, ht, hcolumns⟩
  · rw [ending_of_error he]
    exact h
  · rw [ending_of_ok (readRows_of_some ht hcolumns)]
    exact h

theorem keeps_load : Keeps (fun s ↦ q s.database) (load o) := by
  refine .bind (keeps_call (keeps_readRows o.sideTable)) fun rows ↦ ?_
  cases readRows o.sideTable rows with
  | error e => exact .throw e
  | ok l => exact .bind (fun _ h ↦ h) fun _ ↦ .bind (fun _ h ↦ h) fun _ ↦ .pure l

theorem keeps_loaded : Keeps (fun s ↦ q s.database) (loaded o) := by
  refine .get_bind fun s ↦ ?_
  cases s.cache.ledger with
  | some l => exact .pure l
  | none => exact keeps_load

/-- The writes of a difference keep what each of them keeps. -/
theorem keeps_write {d : Diff}
    (hadd : ∀ f ∈ d.additions, Keeps q (Database.upsertRow o.sideTable columns (cells f)))
    (hremove : ∀ f ∈ d.removals, Keeps q (Database.deleteRow o.sideTable (keyCells f))) :
    Keeps (fun s ↦ q s.database) (write o d) := by
  have hwrite : Keeps (fun s ↦ q s.database) (writeFacts o d) :=
    .bind (.forM fun f hf ↦ keeps_call (hadd f hf)) fun _ ↦ .forM fun f hf ↦
      keeps_call (hremove f hf)
  refine .ite (fun _ ↦ .pure _) fun _ ↦ .bind (fun _ hs ↦ hs) fun _ ↦ .ite ?_ fun _ ↦ ?_
  · exact fun _ ↦ .bind (fun _ hs ↦ hs) fun _ ↦ .pure _
  · refine .bind (fun s hs ↦ (ending_outcome _ s).symm ▸ hwrite s hs) fun r ↦ ?_
    cases r with
    | error e => exact .bind (fun _ hs ↦ hs) fun _ ↦ .throw e
    | ok u => exact .bind keeps_load fun _ ↦ .pure _

section

variable (hwrite : ∀ d, Keeps (fun s ↦ q s.database) (write o d))

include hwrite

theorem keeps_syncEntities (entities : List Entity) (ignoreMissing : Bool) :
    Keeps (fun s ↦ q s.database) (syncEntities o entities ignoreMissing) :=
  .bind keeps_loaded fun _ ↦ .get_bind fun _ ↦ .bind (fun _ hs ↦ hs) fun _ ↦
    .bind (keeps_ofExcept _) fun d ↦ .bind (hwrite d) fun _ ↦ .pure d

theorem keeps_applyDelta (delta : Delta) (ignoreMissing : Bool) :
    Keeps (fun s ↦ q s.database) (applyDelta o delta ignoreMissing) :=
  .ite (fun _ ↦ .pure _) fun _ ↦ .bind keeps_loaded fun _ ↦ .get_bind fun _ ↦
    .bind (fun _ hs ↦ hs) fun _ ↦
    .bind (keeps_ofExcept _) fun d ↦ .bind (hwrite d) fun _ ↦ .pure d

end

/-- A property of databases that the writes of facts keep. -/
structure WriteSafe (sideTable : String) (q : Database → Prop) : Prop where
  upsert : ∀ f, Keeps q (Database.upsertRow sideTable columns (cells f))
  delete : ∀ f, Keeps q (Database.deleteRow sideTable (keyCells f))

/-- The writes of facts keep what does not depend on the rows of the side table. -/
theorem WriteSafe.of_modifyRows {sideTable : String} {q : Database → Prop}
    (h : ∀ db f, q db → q (Database.modifyRows sideTable f db.counted)) : WriteSafe sideTable q :=
  ⟨fun _ ↦ Database.keeps_upsertRow fun db _ _ hdb _ _ _ ↦ h db _ hdb,
    fun _ ↦ Database.keeps_deleteRow fun db hdb ↦ h db _ hdb⟩

variable (h : WriteSafe o.sideTable q)

include h

theorem WriteSafe.write (d : Diff) : Keeps (fun s ↦ q s.database) (write o d) :=
  keeps_write (fun f _ ↦ h.upsert f) fun f _ ↦ h.delete f

theorem WriteSafe.syncEntities (entities : List Entity) (ignoreMissing : Bool) :
    Keeps (fun s ↦ q s.database) (syncEntities o entities ignoreMissing) :=
  keeps_syncEntities h.write entities ignoreMissing

theorem WriteSafe.applyDelta (delta : Delta) (ignoreMissing : Bool) :
    Keeps (fun s ↦ q s.database) (applyDelta o delta ignoreMissing) :=
  keeps_applyDelta h.write delta ignoreMissing

theorem WriteSafe.concludeDdl (l : Lowered) (ignoreMissing : Bool)
    (applied : Except PassError Unit) :
    Keeps (fun s ↦ q s.database) (concludeDdl o l ignoreMissing applied) := by
  have hsteady : Steady fun s ↦ q s.database := fun _ _ _ hs ↦ hs
  refine .bind (hsteady.reloadTables true) fun _ ↦ ?_
  cases applied with
  | error e => exact .throw e
  | ok _ =>
    refine .ite (fun _ ↦ .pure _) fun _ ↦ .get_bind fun s ↦ .ite ?_ fun _ ↦ ?_
    · exact fun _ ↦ .bind (hsteady.note _) fun _ ↦ .pure _
    · refine .bind (h.applyDelta l.delta ignoreMissing) fun d ↦ .ite (fun _ ↦ ?_) fun _ ↦ .pure _
      exact .bind (hsteady.reloadTables ignoreMissing) fun _ ↦ .pure _

/-- A batch keeps what each of its statements keeps. -/
theorem WriteSafe.executeDdl {statements : List Statement}
    (hsql : ∀ l, Statement.lowerAll statements = .ok l → ∀ x ∈ l.sql, Keeps q (Database.execute x))
    (ignoreMissing : Bool) :
    Keeps (fun s ↦ q s.database) (executeDdl o statements ignoreMissing) := by
  intro s hs
  cases hlower : Statement.lowerAll statements with
  | error e =>
    rw [ending_of_error (executeDdl_of_error hlower ignoreMissing s)]
    exact hs
  | ok l =>
    by_cases hnil : l.sql = []
    · rw [ending_of_ok (executeDdl_of_nil hlower hnil ignoreMissing s)]
      exact hs
    · cases hdry : o.dryRun with
      | true =>
        rw [ending_of_ok (executeDdl_of_dryRun hlower hdry hnil ignoreMissing s)]
        exact hs
      | false =>
        have hupdate : Keeps q (Database.updateDdl l.sql) := .forM (hsql l hlower)
        obtain ⟨applied, u, heq, hdatabase, -, -⟩ :=
          exists_executeDdl_eq hlower hdry hnil ignoreMissing s
        rw [ending_congr heq]
        refine h.concludeDdl l ignoreMissing applied u ?_
        change q u.database
        rw [hdatabase]
        exact hupdate s.database hs

end

end Pass

end SchemaLedger
