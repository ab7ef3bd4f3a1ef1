import Mathlib
import SchemaLedger.Proofs.Synchronization.Settled

/-!
# What a batch has done

A batch of statements that succeeds has gone one of four ways. There was nothing to execute; or
there were no facts to store, or nowhere to store them; or nothing had to be written; or the facts
have been written and the tables read back once more. Except in the first, its statements have been
executed and the tables read back with the facts that were cached at that point.
-/

namespace SchemaLedger

open SideTable

namespace Pass

variable {o : PassOptions} {statements : List Statement} {ignoreMissing : Bool} {s t : Site}

theorem cache_updateDdl {sql : List String} {u : Site} (hok : updateDdl sql s = .ok () u) :
    u.cache = s.cache := by
  have hkeeps : Keeps (fun v ↦ v.cache = s.cache) (updateDdl sql) := by
    refine .forM fun x _ ↦ .bind (fun v hv ↦ hv) fun _ v hv ↦ ?_
    rw [ending_call]
    exact hv
  rw [← ending_of_ok hok]
  exact hkeeps s rfl

/-- Statements are executed one after another. -/
theorem exists_of_updateDdl_cons {x : String} {sql : List String}
    (hok : updateDdl (x :: sql) s = .ok () t) :
    ∃ db m, s.database.run x = .ok db ∧
      m.database = { db with appliedDdl := db.appliedDdl ++ [x] } ∧
      updateDdl sql m = .ok () t := by
  obtain ⟨u, m, hx, hsql⟩ := exists_of_run_bind_ok hok
  have hsingleton : updateDdl [x] s = .ok () m := run_bind_of_ok hx
  obtain ⟨db, hrun, rfl⟩ := exists_of_updateDdl_singleton hsingleton
  exact ⟨db, _, hrun, rfl, hsql⟩

/-- Tables that have been read back are those of the database, with the facts that are cached. -/
theorem of_reloadTables {n : Nat} (hok : reloadTables ignoreMissing s = .ok n t) :
    ∃ r, s.database.described = .ok r ∧ t.database = s.database ∧ t.cache.ledger = s.cache.ledger ∧
      t.cache.tables = r.map fun _ t' ↦ t'.withFacts t.cache.ledger := by
  obtain ⟨r, hr, hcovers⟩ := exists_of_reloadTables hok
  obtain ⟨journal, heq⟩ := reloadTables_eq hr hcovers
  obtain ⟨-, rfl⟩ := EStateM.Result.ok.inj (heq.symm.trans hok)
  exact ⟨r, hr, rfl, rfl, rfl⟩

/-- Its statements have been executed, the ledger has been dropped where they touch the side table,
and the tables have been read back. -/
structure Accepted (o : PassOptions) (statements : List Statement) (s : Site) (l : Lowered)
    (r : Schema) (v : Site) : Prop where
  lowered : Statement.lowerAll statements = .ok l
  nonempty : l.sql ≠ []
  executed : ∃ notes u, updateDdl l.sql (noted notes s) = .ok () u ∧ v.database = u.database
  described : v.database.described = .ok r
  ledger : v.cache.ledger
    = if statements.any (·.touched.contains o.sideTable) then none else s.cache.ledger
  tables : v.cache.tables = r.map fun _ t ↦ t.withFacts v.cache.ledger

theorem Accepted.fresh {l : Lowered} {r : Schema} {v : Site} (h : Accepted o statements s l r v)
    (hs : s.Fresh o.sideTable) : v.Fresh o.sideTable := by
  obtain ⟨notes, u, hupdate, hdatabase⟩ := h.executed
  have hsound : v.database.Sound := by
    rw [hdatabase, ← ending_of_ok hupdate]
    exact keeps_sound_updateDdl l.sql _ hs.sound
  by_cases htouched : statements.any (·.touched.contains o.sideTable) = true
  · exact .of_none hsound (h.ledger.trans (if_pos htouched))
  · have huntouched : ∀ x ∈ statements, o.sideTable ∉ x.touched := fun x hx hmem ↦
      htouched (List.any_eq_true.2 ⟨x, hx, List.contains_iff_mem.2 hmem⟩)
    have hkept :=
      keeps_fresh_updateDdl (not_removes_of_lowerAll h.lowered huntouched) (noted notes s)
      ⟨hs.sound, hs.ledger⟩
    rw [ending_of_ok hupdate] at hkept
    refine ⟨hsound, fun l' hl' ↦ ?_⟩
    rw [h.ledger, if_neg htouched] at hl'
    rw [hdatabase]
    exact hkept.ledger l' (by rw [cache_updateDdl hupdate]; exact hl')

/-- The ways in which a batch succeeds. -/
inductive Executed (o : PassOptions) (statements : List Statement) (ignoreMissing : Bool)
    (s : Site) :
    List String → Diff → Site → Prop
  | idle {l : Lowered} (notes : List Note) (lowered : Statement.lowerAll statements = .ok l)
      (empty : l.sql = []) : Executed o statements ignoreMissing s l.sql {} (noted notes s)
  | unstored {l : Lowered} {r : Schema} {v : Site} (notes : List Note)
      (accepted : Accepted o statements s l r v)
      (unsaid : l.delta.isEmpty = true ∨ v.cache.tables.contains o.sideTable = false) :
      Executed o statements ignoreMissing s l.sql {} (noted notes v)
  | unchanged {l : Lowered} {r : Schema} {v t : Site} {d : Diff}
    (accepted : Accepted o statements s l r v)
      (delta : l.delta.isEmpty = false) (applied : applyDelta o l.delta ignoreMissing v = .ok d t)
      (empty : d.isEmpty = true) : Executed o statements ignoreMissing s l.sql d t
  | stored {l : Lowered} {r : Schema} {v w t : Site} {d : Diff} {n : Nat}
      (accepted : Accepted o statements s l r v) (delta : l.delta.isEmpty = false)
      (applied : applyDelta o l.delta ignoreMissing v = .ok d w) (nonempty : d.isEmpty = false)
      (reloaded : reloadTables ignoreMissing w = .ok n t) :
          Executed o statements ignoreMissing s l.sql d t

/-- A batch that succeeds has gone one of the four ways. -/
theorem executed_of_executeDdl (hdry : o.dryRun = false) {sql : List String} {d : Diff}
    (hok : executeDdl o statements ignoreMissing s = .ok (sql, d) t) :
    Executed o statements ignoreMissing s sql d t := by
  cases hlower : Statement.lowerAll statements with
  | error e =>
    rw [executeDdl_of_error hlower] at hok
    contradiction
  | ok l =>
    by_cases hnil : l.sql = []
    · rw [executeDdl_of_nil hlower hnil] at hok
      obtain ⟨heq, rfl⟩ := EStateM.Result.ok.inj hok
      obtain ⟨rfl, rfl⟩ := Prod.mk.inj heq
      exact .idle _ hlower hnil
    · obtain ⟨notes, heq⟩ := executeDdl_eq hlower hdry hnil ignoreMissing s
      rw [heq] at hok
      obtain ⟨n, v, hreload, hok⟩ := exists_of_run_bind_ok hok
      obtain ⟨r, hr, hdatabase, hledger, htables⟩ := of_reloadTables hreload
      cases hupdate : updateDdl l.sql (noted notes s) with
      | error e u =>
        rw [value, hupdate] at hok
        contradiction
      | ok x u =>
        rw [value, hupdate] at hok
        rw [ending_of_ok hupdate] at hr hdatabase hledger
        rw [database_invalidated] at hdatabase
        have haccepted : Accepted o statements s l r v := by
          refine ⟨hlower, hnil, ⟨notes, u, hupdate, hdatabase⟩, ?_, ?_, htables⟩
          · rw [hdatabase, ← database_invalidated o statements u]
            exact hr
          · rw [hledger, invalidated]
            split
            · rfl
            · exact congrArg Cache.ledger (cache_updateDdl (s := noted notes s) hupdate)
        dsimp only at hok
        split at hok
        · rename_i hdelta
          obtain ⟨heq, rfl⟩ := EStateM.Result.ok.inj hok
          obtain ⟨rfl, rfl⟩ := Prod.mk.inj heq
          have hv : v = noted [] v := by rw [noted, List.append_nil]
          rw [hv]
          exact .unstored _ haccepted (.inl hdelta)
        · rename_i hdelta
          obtain ⟨_, _, hget, hok⟩ := exists_of_run_bind_ok hok
          obtain ⟨rfl, rfl⟩ := EStateM.Result.ok.inj hget
          split at hok
          · rename_i hmissing
            rw [run_bind_of_ok (note_eq _ _)] at hok
            obtain ⟨heq, rfl⟩ := EStateM.Result.ok.inj hok
            obtain ⟨rfl, rfl⟩ := Prod.mk.inj heq
            exact .unstored _ haccepted (.inr (by simpa using hmissing))
          · obtain ⟨d', w, happlied, hok⟩ := exists_of_run_bind_ok hok
            split at hok
            · rename_i hd
              obtain ⟨n, x, hreload, hok⟩ := exists_of_run_bind_ok hok
              obtain ⟨heq, rfl⟩ := EStateM.Result.ok.inj hok
              obtain ⟨rfl, rfl⟩ := Prod.mk.inj heq
              exact .stored haccepted (Bool.eq_false_iff.2 hdelta) happlied
                (by simpa using hd) hreload
            · rename_i hd
              obtain ⟨heq, rfl⟩ := EStateM.Result.ok.inj hok
              obtain ⟨rfl, rfl⟩ := Prod.mk.inj heq
              exact .unchanged haccepted (Bool.eq_false_iff.2 hdelta) happlied (by simpa using hd)

/-! ## Facts of a batch -/

theorem tables_of_loaded {l : Ledger} (h : loaded o s = .ok l t) :
    t.cache.tables = s.cache.tables := by
  cases hledger : s.cache.ledger with
  | some l' =>
    rw [loaded_of_some hledger] at h
    obtain ⟨-, rfl⟩ := EStateM.Result.ok.inj h
    rfl
  | none =>
    rw [loaded_of_none hledger] at h
    obtain ⟨-, -, hcache⟩ := exists_of_load h
    rw [hcache]

section

variable {delta : Delta} (hdelta : delta.isEmpty = false) (ignoreMissing : Bool)

include hdelta

theorem applyDelta_of_error {e : PassError} (h : loaded o s = .error e t) :
    applyDelta o delta ignoreMissing s = .error e t := by
  rw [applyDelta, if_neg (Bool.not_eq_true _ ▸ hdelta)]
  exact run_bind_of_error h

/-- Once the ledger is there, the difference is computed and written. -/
theorem applyDelta_of_loaded {l : Ledger} (h : loaded o s = .ok l t) :
    applyDelta o delta ignoreMissing s =
      (do
        let d ← ofExcept (Diff.ofDelta delta l s.cache.tables ignoreMissing)
        write o d
        return d : Pass Diff)
        (noted (missingNotes s.cache.tables ignoreMissing (fun f ↦ .factDropped f.table f.column)
          (l.applyAll delta).entries) t) := by
  rw [applyDelta, if_neg (Bool.not_eq_true _ ▸ hdelta), run_bind_of_ok h, ← tables_of_loaded h]
  exact (run_bind_of_ok (m := get) rfl).trans (run_bind_of_ok (noteAll_eq _ _))

end

/-- What is made of the facts is compared with the ledger of the side table, which is cached from
then on, and the difference is written. -/
theorem exists_of_applyDelta {delta : Delta} (hdelta : delta.isEmpty = false) {d : Diff}
    (h : s.Fresh o.sideTable) (hok : applyDelta o delta ignoreMissing s = .ok d t) :
    ∃ l m, stored o.sideTable s.database = .ok l ∧
      Diff.ofDelta delta l s.cache.tables ignoreMissing = .ok d ∧ m.Fresh o.sideTable ∧
      m.database = s.database ∧ m.cache = ⟨s.cache.tables, some l⟩ ∧ write o d m = .ok () t := by
  cases hloaded : loaded o s with
  | error e m =>
    rw [applyDelta_of_error hdelta ignoreMissing hloaded] at hok
    contradiction
  | ok l m =>
    obtain ⟨hfresh, hdatabase, htables, hledger, hstored⟩ := of_loaded h hloaded
    rw [applyDelta_of_loaded hdelta ignoreMissing hloaded] at hok
    obtain ⟨d', _, hd, hok⟩ := exists_of_run_bind_ok hok
    obtain ⟨hdiff, rfl⟩ := exists_of_ofExcept hd
    obtain ⟨_, u, hwrite, hok⟩ := exists_of_run_bind_ok hok
    obtain ⟨rfl, rfl⟩ := EStateM.Result.ok.inj hok
    have hcache : m.cache = ⟨s.cache.tables, some l⟩ := by rw [← htables, ← hledger]
    exact ⟨l, noted _ m, hdatabase ▸ hstored, hdiff, ⟨hfresh.sound, hfresh.ledger⟩, hdatabase,
      hcache, hwrite⟩

/-- What a delta makes of the stored facts is compared with them and written. -/
theorem applyDelta_eq {delta : Delta} (hdelta : delta.isEmpty = false) {l : Ledger}
    (hs : s.Fresh o.sideTable) (hl : stored o.sideTable s.database = .ok l) (ignoreMissing : Bool) :
    ∃ notes, applyDelta o delta ignoreMissing s =
      (do
        let d ← ofExcept (Diff.ofDelta delta l s.cache.tables ignoreMissing)
        write o d
        return d : Pass Diff)
        (noted notes { s with cache := ⟨s.cache.tables, some l⟩ }) := by
  have hloaded : ∃ notes,
      loaded o s = .ok l (noted notes { s with cache := ⟨s.cache.tables, some l⟩ }) := by
    cases hledger : s.cache.ledger with
    | none =>
      exact ⟨[.ledgerLoaded o.sideTable l.size], (loaded_of_none hledger).trans (load_of_stored hl)⟩
    | some l' =>
      obtain rfl : l' = l := Except.ok.inj ((hs.ledger l' hledger).symm.trans hl)
      refine ⟨[], (loaded_of_some hledger).trans ?_⟩
      rw [noted, List.append_nil, ← hledger]
  obtain ⟨notes, hloaded⟩ := hloaded
  refine ⟨notes ++ missingNotes s.cache.tables ignoreMissing (fun f ↦ .factDropped f.table f.column)
    (l.applyAll delta).entries, ?_⟩
  rw [applyDelta_of_loaded hdelta ignoreMissing hloaded, noted, noted, noted, List.append_assoc]

theorem writeSafe_schema (sideTable : String) (r : Schema) :
    WriteSafe sideTable fun db ↦ db.schema = r :=
  .of_modifyRows fun db f h ↦ (Database.schema_modifyRows db.counted sideTable f).trans h

/-- Facts are written without any change to the tables. -/
theorem schema_of_applyDelta {delta : Delta} {d : Diff}
    (hok : applyDelta o delta ignoreMissing s = .ok d t) :
    t.database.schema = s.database.schema := by
  rw [← ending_of_ok hok]
  exact (writeSafe_schema o.sideTable s.database.schema).applyDelta delta ignoreMissing s rfl

/-- Where there is nothing to write, nothing happens. -/
theorem eq_of_write_of_isEmpty {d : Diff} (hd : d.isEmpty = true) (hok : write o d s = .ok () t) :
    t = s := by
  rw [write, if_pos hd] at hok
  exact (EStateM.Result.ok.inj hok).2.symm

/-- A side table of its own name. -/
def factOptions : PassOptions := { sideTable := "facts" }

/-- The statement of a side table with a given key. -/
def factTable (key : List String) : Statement :=
  .createTable
    { table := "facts"
      definitions := .primaryKey (key.map fun n ↦ ⟨n, .asc⟩) ::
        columns.map fun n ↦ .column { name := n, dataType := ⟨"int", none, false⟩ } }

/-- A table of one column. -/
def oneColumn (column : ColumnDef) : CreateTable :=
  { table := "t", definitions := [.column column] }

/-- A column of which nothing is said. -/
def silent : ColumnDef := { name := "a", dataType := ⟨"int", none, false⟩ }

/-- A column with numbers for values. -/
def numbered : ColumnDef := { silent with autoIncrement := true }

end Pass

end SchemaLedger
