import Mathlib
import SchemaLedger.Proofs.Synchronization.Batch

/-!
# Ledgers that go stale

Bringing the side table in line with something can fail behind rows that have been written. Then the
cached ledger no longer matches what is stored, whoever has written to the side table before. It is
dropped where a write is refused. Where all writes are accepted and the side table cannot be loaded
again, the ledger from before the writes stays cached. That needs a row that is no fact, written by
somebody else while the ledger was cached: from a side table that can be read, no reconciliation
comes to one that cannot.
-/

namespace SchemaLedger

open SideTable

/-- What the side table is brought in line with. -/
inductive Reconciliation where
  | entities (entities : List Entity)
  | delta (delta : Delta)

namespace Reconciliation

/-- Brings the side table in line. -/
def run (o : PassOptions) (ignoreMissing : Bool) : Reconciliation → Pass Diff
  | entities es => Pass.syncEntities o es ignoreMissing
  | delta d => Pass.applyDelta o d ignoreMissing

/-- What is to be written, with a ledger and tables at hand. -/
def diff (stored : Ledger) (s : Schema) (ignoreMissing : Bool) :
    Reconciliation → Except SchemaError Diff
  | entities es => Diff.ofEntities es stored s ignoreMissing
  | delta d => Diff.ofDelta d stored s ignoreMissing

end Reconciliation

namespace Pass

variable {o : PassOptions}

/-! ## Counting writes -/

/-- The program makes a number of row writes or fails with fewer, and leaves the cache alone. -/
structure Writes (n : Nat) (m : Pass Unit) : Prop where
  of_ok : ∀ s t, m s = .ok () t → t.database.writes = s.database.writes + n ∧ t.cache = s.cache
  of_error : ∀ s t e, m s = .error e t → t.database.writes < s.database.writes + n

namespace Writes

theorem bind {n k : Nat} {m p : Pass Unit} (hm : Writes n m) (hp : Writes k p) :
    Writes (n + k) (do m; p) := by
  constructor
  case of_ok =>
    intro s t h
    obtain ⟨_, u, hfirst, hrest⟩ := exists_of_run_bind_ok h
    obtain ⟨hwrites, hcache⟩ := hm.of_ok s u hfirst
    obtain ⟨hwrites', hcache'⟩ := hp.of_ok u t hrest
    exact ⟨by omega, hcache'.trans hcache⟩
  case of_error =>
    intro s t e h
    rcases exists_of_run_bind_error h with hfirst | ⟨_, u, hfirst, hrest⟩
    · have hfewer := hm.of_error s t e hfirst
      omega
    · have hwrites := (hm.of_ok s u hfirst).1
      have hfewer := hp.of_error u t e hrest
      omega

theorem forM {α : Type} {xs : List α} {f : α → Pass Unit} (h : ∀ x, Writes 1 (f x)) :
    Writes xs.length (xs.forM f) := by
  induction xs with
  | nil =>
    refine ⟨fun s t hok ↦ ?_, fun s t e herror ↦ ?_⟩
    · obtain ⟨-, rfl⟩ := EStateM.Result.ok.inj hok
      exact ⟨rfl, rfl⟩
    · contradiction
  | cons x xs ih =>
    rw [List.length_cons, Nat.add_comm]
    exact (h x).bind ih

/-- A call that is refused without a trace or else counted is one write. -/
theorem call {m : DatabaseM Unit} (h : ∀ db, (∃ e, m db = .error e db) ∨ ∃ db', m db = .ok () db' ∧
    db'.writes = db.writes + 1) : Writes 1 (Pass.call m) := by
  constructor
  case of_ok =>
    intro s t hok
    obtain ⟨db, hdb, rfl⟩ := exists_of_call hok
    rcases h s.database with ⟨e, he⟩ | ⟨db', hdb', hwrites⟩
    · rw [he] at hdb
      contradiction
    · obtain ⟨-, rfl⟩ := EStateM.Result.ok.inj (hdb'.symm.trans hdb)
      exact ⟨hwrites, rfl⟩
  case of_error =>
    intro s t e herror
    rcases h s.database with ⟨e', he⟩ | ⟨db', hdb', -⟩
    · -- The refused call left the database alone, so the count is what it was.
      rw [Pass.call, he] at herror
      obtain ⟨-, rfl⟩ := EStateM.Result.error.inj herror
      exact Nat.lt_succ_self _
    · rw [Pass.call, hdb'] at herror
      contradiction

end Writes

/-- A difference takes one write for each of its facts. -/
theorem writes_writeFacts (d : Diff) : Writes d.size (writeFacts o d) := by
  refine Writes.bind (.forM fun f ↦ .call fun db ↦ ?_) (.forM fun f ↦ .call fun db ↦ ?_)
  · rcases Database.upsertRow_cases o.sideTable columns (cells f) db with he | ⟨_, _, -, -, hok⟩
    · exact .inl he
    · exact .inr ⟨_, hok, rfl⟩
  · rcases Database.deleteRow_cases o.sideTable (keyCells f) db with he | ⟨_, -, hok⟩
    · exact .inl he
    · exact .inr ⟨_, hok, rfl⟩

/-! ## Where a reconciliation fails -/

theorem eq_of_load_error {s t : Site} {e : PassError} (h : load o s = .error e t) : t = s := by
  cases hs : stored o.sideTable s.database with
  | ok l =>
    rw [load_of_stored hs] at h
    contradiction
  | error e' =>
    obtain ⟨e'', he⟩ := load_of_error hs
    exact (EStateM.Result.error.inj (he.symm.trans h)).2.symm

/-- A difference is not carried out because a write is refused, or because the side table cannot be
loaded afterwards, and could not be loaded before. -/
theorem of_write_error {d : Diff} {s t : Site} {e : PassError} (h : write o d s = .error e t) :
    t.database.writes < s.database.writes + d.size ∧ t.cache.ledger = none ∨
      t.database.writes = s.database.writes + d.size ∧ t.cache.ledger = s.cache.ledger ∧
        load o t = .error e t ∧ ¬Readable o.sideTable s.database := by
  rw [write] at h
  split at h
  · contradiction
  · rw [run_bind_of_ok (note_eq _ s)] at h
    split at h
    · contradiction
    · rw [run_bind_of_ok (outcome_eq _ _)] at h
      cases hwrite : writeFacts o d (noted _ s) with
      | error e' u =>
        have hfewer := (writes_writeFacts d).of_error _ u e' hwrite
        rw [value, hwrite, ending_of_error hwrite] at h
        obtain ⟨-, rfl⟩ := EStateM.Result.error.inj h
        exact .inl ⟨hfewer, rfl⟩
      | ok _ u =>
        obtain ⟨hwrites, hcache⟩ := (writes_writeFacts d).of_ok _ u hwrite
        rw [value, hwrite, ending_of_ok hwrite] at h
        change (load o >>= fun _ ↦ pure ()) u = _ at h
        rcases exists_of_run_bind_error h with hload | ⟨_, _, -, hpure⟩
        · -- The load that fails leaves everything as the writes left it, the cached ledger with it.
          obtain rfl := eq_of_load_error hload
          refine .inr ⟨hwrites, congrArg Cache.ledger hcache, hload, fun hreadable ↦ ?_⟩
          obtain ⟨l, hl⟩ := ending_of_ok hwrite ▸ keeps_readable_writeFacts d (noted _ s) hreadable
          rw [load_of_stored hl] at hload
          contradiction
        · contradiction

/-- A ledger that is at hand is cached. -/
theorem of_loaded_ok {s t : Site} {l : Ledger} (h : loaded o s = .ok l t) :
    t.database = s.database ∧ t.cache.tables = s.cache.tables ∧ t.cache.ledger = some l := by
  cases hl : s.cache.ledger with
  | some l' =>
    rw [loaded_of_some hl] at h
    obtain ⟨rfl, rfl⟩ := EStateM.Result.ok.inj h
    exact ⟨rfl, rfl, hl⟩
  | none =>
    rw [loaded_of_none hl] at h
    cases hs : stored o.sideTable s.database with
    | ok l' =>
      rw [load_of_stored hs] at h
      obtain ⟨rfl, rfl⟩ := EStateM.Result.ok.inj h
      exact ⟨rfl, rfl, rfl⟩
    | error e =>
      obtain ⟨e', he⟩ := load_of_error hs
      rw [he] at h
      contradiction

theorem eq_of_loaded_error {s t : Site} {e : PassError} (h : loaded o s = .error e t) : t = s := by
  cases hl : s.cache.ledger with
  | some l =>
    rw [loaded_of_some hl] at h
    contradiction
  | none => exact eq_of_load_error (loaded_of_none hl ▸ h)

/-- Behind the ledger that is at hand, a reconciliation fails over its difference or over writing
it. -/
theorem of_writing_error {notes : List Note} {x : Except SchemaError Diff} {s t : Site}
    {e : PassError}
    (h : (do noteAll notes; let d ← ofExcept x; write o d; return d : Pass Diff) s = .error e t) :
    t.database = s.database ∨ ∃ d, x = .ok d ∧ write o d (noted notes s) = .error e t := by
  rw [run_bind_of_ok (noteAll_eq notes s)] at h
  cases x with
  | error e' =>
    obtain ⟨-, rfl⟩ := EStateM.Result.error.inj h
    exact .inl rfl
  | ok d =>
    rw [ofExcept_ok, pure_bind] at h
    rcases exists_of_run_bind_error h with hwrite | ⟨_, _, -, hpure⟩
    · exact .inr ⟨d, rfl, hwrite⟩
    · contradiction

/-- A reconciliation that fails behind an accepted write fails over writing its difference. -/
theorem exists_write_error {r : Reconciliation} {ignoreMissing : Bool} {s t : Site} {e : PassError}
    (h : r.run o ignoreMissing s = .error e t) (hwrites : s.database.writes < t.database.writes) :
    ∃ l u notes d, loaded o s = .ok l u ∧ r.diff l s.cache.tables ignoreMissing = .ok d ∧
      write o d (noted notes u) = .error e t := by
  -- Both kinds of reconciliation are the same program but for their notes and their difference.
  have hshape : ∃ notes : Ledger → Schema → List Note, (do
      let l ← loaded o
      let tables := (← get).cache.tables
      noteAll (notes l tables)
      let d ← ofExcept (r.diff l tables ignoreMissing)
      write o d
      return d : Pass Diff) s = .error e t := by
    cases r with
    | entities es =>
      exact ⟨fun _ tables ↦
        missingNotes tables ignoreMissing (fun f ↦ .entityColumnMissing f.table f.column)
        (es.flatMap Entity.desiredFacts), h⟩
    | delta d =>
      rw [Reconciliation.run, applyDelta] at h
      split at h
      · contradiction
      · exact ⟨fun l tables ↦
          missingNotes tables ignoreMissing (fun f ↦ .factDropped f.table f.column)
          (l.applyAll d).entries, h⟩
  obtain ⟨notes, hrun⟩ := hshape
  rcases exists_of_run_bind_error hrun with hload | ⟨l, u, hload, hrun⟩
  · obtain rfl := eq_of_loaded_error hload
    exact absurd hwrites (lt_irrefl _)
  · obtain ⟨hdatabase, htables, -⟩ := of_loaded_ok hload
    rw [run_bind_of_ok (m := get) (a := u) (t := u) rfl] at hrun
    rcases of_writing_error hrun with hsame | ⟨d, hd, hwrite⟩
    · rw [hsame, hdatabase] at hwrites
      exact absurd hwrites (lt_irrefl _)
    · exact ⟨l, u, _, d, hload, htables ▸ hd, hwrite⟩

/-- Where a reconciliation fails behind an accepted write, the cached ledger is dropped unless all
writes of its difference have been accepted. Then the ledger that the difference was made with stays
cached, and the error is the one that loading the side table gives from then on. That happens only
where the side table could not be loaded before. -/
theorem dropped_or_stale {r : Reconciliation} {ignoreMissing : Bool} {s t : Site} {e : PassError}
    (h : r.run o ignoreMissing s = .error e t) (hwrites : s.database.writes < t.database.writes) :
    ∃ l d, value (loaded o) s = .ok l ∧ r.diff l s.cache.tables ignoreMissing = .ok d ∧
      (t.database.writes < s.database.writes + d.size ∧ t.cache.ledger = none ∨
        t.database.writes = s.database.writes + d.size ∧ t.cache.ledger = some l ∧
          load o t = .error e t ∧ ¬Readable o.sideTable s.database) := by
  obtain ⟨l, u, notes, d, hload, hd, hwrite⟩ := exists_write_error h hwrites
  obtain ⟨hdatabase, -, hledger⟩ := of_loaded_ok hload
  refine ⟨l, d, by rw [value, hload], hd, ?_⟩
  rcases of_write_error hwrite with ⟨hfewer, hnone⟩ | ⟨hall, hcached, hreload, hreadable⟩
  · exact .inl ⟨hdatabase ▸ hfewer, hnone⟩
  · exact .inr ⟨hdatabase ▸ hall, hcached.trans hledger, hreload, hdatabase ▸ hreadable⟩

/-- The table that facts are wanted about. -/
def visitors : Table where
  name := "visitors"
  columns :=
    [{ name := "id", type := .int64, isPrimary := true }, { name := "seen", type := .timestamp }]
  primaryKey := ["id"]

/-- The ledger was cached while the side table was empty. Since then somebody else has written a row
there that is no fact. -/
def meddled : Site where
  database := ending
    (Database.upsertRow "facts" columns (["visitors", "id", "comment", "by hand"].map Json.string))
    (.ofSchema (((∅ : Schema).insert "facts" (table "facts")).insert "visitors" visitors))
  cache := { tables := (∅ : Schema).insert "visitors" visitors, ledger := some ∅ }

/-- Two facts are wanted. -/
def visits : Reconciliation := .entities
  [{ table := "visitors"
     columns :=
       [{ name := "id", generation := some .uuid }, { name := "seen", createDate := true }] }]

/-- The second of the two writes is refused. -/
theorem meddled_dropped :
    ∃ s e t, s.cache.ledger.isSome = true ∧ visits.run factOptions false s = .error e t ∧
      s.database.writes < t.database.writes ∧
      ∃ l d, value (loaded factOptions) s = .ok l ∧ visits.diff l s.cache.tables false = .ok d ∧
        (t.database.writes < s.database.writes + d.size ∧ t.cache.ledger = none ∨
          t.database.writes = s.database.writes + d.size ∧ t.cache.ledger = some l ∧
            load factOptions t = .error e t ∧ ¬Readable "facts" s.database) := by
  let s : Site := { meddled with database := meddled.database.refuseAfter 1 }
  have hrun : value (visits.run factOptions false) s =
      .error (.client "upsert_row" "injected write failure") ∧
      s.database.writes < (ending (visits.run factOptions false) s).database.writes := by
    decide +kernel
  obtain ⟨t, ht⟩ := exists_of_value_error hrun.1
  have hwrites := hrun.2
  rw [ending_of_error ht] at hwrites
  exact ⟨s, _, t, rfl, ht, hwrites, dropped_or_stale ht hwrites⟩

/-- Both facts are written, and the ledger without them stays cached. -/
theorem meddled_stays_cached :
    ¬∀ (o : PassOptions) (r : Reconciliation) (ignoreMissing : Bool) (s t : Site) (e : PassError),
      r.run o ignoreMissing s = .error e t → s.database.writes < t.database.writes →
        t.cache.ledger = none := by
  intro h
  have hrun : value (visits.run factOptions false) meddled = .error (.invalidRow "facts"
        "Malformed schema text (unknown extended schema property): comment") ∧
      meddled.database.writes < (ending (visits.run factOptions false) meddled).database.writes ∧
      (ending (visits.run factOptions false) meddled).cache.ledger.map (·.entries) = some [] := by
    decide +kernel
  obtain ⟨t, ht⟩ := exists_of_value_error hrun.1
  obtain ⟨-, hwrites, hledger⟩ := hrun
  rw [ending_of_error ht] at hwrites hledger
  rw [h _ _ _ _ _ _ ht hwrites] at hledger
  exact absurd hledger (by simp)

end Pass

end SchemaLedger
