import Mathlib
import SchemaLedger.Proofs.Reconciliation.SideTable
import SchemaLedger.Proofs.Synchronization.Cache
import SchemaLedger.Proofs.Synchronization.Reload

/-!
# Where a pass ends

A pass that succeeds leaves a side table that holds a ledger with a difference carried out, where
the difference is the one between that ledger and the entities. The same ledger is cached, and so
are the tables of the database with its facts.

What the cache was before does not matter: the ledger is loaded as soon as the side table is there,
and reading the tables back leaves nothing of those that were cached.
-/

namespace SchemaLedger

open SideTable

namespace Pass

variable {o : PassOptions}

/-! ## The side table is there -/

theorem ledger_of_fresh {l : Ledger} {s : Site} (h : s.Fresh o.sideTable)
    (hl : stored o.sideTable s.database = .ok l) :
    s.cache.ledger = none ∨ s.cache.ledger = some l := by
  cases hledger : s.cache.ledger with
  | none => exact .inl rfl
  | some l' => exact .inr (congrArg some (Except.ok.inj ((h.ledger l' hledger).symm.trans hl)))

/-- A cached ledger is the one that the side table holds. -/
theorem fresh_of_holds {l : Ledger} {s : Site} (h : s.database.Holds o.sideTable l)
    (hl : s.cache.ledger = none ∨ s.cache.ledger = some l) : s.Fresh o.sideTable := by
  refine ⟨h.sound, fun l' hl' ↦ ?_⟩
  rw [hl'] at hl
  rw [Option.some.inj (hl.resolve_left (Option.some_ne_none l'))]
  exact h.stored

/-- The side table is sound and standard. -/
theorem writeSafe_standard (sideTable : String) :
    WriteSafe sideTable fun db ↦ db.Sound ∧ Standard sideTable db := by
  have hstandard : WriteSafe sideTable (Standard sideTable) :=
    .of_modifyRows fun _ _ h ↦ standard_modifyRows h _ _
  exact ⟨fun f ↦ (Database.keeps_sound_upsertRow _ _ _).and (hstandard.upsert f),
    fun f ↦ (Database.keeps_sound_deleteRow _ _).and (hstandard.delete f)⟩

theorem keeps_standard_execute {sideTable x : String}
    (hx : ∀ c, Command.ofText? x = some c → sideTable ∉ c.removes) :
    Keeps (fun db ↦ db.Sound ∧ Standard sideTable db) (Database.execute x) := by
  rintro db ⟨hsound, hstandard⟩
  refine ⟨Database.keeps_sound_execute x db hsound, ?_⟩
  rcases Database.execute_cases x db with ⟨e, he⟩ | ⟨db', hrun, hok⟩
  · rwa [ending_of_error he]
  · rw [ending_of_ok hok]
    exact standard_of_extends (hsound.extends_of_run hrun hx) hstandard

end Pass

/-- If the side table is there, it has its columns and its key. -/
structure Site.Prepared (sideTable : String) (s : Site) : Prop where
  sound : s.database.Sound
  side : ∀ u, s.database.tables[sideTable]? = some u → u.schema.IsSideTable

/-- The side table is there to be read and written, and a cached ledger is the one that it holds. -/
structure Site.Ready (sideTable : String) (s : Site) : Prop extends s.Fresh sideTable where
  standard : Standard sideTable s.database

namespace Pass

variable {o : PassOptions}

theorem steady_prepared (sideTable : String) : Steady (Site.Prepared sideTable) :=
  fun _ _ _ h ↦ ⟨h.sound, h.side⟩

theorem steady_ready (sideTable : String) : Steady (Site.Ready sideTable) :=
  fun _ _ _ h ↦ ⟨⟨h.sound, h.ledger⟩, h.standard⟩

/-- Statements that do not touch the side table leave it ready. -/
theorem ready_executeDdl (hdry : o.dryRun = false) {statements : List Statement}
    (htouched : ∀ s ∈ statements, o.sideTable ∉ s.touched) (ignoreMissing : Bool) :
    Keeps (Site.Ready o.sideTable) (executeDdl o statements ignoreMissing) := by
  intro s h
  have hstandard := (writeSafe_standard o.sideTable).executeDdl (fun l hl x hx ↦
    keeps_standard_execute (not_removes_of_lowerAll hl htouched x hx)) ignoreMissing s
      ⟨h.sound, h.standard⟩
  exact ⟨fresh_executeDdl hdry statements ignoreMissing h.toFresh, hstandard.2⟩

theorem exists_of_load {s t : Site} {l : Ledger} (h : load o s = .ok l t) :
    stored o.sideTable s.database = .ok l ∧ t.database = s.database ∧
    t.cache = { s.cache with ledger := some l } := by
  cases hs : stored o.sideTable s.database with
  | error e =>
    obtain ⟨e', he⟩ := load_of_error hs
    rw [he] at h
    contradiction
  | ok l' =>
    rw [load_of_stored hs] at h
    obtain ⟨rfl, rfl⟩ := EStateM.Result.ok.inj h
    exact ⟨rfl, rfl, rfl⟩

theorem exists_of_updateDdl_singleton {x : String} {s t : Site} (h : updateDdl [x] s = .ok () t) :
    ∃ db, s.database.run x = .ok db ∧
      t = { noted [.statementApplying x] s with
        database := { db with appliedDdl := db.appliedDdl ++ [x] } } := by
  obtain ⟨u, m, hx, hnil⟩ := exists_of_run_bind_ok h
  obtain ⟨-, rfl⟩ := EStateM.Result.ok.inj hnil
  obtain ⟨_, _, hnote, hx⟩ := exists_of_run_bind_ok hx
  obtain ⟨-, rfl⟩ := EStateM.Result.ok.inj hnote
  obtain ⟨db, hdb, rfl⟩ := exists_of_call hx
  rcases Database.execute_cases x s.database with ⟨e, he⟩ | ⟨db', hrun, hok⟩
  · cases he.symm.trans hdb
  · obtain ⟨-, rfl⟩ := EStateM.Result.ok.inj (hok.symm.trans hdb)
    exact ⟨db', hrun, rfl⟩

theorem updateDdl_singleton {x : String} {s : Site} {db : Database}
    (h : s.database.run x = .ok db) :
    updateDdl [x] s = .ok () { noted [.statementApplying x] s with
      database := { db with appliedDdl := db.appliedDdl ++ [x] } } := by
  have hexecute := Database.execute_of_run h
  have hcall : call (Database.execute x) (noted [.statementApplying x] s) = .ok ()
      { noted [.statementApplying x] s with
        database := { db with appliedDdl := db.appliedDdl ++ [x] } } := by
    rw [call, show (noted [.statementApplying x] s).database = s.database from rfl, hexecute]
  exact run_bind_of_ok ((run_bind_of_ok (note_eq _ s)).trans hcall)

/-- Once the side table has been created and loaded it is ready, whatever was cached before. -/
theorem ready_of_createAndLoad (hdry : o.dryRun = false) {s t : Site} {l : Ledger}
    (hsound : s.database.Sound)
    (hside : ∀ u, s.database.tables[o.sideTable]? = some u → u.schema.IsSideTable)
    (h : createAndLoad o s = .ok l t) : t.Ready o.sideTable := by
  rw [createAndLoad, lower_statement, ofExcept_ok, pure_bind, hdry, if_neg Bool.false_ne_true,
    run_bind_of_ok (note_eq _ s)] at h
  obtain ⟨_, m, hupdate, hload⟩ := exists_of_run_bind_ok h
  obtain ⟨db, hrun, rfl⟩ := exists_of_updateDdl_singleton hupdate
  obtain ⟨hstored, hdatabase, hcache⟩ := exists_of_load hload
  have hdb : db.Sound := hsound.run hrun
  obtain ⟨u, hu, -⟩ := stored_eq_ok.1 hstored
  refine ⟨⟨?_, fun l' hl' ↦ ?_⟩, ?_⟩
  · rw [hdatabase]
    exact ⟨hdb.named, hdb.tables⟩
  · rw [hcache] at hl'
    rw [← Option.some.inj hl', hdatabase]
    exact hstored
  · rw [hdatabase]
    exact ⟨u, hu, isSideTable_of_run hsound hside hrun hu⟩

end Pass

/-! ## The end of a pass -/

theorem Fact.existsIn_map_withFacts (f : Fact) (r : Schema) (ledger : Option Ledger) :
    f.existsIn (r.map fun _ t ↦ t.withFacts ledger) = f.existsIn r := by
  rw [existsIn, existsIn, Std.ExtTreeMap.getElem?_map]
  cases r[f.table]? with
  | none => rfl
  | some t =>
    rw [Option.map_some, Option.any_some, Option.any_some, Bool.eq_iff_iff, Table.hasColumn_iff,
      Table.hasColumn_iff, Table.columnNames_withFacts]

/-- The side table holds a ledger in which nothing is left to do for entities: it comes from another
by carrying out the difference between that one and the entities. It is cached too, along with the
tables of the database with its facts. -/
structure Site.Settled (sideTable : String) (entities : List Entity) (ignoreMissing : Bool)
    (s : Site) (r : Schema) (l : Ledger) (d : Diff) : Prop where
  described : s.database.described = .ok r
  diff : Diff.ofEntities entities l r ignoreMissing = .ok d
  holds : s.database.Holds sideTable (l.writeAll d.writes)
  covers : ignoreMissing = true ∨ ∀ t ∈ r.values, t.Covers (some (l.writeAll d.writes))
  cache : s.cache = ⟨r.map fun _ t ↦ t.withFacts (some (l.writeAll d.writes)),
    some (l.writeAll d.writes)⟩

namespace Pass

variable {o : PassOptions} {entities : List Entity} {statements : List Statement}
    {ignoreMissing : Bool}

/-- What the entities are compared with is the ledger of the side table, and what becomes of it is
stored and cached. -/
theorem exists_of_syncEntities (hdry : o.dryRun = false) {s t : Site} {d : Diff}
    (h : s.Ready o.sideTable) (hok : syncEntities o entities ignoreMissing s = .ok d t) :
    ∃ l, stored o.sideTable s.database = .ok l ∧
      Diff.ofEntities entities l s.cache.tables ignoreMissing = .ok d ∧
      t.database.Holds o.sideTable (l.writeAll d.writes) ∧
      t.cache.ledger = some (l.writeAll d.writes) ∧
      t.database.schema = s.database.schema := by
  obtain ⟨l, m, hloaded, hok⟩ := exists_of_run_bind_ok hok
  obtain ⟨hfresh, hdatabase, htables, hledger, hstored⟩ := of_loaded h.toFresh hloaded
  obtain ⟨_, _, hget, hok⟩ := exists_of_run_bind_ok hok
  obtain ⟨rfl, rfl⟩ := EStateM.Result.ok.inj hget
  rw [run_bind_of_ok (noteAll_eq _ _)] at hok
  obtain ⟨d', _, hd, hok⟩ := exists_of_run_bind_ok hok
  obtain ⟨hdiff, rfl⟩ := exists_of_ofExcept hd
  obtain ⟨_, u, hwrite, hok⟩ := exists_of_run_bind_ok hok
  obtain ⟨rfl, rfl⟩ := EStateM.Result.ok.inj hok
  have hholds : (noted (missingNotes m.cache.tables ignoreMissing
      (fun f ↦ .entityColumnMissing f.table f.column) (entities.flatMap Entity.desiredFacts))
        m).database.Holds
        o.sideTable l := ⟨hfresh.sound, hdatabase ▸ h.standard, hstored⟩
  obtain ⟨hholds, hledger, hschema, -⟩ := holds_of_write hdry hholds hledger hwrite
  exact ⟨l, hdatabase ▸ hstored, htables ▸ hdiff, hholds, hledger, hdatabase ▸ hschema⟩

/-- A pass that succeeds leaves nothing to do for its entities. -/
theorem settled_of_synchronize (hdry : o.dryRun = false) {s t : Site} {report : Report}
    (hsound : s.database.Sound)
    (hside : ∀ u, s.database.tables[o.sideTable]? = some u → u.schema.IsSideTable)
    (htouched : ∀ x ∈ statements, o.sideTable ∉ x.touched)
    (hok : synchronize o entities statements ignoreMissing s = .ok report t) :
    ∃ r l d, t.Settled o.sideTable entities ignoreMissing r l d := by
  have hprepared := steady_prepared o.sideTable
  have hready := steady_ready o.sideTable
  rw [synchronize, run_bind_of_ok (note_eq _ s)] at hok
  obtain ⟨_, s₁, hreload, hok⟩ := exists_of_run_bind_ok hok
  have h₁ : s₁.Prepared o.sideTable :=
    ending_of_ok hreload ▸ hprepared.reloadTables true (noted _ s) ⟨hsound, hside⟩
  obtain ⟨_, s₂, hcreate, hok⟩ := exists_of_run_bind_ok hok
  have h₂ : s₂.Ready o.sideTable := ready_of_createAndLoad hdry h₁.sound h₁.side hcreate
  obtain ⟨_, s₃, hexecute, hok⟩ := exists_of_run_bind_ok hok
  have h₃ : s₃.Ready o.sideTable :=
    ending_of_ok hexecute ▸ ready_executeDdl hdry htouched ignoreMissing s₂ h₂
  obtain ⟨_, s₄, hreload, hok⟩ := exists_of_run_bind_ok hok
  have h₄ : s₄.Ready o.sideTable := ending_of_ok hreload ▸ hready.reloadTables ignoreMissing s₃ h₃
  obtain ⟨r, hr, hcovers⟩ := exists_of_reloadTables hreload
  obtain ⟨_, heq⟩ := reloadTables_eq hr hcovers
  obtain ⟨-, hs₄⟩ := EStateM.Result.ok.inj (heq.symm.trans hreload)
  obtain ⟨d, s₅, hsync, hok⟩ := exists_of_run_bind_ok hok
  obtain ⟨l, -, hdiff, hholds, hledger, hschema⟩ := exists_of_syncEntities hdry h₄ hsync
  have hr₅ : s₅.database.described = .ok r := by
    rw [Database.described_congr hschema, ← hs₄]
    exact hr
  obtain ⟨_, s₆, hreload, hok⟩ := exists_of_run_bind_ok hok
  obtain ⟨r', hr', hcovers⟩ := exists_of_reloadTables hreload
  obtain rfl : r = r' := Except.ok.inj (hr₅.symm.trans hr')
  obtain ⟨_, heq⟩ := reloadTables_eq hr₅ hcovers
  obtain ⟨-, rfl⟩ := EStateM.Result.ok.inj (heq.symm.trans hreload)
  rw [hledger] at hcovers
  rw [run_bind_of_ok (note_eq _ _)] at hok
  obtain ⟨-, rfl⟩ := EStateM.Result.ok.inj hok
  refine ⟨r, l, d, ?_⟩
  constructor
  case described => exact hr₅
  case diff =>
    rw [← hs₄] at hdiff
    rw [← hdiff]
    exact Diff.ofEntities_congr fun f ↦ (f.existsIn_map_withFacts r _).symm
  case holds => exact hholds
  case covers => exact hcovers
  case cache => rw [← hledger]; rfl

/-- A key that the database was to make is now made by the application. -/
def shelfEntities : List Entity :=
  [{ table := "book-shelves"
     columns := [{ name := "shelf-id", generation := some (.custom "shelves") }] }]

/-- A new database of which something else is cached. -/
def shelfSite : Site := { cache := { ledger := some (.ofList [⟨"attic", "box", .default, "0"⟩]) } }

theorem isSideTable_of_shelfSite (t : StoredTable)
    (ht : shelfSite.database.tables[shelfOptions.sideTable]? = some t) : t.schema.IsSideTable := by
  rw [show shelfSite.database.tables = ∅ from rfl, Std.ExtTreeMap.getElem?_empty] at ht
  contradiction

theorem shelves_synchronize :
    (fun r ↦ (r.delta, r.extended)) <$>
        value (synchronize shelfOptions shelfEntities [shelves] false) shelfSite
      = .ok (⟨[⟨"book-shelves", "shelf-id", .strategy, "uuid"⟩], []⟩,
        ⟨[⟨"book-shelves", "shelf-id", .generator, "shelves"⟩,
          ⟨"book-shelves", "shelf-id", .strategy, "custom"⟩], []⟩) := by
  have hside : Statement.Plain [SideTable.statement shelfOptions.sideTable] := by decide +kernel
  have hshelves : Statement.Plain [shelves] := by decide +kernel
  rw [value_congr
    (agree_synchronize hside shelfEntities hshelves false shelfSite Database.orderly_empty).1]
  decide +kernel

end Pass

end SchemaLedger
