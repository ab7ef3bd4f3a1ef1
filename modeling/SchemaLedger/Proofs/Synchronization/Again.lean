import Mathlib
import SchemaLedger.Proofs.Synchronization.Settled

/-!
# A pass that is made again

Where nothing is left to do for entities, a pass for them finds nothing to do. Its only trace in the
database is the statement for the side table, which is accepted once more.
-/

namespace SchemaLedger

open SideTable

namespace Site.Settled

variable {o : PassOptions} {entities : List Entity} {ignoreMissing : Bool} {s : Site} {r : Schema}
  {l : Ledger} {d : Diff}

theorem withJournal (h : s.Settled o.sideTable entities ignoreMissing r l d) (journal : List Note) :
    Settled o.sideTable entities ignoreMissing { s with journal } r l d :=
  ⟨h.described, h.diff, h.holds, h.covers, h.cache⟩

/-- It does not matter which statements have been accepted. -/
theorem withApplied (h : s.Settled o.sideTable entities ignoreMissing r l d)
    (appliedDdl : List String) :
    Settled o.sideTable entities ignoreMissing
      { s with database := { s.database with appliedDdl } } r l d := by
  have hextends : Database.Extends { s.database with appliedDdl } s.database o.sideTable :=
    .refl s.database o.sideTable
  have hholds : Database.Holds o.sideTable { s.database with appliedDdl } (l.writeAll d.writes) :=
    ⟨⟨h.holds.sound.named, h.holds.sound.tables⟩, h.holds.standard,
      stored_of_extends hextends h.holds.stored⟩
  exact ⟨h.described, h.diff, hholds, h.covers, h.cache⟩

theorem reloadTables_eq (h : s.Settled o.sideTable entities ignoreMissing r l d) {ignore : Bool}
    (hignore : ignoreMissing = true → ignore = true) :
    ∃ n journal, Pass.reloadTables ignore s = .ok n { s with journal } := by
  have hledger : s.cache.ledger = some (l.writeAll d.writes) := by rw [h.cache]
  have hcovers : ignore = true ∨ ∀ t ∈ r.values, t.Covers s.cache.ledger := by
    rw [hledger]
    exact h.covers.imp_left hignore
  obtain ⟨journal, heq⟩ := Pass.reloadTables_eq h.described hcovers
  refine ⟨r.size, journal, ?_⟩
  rw [heq, hledger, ← h.cache]

/-- The side table is there, and what it holds is cached already. -/
theorem createAndLoad_eq (hdry : o.dryRun = false)
    (h : s.Settled o.sideTable entities ignoreMissing r l d) :
    ∃ appliedDdl journal, Pass.createAndLoad o s
      = .ok (l.writeAll d.writes) ⟨{ s.database with appliedDdl }, s.cache, journal⟩ := by
  obtain ⟨t, ht, -⟩ := h.holds.standard
  have hrun := run_ddl_of_some h.holds.sound ht
  have hcache : (⟨s.cache.tables, some (l.writeAll d.writes)⟩ : Cache) = s.cache := by rw [h.cache]
  rw [Pass.createAndLoad, lower_statement, Pass.ofExcept_ok, pure_bind, hdry,
    if_neg Bool.false_ne_true, run_bind_of_ok (Pass.note_eq _ s), sql_ddl]
  generalize (ddl o.sideTable).text = x at hrun ⊢
  have happlied := h.withApplied (s.database.appliedDdl ++ [x])
  rw [run_bind_of_ok (Pass.updateDdl_singleton (s := Pass.noted _ s) hrun), ← hcache]
  exact ⟨_, _, Pass.load_of_stored happlied.holds.stored⟩

theorem executeDdl_eq (o : PassOptions) (ignoreMissing : Bool) (s : Site) :
    ∃ journal, Pass.executeDdl o [] ignoreMissing s = .ok ([], {}) { s with journal } :=
  ⟨_, rfl⟩

theorem syncEntities_eq (h : s.Settled o.sideTable entities ignoreMissing r l d) :
    ∃ journal, Pass.syncEntities o entities ignoreMissing s = .ok {} { s with journal } := by
  have hledger : s.cache.ledger = some (l.writeAll d.writes) := by rw [h.cache]
  have hdiff : Diff.ofEntities entities (l.writeAll d.writes) s.cache.tables ignoreMissing =
      .ok {} := by
    rw [h.cache, ← Diff.ofEntities_writeAll h.diff]
    exact Diff.ofEntities_congr fun f ↦ f.existsIn_map_withFacts r _
  rw [Pass.syncEntities, run_bind_of_ok (Pass.loaded_of_some hledger),
    run_bind_of_ok (m := get) (a := s) (t := s) rfl, run_bind_of_ok (Pass.noteAll_eq _ s), hdiff,
    Pass.ofExcept_ok, pure_bind]
  exact ⟨_, rfl⟩

/-- A pass for the same entities changes nothing. -/
theorem synchronize_eq (hdry : o.dryRun = false)
    (h : s.Settled o.sideTable entities ignoreMissing r l d) :
    ∃ report appliedDdl journal, Pass.synchronize o entities [] ignoreMissing s
        = .ok report ⟨{ s.database with appliedDdl }, s.cache, journal⟩ ∧
      report.delta = {} ∧ report.extended = {} := by
  have h₀ := h.withJournal (s.journal ++ [.passStarted entities.length 0 o.dryRun])
  obtain ⟨_, j₁, hreload₁⟩ := h₀.reloadTables_eq fun _ ↦ rfl
  have h₁ := h.withJournal j₁
  obtain ⟨appliedDdl, j₂, hcreate⟩ := h₁.createAndLoad_eq hdry
  have h₂ := (h.withApplied appliedDdl).withJournal j₂
  obtain ⟨j₃, hexecute⟩ :=
    executeDdl_eq o ignoreMissing ⟨{ s.database with appliedDdl }, s.cache, j₂⟩
  obtain ⟨_, j₄, hreload₄⟩ := (h₂.withJournal j₃).reloadTables_eq id
  obtain ⟨j₅, hsync⟩ := (h₂.withJournal j₄).syncEntities_eq
  obtain ⟨n, j₆, hreload₆⟩ := (h₂.withJournal j₅).reloadTables_eq id
  refine ⟨⟨[], {}, {}, n, o.dryRun⟩, appliedDdl, j₆ ++ [.passFinished 0 0 n], ?_, rfl, rfl⟩
  rw [Pass.synchronize, run_bind_of_ok (Pass.note_eq _ s)]
  exact (run_bind_of_ok hreload₁).trans <| (run_bind_of_ok hcreate).trans <|
    (run_bind_of_ok hexecute).trans <| (run_bind_of_ok hreload₄).trans <|
    (run_bind_of_ok hsync).trans <|
    (run_bind_of_ok hreload₆).trans <| run_bind_of_ok (Pass.note_eq _ _)

end Site.Settled

namespace Pass

/-- After a pass that succeeded a pass for the same entities, without statements, succeeds too. It
finds nothing to do, and leaves the tables, their rows and the cache as they are. -/
theorem synchronize_twice {o : PassOptions} (hdry : o.dryRun = false) {db : Database}
    (hdb : db.Reachable)
    (hside : ∀ t, db.tables[o.sideTable]? = some t → t.schema.IsSideTable) {cache : Cache}
    {journal : List Note} {entities : List Entity} {statements : List Statement}
    (htouched : ∀ x ∈ statements, o.sideTable ∉ x.touched) {ignoreMissing : Bool} {report : Report}
    {s : Site}
    (hok : synchronize o entities statements ignoreMissing ⟨db, cache, journal⟩ = .ok report s) :
    ∃ again t, synchronize o entities [] ignoreMissing s = .ok again t ∧
      again.delta = {} ∧ again.extended = {} ∧ t.database.writes = s.database.writes ∧
      t.database.tables = s.database.tables ∧ t.cache = s.cache := by
  obtain ⟨r, l, d, h⟩ := settled_of_synchronize hdry hdb.sound hside htouched hok
  obtain ⟨again, _, _, hagain, hdelta, hextended⟩ := h.synchronize_eq hdry
  exact ⟨again, _, hagain, hdelta, hextended, rfl, rfl, rfl⟩

theorem shelves_synchronize_twice :
    ∃ report s again t,
      synchronize shelfOptions shelfEntities [shelves] false shelfSite = .ok report s ∧
      report.extended.size = 2 ∧
      synchronize shelfOptions shelfEntities [] false s = .ok again t ∧
      again.delta = {} ∧ again.extended = {} ∧ t.database.tables = s.database.tables := by
  obtain ⟨report, hreport, hextended⟩ := map_eq_ok shelves_synchronize
  obtain ⟨s, hok⟩ := exists_of_value hreport
  have htouched : ∀ x ∈ [shelves], shelfOptions.sideTable ∉ x.touched := by decide
  obtain ⟨again, t, hagain, hdelta, hextended', -, htables, -⟩ :=
    synchronize_twice rfl .empty isSideTable_of_shelfSite htouched hok
  refine ⟨report, s, again, t, hok, ?_, hagain, hdelta, hextended', htables⟩
  rw [(Prod.mk.inj hextended).2]
  rfl

end Pass

end SchemaLedger
