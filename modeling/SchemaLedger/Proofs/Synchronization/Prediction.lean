import Mathlib
import SchemaLedger.Proofs.Synchronization.Following

/-!
# What a dry run foretells

A dry run reports the statements that the pass would execute, and for facts those that the
statements come with. The statements are right. The facts are what the pass would store if nothing
were stored yet: nothing tells a dry run of stored facts that go with their columns or move with
their tables, of those that the statements state again, or of a side table that is gone by the time
the facts are to be stored. So its report of them is right exactly where none of this happens.

The pass itself compares what the delta of the statements makes of the stored facts with these
facts. By then the statements have been executed, so both are taken from the database that the
statements lead to.
-/

namespace SchemaLedger

open SideTable

/-- The same facts are to be written and the same to be deleted, in whichever order. -/
def Diff.Same (d e : Diff) : Prop := d.additions.Perm e.additions ∧ d.removals.Perm e.removals

/-! ## The difference that a delta makes -/

namespace Ledger

/-- What a delta stores is new, and stated once, and whatever was stored stays: no column of a
stored fact is gone, and no step leaves nothing in the place of one. -/
structure Foretold (l : Ledger) (delta : Delta) (s : Schema) : Prop where
  kept : ∀ f ∈ l.entries, f.existsIn s = true ∧ (l.applyAll delta).get? f.key ≠ none
  once : delta.upserts.Nodup
  new : ∀ f, f ∈ delta.upserts ↔
    f ∈ (l.applyAll delta).entries ∧ f.existsIn s = true ∧ f ∉ l.entries

end Ledger

namespace Diff

/-- The facts of a delta are all that it changes exactly where they are new and nothing is lost. -/
theorem same_ofDelta_iff {delta : Delta} {l : Ledger} {s : Schema} {ignoreMissing : Bool} {d : Diff}
    (h : ofDelta delta l s ignoreMissing = .ok d) :
    Same ⟨delta.upserts, []⟩ d ↔ l.Foretold delta s := by
  constructor
  · rintro ⟨hadditions, hremovals⟩
    constructor
    case kept =>
      intro f hf
      by_contra hlost
      have hremoved : f ∈ d.removals := (mem_removals_ofDelta h).2 ⟨hf, hlost⟩
      exact List.not_mem_nil (hremovals.mem_iff.2 hremoved)
    case once => exact hadditions.nodup_iff.2 (nodup_additions_ofDelta h)
    case new => exact fun f ↦ hadditions.mem_iff.trans (mem_additions_ofDelta h)
  · intro hforetold
    constructor
    · refine (List.perm_ext_iff_of_nodup hforetold.once (nodup_additions_ofDelta h)).2 fun f ↦ ?_
      exact (hforetold.new f).trans (mem_additions_ofDelta h).symm
    · have hnone : d.removals = [] := List.eq_nil_iff_forall_not_mem.2 fun f hf ↦
        ((mem_removals_ofDelta h).1 hf).2 (hforetold.kept f ((mem_removals_ofDelta h).1 hf).1)
      rw [hnone]

end Diff

/-! ## The difference that a batch reports -/

/-- What a delta comes to in a database: nothing where it has no steps or the side table is missing,
and otherwise the difference that it makes to the stored facts. -/
inductive Diff.Ensues (sideTable : String) (db : Database) (delta : Delta) (ignoreMissing : Bool) :
    Diff → Prop
  | nothing (missing : delta = [] ∨ db.tables[sideTable]? = none) :
      Ensues sideTable db delta ignoreMissing {}
  | difference {l : Ledger} {d : Diff} (steps : delta ≠ []) (stored : stored sideTable db = .ok l)
      (made : Diff.ofDelta delta l db.schema ignoreMissing = .ok d) :
      Ensues sideTable db delta ignoreMissing d

/-- The facts of a delta are what comes of it in a database. -/
def Database.Foretold (sideTable : String) (db : Database) (delta : Delta) : Prop :=
  delta = [] ∨ (db.tables[sideTable]? = none ∧ delta.upserts = []) ∨
    ∃ l, stored sideTable db = .ok l ∧ l.Foretold delta db.schema

theorem Diff.Ensues.same_iff {sideTable : String} {db : Database} {delta : Delta}
    {ignoreMissing : Bool} {d : Diff} (h : Ensues sideTable db delta ignoreMissing d) :
    Same ⟨delta.upserts, []⟩ d ↔ db.Foretold sideTable delta := by
  cases h with
  | nothing missing =>
    have hsame : Same ⟨delta.upserts, []⟩ {} ↔ delta.upserts = [] := by
      rw [Same, List.perm_nil]
      exact and_iff_left .rfl
    rw [hsame]
    constructor
    · exact fun hnil ↦ missing.imp id fun hmissing ↦ .inl ⟨hmissing, hnil⟩
    · rintro (rfl | ⟨-, hnil⟩ | ⟨l, hl, hforetold⟩)
      · rfl
      · exact hnil
      · obtain ⟨t, ht, -⟩ := stored_eq_ok.1 hl
        rcases missing with rfl | hmissing
        · rfl
        · cases hmissing.symm.trans ht
  | @difference l d steps hstored made =>
    rw [same_ofDelta_iff made]
    constructor
    · exact fun hforetold ↦ .inr (.inr ⟨l, hstored, hforetold⟩)
    · rintro (hnil | ⟨hmissing, -⟩ | ⟨l', hl', hforetold⟩)
      · exact absurd hnil steps
      · obtain ⟨t, ht, -⟩ := stored_eq_ok.1 hstored
        cases hmissing.symm.trans ht
      · obtain rfl : l' = l := Except.ok.inj (hl'.symm.trans hstored)
        exact hforetold

theorem Diff.ofDelta_congr {delta : Delta} {l : Ledger} {s s' : Schema} (ignoreMissing : Bool)
    (h : ∀ f : Fact, f.existsIn s = f.existsIn s') :
    ofDelta delta l s ignoreMissing = ofDelta delta l s' ignoreMissing := by
  simp only [ofDelta, keepExisting, h]

namespace Pass

variable {o : PassOptions} {entities : List Entity} {statements : List Statement}
    {ignoreMissing : Bool}
  {s t : Site}

theorem exists_of_updateDdl {sql : List String} (h : updateDdl sql s = .ok () t) :
    Database.updateDdl sql s.database = .ok () t.database := by
  obtain ⟨notes, hcall⟩ := updateDdl_eq_call sql s
  rw [hcall] at h
  obtain ⟨db, hdb, rfl⟩ := exists_of_call h
  exact hdb

/-- Statements that come with steps for the ledger are not without statements for the database. -/
theorem delta_of_sql_eq_nil {lowered : Lowered}
    (hlower : Statement.lowerAll statements = .ok lowered)
    (hsql : lowered.sql = []) : lowered.delta = [] := by
  have hmirrors : Mirrors True lowered.ddl lowered.delta :=
    Statement.mirrors_of_lowerAll hlower fun _ _ _ ↦ trivial
  exact hmirrors.eq_nil (List.map_eq_nil_iff.1 hsql)

/-- What a batch reports is what ensues in the database that its statements lead to. -/
theorem ensues_of_executeDdl (hdry : o.dryRun = false) (hs : s.Fresh o.sideTable)
    {sql : List String} {d : Diff}
    (hok : executeDdl o statements ignoreMissing s = .ok (sql, d) t) :
    ∃ lowered db, Statement.lowerAll statements = .ok lowered ∧ sql = lowered.sql ∧
      Database.updateDdl lowered.sql s.database = .ok () db ∧
      d.Ensues o.sideTable db lowered.delta ignoreMissing := by
  have haccepted {lowered : Lowered} {r : Schema} {v : Site}
      (h : Accepted o statements s lowered r v) :
      Database.updateDdl lowered.sql s.database = .ok () v.database := by
    obtain ⟨notes, u, hupdate, hdatabase⟩ := h.executed
    rw [hdatabase]
    exact exists_of_updateDdl (s := noted notes s) hupdate
  have happlied {lowered : Lowered} {r : Schema} {v w : Site} {d : Diff}
      (h : Accepted o statements s lowered r v) (hdelta : lowered.delta.isEmpty = false)
      (hw : applyDelta o lowered.delta ignoreMissing v = .ok d w) :
      d.Ensues o.sideTable v.database lowered.delta ignoreMissing := by
    obtain ⟨l, m, hstored, hmade, -⟩ := exists_of_applyDelta hdelta (h.fresh hs) hw
    have hexists (f : Fact) : f.existsIn v.cache.tables = f.existsIn v.database.schema := by
      rw [h.tables, Fact.existsIn_map_withFacts,
        Fact.existsIn_of_described (h.fresh hs).sound h.described]
    rw [Diff.ofDelta_congr ignoreMissing hexists] at hmade
    exact .difference (fun hnil ↦ by simp [hnil] at hdelta) hstored hmade
  cases executed_of_executeDdl hdry hok with
  | @idle l notes hlower hempty =>
    refine ⟨l, s.database, hlower, rfl, by rw [hempty]; rfl, ?_⟩
    exact .nothing (.inl (delta_of_sql_eq_nil hlower hempty))
  | @unstored l r v notes h hunsaid =>
    refine ⟨l, v.database, h.lowered, rfl, haccepted h, .nothing ?_⟩
    refine hunsaid.imp List.isEmpty_iff.1 fun hmissing ↦ ?_
    rw [h.tables] at hmissing
    -- The cached tables are those of the database.
    refine Option.eq_none_iff_forall_not_mem.2 fun u hu ↦ ?_
    rw [contains_of_described (h.fresh hs).sound h.described hu] at hmissing
    contradiction
  | unchanged h hdelta hw _ => exact ⟨_, _, h.lowered, rfl, haccepted h, happlied h hdelta hw⟩
  | stored h hdelta hw _ _ => exact ⟨_, _, h.lowered, rfl, haccepted h, happlied h hdelta hw⟩

/-- A dry run takes the facts from the statements. -/
theorem eq_of_executeDdl_of_dryRun (hdry : o.dryRun = true) {sql : List String} {d : Diff}
    (hok : executeDdl o statements ignoreMissing s = .ok (sql, d) t) :
    ∃ lowered, Statement.lowerAll statements = .ok lowered ∧ sql = lowered.sql ∧
      d = ⟨lowered.delta.upserts, []⟩ := by
  cases hlower : Statement.lowerAll statements with
  | error e =>
    rw [executeDdl_of_error hlower] at hok
    contradiction
  | ok lowered =>
    refine ⟨lowered, rfl, ?_⟩
    by_cases hsql : lowered.sql = []
    · rw [executeDdl_of_nil hlower hsql] at hok
      obtain ⟨heq, -⟩ := EStateM.Result.ok.inj hok
      obtain ⟨rfl, rfl⟩ := Prod.mk.inj heq
      rw [delta_of_sql_eq_nil hlower hsql]
      exact ⟨rfl, rfl⟩
    · rw [executeDdl_of_dryRun hlower hdry hsql] at hok
      obtain ⟨heq, -⟩ := EStateM.Result.ok.inj hok
      obtain ⟨rfl, rfl⟩ := Prod.mk.inj heq
      exact ⟨rfl, rfl⟩

/-! ## The reports of two runs -/

/-- A pass executes its batch once the side table has been seen to, and reports what the batch
reports. -/
theorem exists_executeDdl_of_synchronize {report : Report}
    (hok : synchronize o entities statements ignoreMissing s = .ok report t) :
    ∃ n l u v w,
      reloadTables true (noted [.passStarted entities.length statements.length o.dryRun] s) =
        .ok n u ∧
      createAndLoad o u = .ok l v ∧
      executeDdl o statements ignoreMissing v = .ok (report.ddl, report.delta) w := by
  rw [synchronize, run_bind_of_ok (note_eq _ s)] at hok
  obtain ⟨n, u, hreload, hok⟩ := exists_of_run_bind_ok hok
  obtain ⟨l, v, hcreate, hok⟩ := exists_of_run_bind_ok hok
  obtain ⟨⟨ddl, delta⟩, w, hexecute, hok⟩ := exists_of_run_bind_ok hok
  refine ⟨n, l, u, v, w, hreload, hcreate, ?_⟩
  obtain ⟨_, _, -, hok⟩ := exists_of_run_bind_ok hok
  obtain ⟨_, _, -, hok⟩ := exists_of_run_bind_ok hok
  obtain ⟨_, _, -, hok⟩ := exists_of_run_bind_ok hok
  rw [run_bind_of_ok (note_eq _ _)] at hok
  obtain ⟨rfl, -⟩ := EStateM.Result.ok.inj hok
  exact hexecute

theorem execute_of_createAndLoad (hdry : o.dryRun = false) {l : Ledger}
    (h : createAndLoad o s = .ok l t) :
    Database.execute (ddl o.sideTable).text s.database = .ok () t.database := by
  rw [createAndLoad, lower_statement, ofExcept_ok, pure_bind, hdry, if_neg Bool.false_ne_true,
    run_bind_of_ok (note_eq _ s)] at h
  obtain ⟨_, m, hupdate, hload⟩ := exists_of_run_bind_ok h
  obtain ⟨db, hrun, rfl⟩ := exists_of_updateDdl_singleton hupdate
  obtain ⟨-, hdatabase, -⟩ := exists_of_load hload
  rw [hdatabase]
  exact Database.execute_of_run hrun

theorem ensues_of_synchronize (hdry : o.dryRun = false) (hs : s.Fresh o.sideTable) {done : Report}
    (hok : synchronize o entities statements ignoreMissing s = .ok done t) :
    ∃ lowered db, Statement.lowerAll statements = .ok lowered ∧ done.ddl = lowered.sql ∧
      Database.updateDdl ((ddl o.sideTable).text :: lowered.sql) s.database = .ok () db ∧
      done.delta.Ensues o.sideTable db lowered.delta ignoreMissing := by
  obtain ⟨n, l, u, v, w, hreload, hcreate, hexecute⟩ := exists_executeDdl_of_synchronize hok
  obtain ⟨r, -, hdatabase, -⟩ := of_reloadTables hreload
  have hu : u.Fresh o.sideTable :=
    ending_of_ok hreload ▸ (steady_fresh o.sideTable).reloadTables true (noted _ s)
      ⟨hs.sound, hs.ledger⟩
  have hv : v.Fresh o.sideTable := ending_of_ok hcreate ▸ fresh_createAndLoad hdry hu
  obtain ⟨lowered, db, hlower, hsql, haccept, hensues⟩ := ensues_of_executeDdl hdry hv hexecute
  have hcreated := execute_of_createAndLoad hdry hcreate
  rw [hdatabase] at hcreated
  exact ⟨lowered, db, hlower, hsql, (run_bind_of_ok hcreated).trans haccept, hensues⟩

/-- Of two passes from the same start, one of them dry, both report the same statements. The dry one
reports the facts that the statements come with, the other what ensues in the database that the
statements lead to, and these are the same facts exactly where nothing but the new facts changes. -/
theorem reports_of_synchronize {start : Database} (hstart : start.Reachable) {planned done : Report}
    {t u : Site} (hplanned : synchronize { o with dryRun := true } entities statements ignoreMissing
      { database := start } = .ok planned t)
    (hdone : synchronize { o with dryRun := false } entities statements ignoreMissing
      { database := start } = .ok done u) :
    planned.ddl = done.ddl ∧ ∃ lowered db, Statement.lowerAll statements = .ok lowered ∧
      planned.ddl = lowered.sql ∧
      Database.updateDdl ((ddl o.sideTable).text :: lowered.sql) start = .ok () db ∧
      planned.delta = ⟨lowered.delta.upserts, []⟩ ∧
      done.delta.Ensues o.sideTable db lowered.delta ignoreMissing ∧
      (planned.delta.Same done.delta ↔ db.Foretold o.sideTable lowered.delta) := by
  obtain ⟨_, _, _, _, _, -, -, hexecute⟩ := exists_executeDdl_of_synchronize hplanned
  obtain ⟨lowered, hlower, hsql, hupserts⟩ := eq_of_executeDdl_of_dryRun rfl hexecute
  obtain ⟨lowered', db, hlower', hsql', haccept, hensues⟩ :=
    ensues_of_synchronize rfl (.of_none hstart.sound rfl) hdone
  obtain rfl : lowered' = lowered := Except.ok.inj (hlower'.symm.trans hlower)
  refine ⟨hsql.trans hsql'.symm, lowered', db, hlower, hsql, haccept, hupserts, hensues, ?_⟩
  rw [hupserts]
  exact hensues.same_iff

/-- A column with numbers for values is added to a table. -/
def grown : List Statement :=
  [.alterTable { table := "t", actions := [.addColumn { numbered with name := "b" }] }]

/-- A table goes that a stored fact is about. -/
def shrunk : List Statement := [.dropTable ["t"] false]

/-- The statements and the facts that a pass on these tables reports. -/
def reported (dryRun : Bool) (statements : List Statement) : Option (List String × Diff) :=
  seen (fun r _ ↦ (r.ddl, r.delta)) (synchronize { factOptions with dryRun } [] statements false)
    { database := numberedTables }

/-- One theorem, since each pass starts from the same tables. -/
theorem reported_numberedTables :
    reported true grown =
        some (["ALTER TABLE t ADD COLUMN b int64"], ⟨[⟨"t", "b", .strategy, "increment"⟩], []⟩) ∧
      reported false grown =
        some (["ALTER TABLE t ADD COLUMN b int64"], ⟨[⟨"t", "b", .strategy, "increment"⟩], []⟩) ∧
      reported true shrunk = some (["DROP TABLE t"], {}) ∧
      reported false shrunk =
        some (["DROP TABLE t"], ⟨[], [⟨"t", "a", .strategy, "increment"⟩]⟩) := by
  have hside : Statement.Plain [SideTable.statement factOptions.sideTable] := by decide +kernel
  have hgrown : Statement.Plain grown := by decide +kernel
  have hshrunk : Statement.Plain shrunk := by decide +kernel
  have hreported {dryRun : Bool} {statements : List Statement} (h : Statement.Plain statements) :
      reported dryRun statements = seen (fun r _ ↦ (r.ddl, r.delta))
        (Direct.synchronize { factOptions with dryRun } [] statements false)
        { database := numberedTables } := by
    have hagree := agree_synchronize (o := { factOptions with dryRun }) hside [] h false
    rw [reported, seen_congr (run_eq_of_agree hagree orderly_numberedTables)]
  rw [hreported hgrown, hreported hgrown, hreported hshrunk, hreported hshrunk, numberedTables_eq]
  decide +kernel

theorem grown_reports :
    ∃ planned done t u lowered db,
      synchronize { factOptions with dryRun := true } [] grown false { database := numberedTables }
        = .ok planned t ∧
      synchronize { factOptions with dryRun := false } [] grown false { database := numberedTables }
        = .ok done u ∧
      done.delta.additions = [⟨"t", "b", .strategy, "increment"⟩] ∧ planned.ddl = done.ddl ∧
      Statement.lowerAll grown = .ok lowered ∧
      Database.updateDdl ((ddl "facts").text :: lowered.sql) numberedTables = .ok () db ∧
      lowered.delta ≠ [] ∧ db.Foretold "facts" lowered.delta := by
  obtain ⟨hplanned, hdone, -, -⟩ := reported_numberedTables
  obtain ⟨planned, t, hplanned, hp⟩ := exists_of_seen hplanned
  obtain ⟨done, u, hdone, hd⟩ := exists_of_seen hdone
  obtain ⟨hsql, lowered, db, hlower, -, haccept, hupserts, -, hsame⟩ :=
    reports_of_synchronize (o := factOptions) reachable_numberedTables hplanned hdone
  have hdelta : planned.delta = done.delta := (Prod.mk.inj hp).2.trans (Prod.mk.inj hd).2.symm
  have hadditions : done.delta.additions = [⟨"t", "b", .strategy, "increment"⟩] := by
    rw [(Prod.mk.inj hd).2]
  refine ⟨planned, done, t, u, lowered, db, hplanned, hdone, hadditions, hsql, hlower,
    haccept, ?_, ?_⟩
  · intro hnil
    rw [hnil] at hupserts
    rw [← hdelta, hupserts] at hadditions
    exact absurd hadditions (by decide)
  · exact hsame.1 (hdelta ▸ ⟨.refl _, .refl _⟩)

/-- A dry run does not tell that a stored fact goes with its table. -/
theorem not_foretold_of_dropTable :
    ¬∀ start entities statements ignoreMissing planned done t u,
      Database.Reachable start → (Standard "facts" start ∨ start.tables["facts"]? = none) →
        synchronize { factOptions with dryRun := true } entities statements ignoreMissing
          { database := start }
          = .ok planned t →
        synchronize { factOptions with dryRun := false } entities statements ignoreMissing
          { database := start }
          = .ok done u →
        planned.ddl = done.ddl ∧ planned.delta.Same done.delta := by
  intro h
  obtain ⟨-, -, hplanned, hdone⟩ := reported_numberedTables
  obtain ⟨planned, t, hplanned, hp⟩ := exists_of_seen hplanned
  obtain ⟨done, u, hdone, hd⟩ := exists_of_seen hdone
  obtain ⟨-, -, hremovals⟩ :=
    h _ _ _ _ _ _ _ _ reachable_numberedTables (.inl standard_numberedTables) hplanned hdone
  rw [(Prod.mk.inj hp).2, (Prod.mk.inj hd).2] at hremovals
  exact absurd hremovals.length_eq (by decide)

end Pass

end SchemaLedger
