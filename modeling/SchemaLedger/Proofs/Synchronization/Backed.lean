import Mathlib
import SchemaLedger.Proofs.Reconciliation.Delta
import SchemaLedger.Proofs.Reconciliation.Recorded
import SchemaLedger.Proofs.Synchronization.Batch

/-!
# Facts of tables that are gone

When a table goes, its facts go behind it: the statements of a batch are executed before its facts
are stored, and a batch that fails in between leaves facts of a table that is gone. Nothing else
does. What is written is about columns that are there, and what a batch writes when it succeeds
leaves nothing else. A batch without facts takes nothing away, and where the side table is missing
nothing is recorded.

So facts of a table that is gone are recorded after calls only if one of their batches has failed.
Even that batch must have taken the table away, or must have put another table in the place of the
side table.
-/

namespace SchemaLedger

open SideTable

/-- Facts about the table are recorded only while it is there. -/
def Database.Backed (sideTable n : String) (db : Database) : Prop :=
  ∀ f, db.Records sideTable f → f.table = n → db.HasTable n

namespace Database.Backed

variable {sideTable n : String} {db db' : Database}

/-- Nothing is recorded in a side table without rows. -/
theorem of_rows_empty (h : ∀ t, db.tables[sideTable]? = some t → t.rows = ∅) :
    db.Backed sideTable n := by
  rintro f ⟨t, k, row, ht, -, hrow, -⟩ -
  rw [h t ht, Std.ExtTreeMap.getElem?_empty] at hrow
  contradiction

theorem of_tableMissing (h : db.tables[sideTable]? = none) : db.Backed sideTable n := by
  rintro f ⟨t, -, -, ht, -⟩ -
  rw [h] at ht
  contradiction

theorem mono (h : db.Backed sideTable n)
    (hrecords : ∀ f, db'.Records sideTable f → db.Records sideTable f)
    (htable : db.HasTable n → db'.HasTable n) : db'.Backed sideTable n :=
  fun f hf hn ↦ htable (h f (hrecords f hf) hn)

/-- Statements that take nothing away leave no facts behind, however many of them are accepted. -/
theorem updateDdl (h : db.Backed sideTable n) (hdb : db.Sound) {sql : List String}
    (hsql : ∀ x ∈ sql, ∀ c, Command.ofText? x = some c → c.removes = []) :
    (ending (updateDdl sql) db).Backed sideTable n := by
  obtain ⟨accepted, haccepted, -, hrecords⟩ := exists_accepted sideTable sql hdb
  have hextends : (ending (Database.updateDdl sql) db).Extends db n :=
    extends_of_updateDdl sql hdb fun x hx c hc ↦ by
      rw [hsql x hx c hc]
      exact List.not_mem_nil
  exact h.mono (hrecords fun x hx ↦ not_givesName (hsql x (haccepted.subset hx)))
    (.of_extends hextends)

end Database.Backed

/-- The table stays if it was there, and no table has got the name of the side table. -/
structure Database.Spared (sideTable n : String) (db db' : Database) : Prop where
  table : db.HasTable n → db'.HasTable n
  sideTable : ∀ x ∈ db'.appliedDdl.drop db.appliedDdl.length, ¬GivesName sideTable x

instance (sideTable n : String) (db db' : Database) : Decidable (db.Spared sideTable n db') :=
  decidable_of_iff ((db.HasTable n → db'.HasTable n) ∧
    ∀ x ∈ db'.appliedDdl.drop db.appliedDdl.length, ¬Database.GivesName sideTable x)
    ⟨fun h ↦ ⟨h.1, h.2⟩, fun h ↦ ⟨h.table, h.sideTable⟩⟩

/-- Facts about the table are recorded in the database only while it is there. -/
def Site.Backed (sideTable n : String) (s : Site) : Prop := s.database.Backed sideTable n

namespace Pass

variable {o : PassOptions} {n : String} {ignoreMissing : Bool} {s t : Site}

theorem steady_backed (sideTable n : String) : Steady (Site.Backed sideTable n) :=
  fun _ _ _ h ↦ h

/-! ## Facts are written -/

/-- A fact about a column that is there leaves nothing behind. -/
theorem keeps_backed_upsertRow (sideTable n : String) {r : Schema} {f : Fact}
    (hf : f.existsIn r = true) :
    Keeps (fun db ↦ db.schema = r ∧ db.Backed sideTable n)
      (Database.upsertRow sideTable columns (cells f)) := by
  rintro db ⟨hr, hbacked⟩
  have hschema := (writeSafe_schema sideTable r).upsert f db hr
  refine ⟨hschema, fun g hg hn ↦ (Database.hasTable_congr (hschema.trans hr.symm)).2 ?_⟩
  rcases hg.of_upsertRow with hold | htable
  · exact hbacked g hold hn
  · rw [← hn, htable]
    exact Database.hasTable_of_existsIn (hr.symm ▸ hf)

theorem keeps_backed_deleteRow (sideTable n : String) (r : Schema) (f : Fact) :
    Keeps (fun db ↦ db.schema = r ∧ db.Backed sideTable n)
      (Database.deleteRow sideTable (keyCells f)) := by
  rintro db ⟨hr, hbacked⟩
  have hschema := (writeSafe_schema sideTable r).delete f db hr
  exact ⟨hschema, hbacked.mono (fun _ hg ↦ hg.of_deleteRow)
    (Database.hasTable_congr (hschema.trans hr.symm)).2⟩

theorem keeps_backed_write {r : Schema} {d : Diff} (hd : ∀ f ∈ d.additions, f.existsIn r = true) :
    Keeps (fun s ↦ s.database.schema = r ∧ s.Backed o.sideTable n) (write o d) :=
  keeps_write (q := fun db ↦ db.schema = r ∧ db.Backed o.sideTable n)
    (fun f hf ↦ keeps_backed_upsertRow o.sideTable n (hd f hf))
    fun f _ ↦ keeps_backed_deleteRow o.sideTable n r f

theorem database_of_loaded {l : Ledger} (h : loaded o s = .ok l t) : t.database = s.database := by
  have hsame := keeps_loaded (o := o) (q := (· = s.database)) s rfl
  rwa [ending_of_ok h] at hsame

/-- What is written is about columns that are there. -/
theorem backed_writeDiff (notes : List Note) {d : Except SchemaError Diff}
    (hs : s.Backed o.sideTable n)
    (hd : ∀ d', d = .ok d' → ∀ f ∈ d'.additions, f.existsIn s.database.schema = true) :
    (ending (do noteAll notes; let d ← ofExcept d; write o d; return d : Pass Diff) s).Backed
      o.sideTable n := by
  rw [ending_bind_of_ok (noteAll_eq notes s)]
  cases d with
  | error e => exact hs
  | ok d =>
    have hwrite := keeps_backed_write (o := o) (n := n) (hd d rfl)
    rw [ofExcept_ok, pure_bind]
    exact (hwrite.bind (fun _ ↦ .pure d) (noted notes s) ⟨rfl, hs⟩).2

section

variable (hs : s.Backed o.sideTable n)
  (hcache : ∀ f : Fact, f.existsIn s.cache.tables = f.existsIn s.database.schema)

include hs hcache

theorem backed_syncEntities (entities : List Entity) (ignoreMissing : Bool) :
    (ending (syncEntities o entities ignoreMissing) s).Backed o.sideTable n := by
  refine ending_bind (keeps_loaded s hs) fun l t hloaded ht ↦ ?_
  rw [ending_bind_of_ok (m := get) (a := t) (t := t) rfl]
  refine backed_writeDiff _ ht fun d hd f hf ↦ ?_
  obtain ⟨-, rfl⟩ := Diff.ofEntities_eq_ok.1 hd
  rw [database_of_loaded hloaded, ← hcache, ← tables_of_loaded hloaded]
  exact Entity.existsIn_of_wanted (Ledger.mem_additions.1 hf).1

theorem backed_applyDelta (delta : Delta) (ignoreMissing : Bool) :
    (ending (applyDelta o delta ignoreMissing) s).Backed o.sideTable n := by
  rw [applyDelta]
  split
  · exact hs
  · refine ending_bind (keeps_loaded s hs) fun l t hloaded ht ↦ ?_
    rw [ending_bind_of_ok (m := get) (a := t) (t := t) rfl]
    refine backed_writeDiff _ ht fun d hd f hf ↦ ?_
    rw [database_of_loaded hloaded, ← hcache, ← tables_of_loaded hloaded]
    exact ((Diff.mem_additions_ofDelta hd).1 hf).2.1

end

/-! ## Batches -/

theorem existsIn_of_reloadTables {k : Nat} (hs : s.database.Sound)
    (hok : reloadTables ignoreMissing s = .ok k t) :
    t.database = s.database ∧
      ∀ f : Fact, f.existsIn t.cache.tables = f.existsIn t.database.schema := by
  obtain ⟨r, hr, hdatabase, -, htables⟩ := of_reloadTables hok
  refine ⟨hdatabase, fun f ↦ ?_⟩
  rw [htables, Fact.existsIn_map_withFacts, Fact.existsIn_of_described hs hr, hdatabase]

/-- Once the statements are executed, nothing is left behind any more, whatever comes of the
batch. -/
theorem backed_concludeDdl (hsound : s.database.Sound) (hs : s.Backed o.sideTable n) (l : Lowered)
    (ignoreMissing : Bool) (applied : Except PassError Unit) :
    (ending (concludeDdl o l ignoreMissing applied) s).Backed o.sideTable n := by
  have hsteady := steady_backed o.sideTable n
  unfold concludeDdl
  refine ending_bind (hsteady.reloadTables true s hs) fun k v hreload hv ↦ ?_
  obtain ⟨-, hcache⟩ := existsIn_of_reloadTables hsound hreload
  cases applied with
  | error e => exact hv
  | ok _ =>
    dsimp only
    split
    · exact hv
    · rw [ending_bind_of_ok (m := get) rfl]
      split
      · exact hv
      · have hrest := hsteady.reloadTables ignoreMissing
        exact Keeps.ending_bind (backed_applyDelta hv hcache l.delta ignoreMissing) fun d ↦
          .ite (fun _ ↦ hrest.bind fun _ ↦ .pure _) fun _ ↦ .pure _

theorem writeSafe_appliedDdl (sideTable : String) (xs : List String) :
    WriteSafe sideTable fun db ↦ db.appliedDdl = xs :=
  .of_modifyRows fun _ _ h ↦ h

variable {statements : List Statement}

/-- A batch that spares the table and the side table leaves nothing behind, whatever comes of it. -/
theorem backed_of_spared (hdry : o.dryRun = false) (hsound : s.database.Sound)
    (hs : s.Backed o.sideTable n)
    (h : s.database.Spared o.sideTable n
      (ending (executeDdl o statements ignoreMissing) s).database) :
    (ending (executeDdl o statements ignoreMissing) s).Backed o.sideTable n := by
  cases hlower : Statement.lowerAll statements with
  | error e =>
    rw [ending_of_error (executeDdl_of_error hlower ignoreMissing s)]
    exact hs
  | ok l =>
    by_cases hnil : l.sql = []
    · rw [ending_of_ok (executeDdl_of_nil hlower hnil ignoreMissing s)]
      exact hs
    · obtain ⟨applied, u, heq, hdatabase, -, -⟩ :=
        exists_executeDdl_eq hlower hdry hnil ignoreMissing s
      rw [ending_congr heq] at h ⊢
      obtain ⟨accepted, -, happlied, hrecords⟩ :=
        Database.exists_accepted o.sideTable l.sql hsound
      rw [← hdatabase] at happlied hrecords
      have hu : u.database.Sound :=
        hdatabase ▸ Database.keeps_sound_updateDdl l.sql s.database hsound
      -- Behind the statements neither the tables nor the list of statements changes any more.
      have hschema := (writeSafe_schema o.sideTable _).concludeDdl l ignoreMissing applied u rfl
      have hddl := (writeSafe_appliedDdl o.sideTable _).concludeDdl l ignoreMissing applied u rfl
      have hnew : ∀ x ∈ accepted, ¬Database.GivesName o.sideTable x := by
        refine fun x hx ↦ h.sideTable x ?_
        rw [hddl, happlied, List.drop_left]
        exact hx
      exact backed_concludeDdl hu (hs.mono (hrecords hnew) fun htable ↦
        (Database.hasTable_congr hschema).1 (h.table htable)) l ignoreMissing applied

/-- What is written when a batch succeeds leaves nothing that is about a missing column. -/
theorem backed_of_applyDelta (hdry : o.dryRun = false) (hs : s.Fresh o.sideTable)
    (hcache : ∀ f : Fact, f.existsIn s.cache.tables = f.existsIn s.database.schema) {delta : Delta}
    (hdelta : delta.isEmpty = false) {d : Diff}
    (hok : applyDelta o delta ignoreMissing s = .ok d t) :
    t.Backed o.sideTable n := by
  obtain ⟨l, m, hstored, hdiff, hm, hdatabase, hcached, hwrite⟩ :=
    exists_of_applyDelta hdelta hs hok
  have hschema := schema_of_applyDelta hok
  intro f hf hn
  -- The side table has its key, so what is written to it is what it holds.
  have hstandard : Standard o.sideTable m.database := by
    obtain ⟨u, k, row, hu, hkey, -⟩ := id hf
    obtain ⟨v, hv, hcolumns, -⟩ := stored_eq_ok.1 hstored
    obtain ⟨w, hw, hwu⟩ := Database.exists_of_schema hschema hu
    obtain rfl := Option.some.inj (hv.symm.trans hw)
    exact hdatabase ▸ ⟨v, hv, hcolumns, hwu ▸ hkey⟩
  have hledger : m.cache.ledger = some l := by rw [hcached]
  obtain ⟨hholds, -⟩ :=
    holds_of_write hdry ⟨hm.sound, hstandard, hdatabase ▸ hstored⟩ hledger hwrite
  have hmem := hf.mem_entries hholds.sound hholds.stored
  have hexists := ((Diff.mem_writeAll_ofDelta hdiff).1 hmem).2
  rw [← hn, Database.hasTable_congr hschema]
  exact Database.hasTable_of_existsIn (hcache f ▸ hexists)

theorem database_updateDdl (sql : List String) (s : Site) :
    (ending (updateDdl sql) s).database = ending (Database.updateDdl sql) s.database := by
  obtain ⟨notes, heq⟩ := updateDdl_eq_call sql s
  rw [ending_congr heq, ending_call]
  rfl

theorem Accepted.database_eq {l : Lowered} {r : Schema} {v : Site}
    (h : Accepted o statements s l r v) :
    v.database = ending (Database.updateDdl l.sql) s.database := by
  obtain ⟨notes, u, hupdate, hdatabase⟩ := h.executed
  rw [hdatabase, ← ending_of_ok hupdate, database_updateDdl]
  rfl

theorem Accepted.existsIn {l : Lowered} {r : Schema} {v : Site} (h : Accepted o statements s l r v)
    (hs : s.Fresh o.sideTable) (f : Fact) :
    f.existsIn v.cache.tables = f.existsIn v.database.schema := by
  rw [h.tables, Fact.existsIn_map_withFacts,
    Fact.existsIn_of_described (h.fresh hs).sound h.described]

/-- Statements without steps take nothing away. -/
theorem removes_eq_nil_of_lowerAll {l : Lowered} (hlower : Statement.lowerAll statements = .ok l)
    (hdelta : l.delta = []) : ∀ x ∈ l.sql, ∀ c, Command.ofText? x = some c → c.removes = [] := by
  intro x hx c hc
  obtain ⟨d, hd, rfl⟩ := List.mem_map.1 hx
  have hmirrors : Mirrors True l.ddl l.delta :=
    Statement.mirrors_of_lowerAll hlower fun _ _ _ ↦ trivial
  exact Command.removes_of_adds (hmirrors.adds hdelta d hd) hc

/-- A batch that succeeds leaves nothing behind. -/
theorem backed_of_executeDdl (hdry : o.dryRun = false) (hs : s.Fresh o.sideTable)
    (hbacked : s.Backed o.sideTable n) {sql : List String} {d : Diff}
    (hok : executeDdl o statements ignoreMissing s = .ok (sql, d) t) : t.Backed o.sideTable n := by
  cases executed_of_executeDdl hdry hok with
  | idle notes hlower hempty => exact hbacked
  | unstored notes haccepted hunsaid =>
    rename_i l r v
    rcases hunsaid with hempty | hmissing
    · have hsql := removes_eq_nil_of_lowerAll haccepted.lowered (List.isEmpty_iff.1 hempty)
      change v.database.Backed o.sideTable n
      rw [haccepted.database_eq]
      exact hbacked.updateDdl hs.sound hsql
    · refine .of_tableMissing (Option.eq_none_iff_forall_ne_some.2 fun u hu ↦ ?_)
      rw [haccepted.tables,
        contains_of_described (haccepted.fresh hs).sound haccepted.described hu] at hmissing
      contradiction
  | unchanged haccepted hsome happlied hempty =>
    exact backed_of_applyDelta hdry (haccepted.fresh hs) (haccepted.existsIn hs) hsome happlied
  | stored haccepted hsome happlied hnonempty hreload =>
    obtain ⟨-, -, hdatabase, -, -⟩ := of_reloadTables hreload
    rw [Site.Backed, hdatabase]
    exact backed_of_applyDelta hdry (haccepted.fresh hs) (haccepted.existsIn hs) hsome happlied

/-- A batch that succeeds, or that has spared the table and the side table when it failed. -/
def Tidy (o : PassOptions) (n : String) (statements : List Statement) (ignoreMissing : Bool)
    (s : Site) : Prop :=
  (∃ r t, executeDdl o statements ignoreMissing s = .ok r t) ∨
    s.database.Spared o.sideTable n (ending (executeDdl o statements ignoreMissing) s).database

/-- Whether plain statements are tidy can be found out by enacting them. -/
theorem tidy_iff_direct (h : Statement.Plain statements) (hs : s.database.Orderly) :
    Tidy o n statements ignoreMissing s ↔
      (∃ r t, Direct.executeDdl o statements ignoreMissing s = .ok r t) ∨
        s.database.Spared o.sideTable n
          (ending (Direct.executeDdl o statements ignoreMissing) s).database := by
  obtain ⟨heq, -⟩ := agree_executeDdl h ignoreMissing s hs
  rw [Tidy, heq, ending_congr heq]

theorem backed_executeDdl (hdry : o.dryRun = false) (hs : s.Fresh o.sideTable)
    (hbacked : s.Backed o.sideTable n) (h : Tidy o n statements ignoreMissing s) :
    (ending (executeDdl o statements ignoreMissing) s).Backed o.sideTable n := by
  rcases h with ⟨⟨sql, d⟩, t, hok⟩ | hspared
  · rw [ending_of_ok hok]
    exact backed_of_executeDdl hdry hs hbacked hok
  · exact backed_of_spared hdry hs.sound hbacked hspared

/-! ## Calls -/

theorem backed_createAndLoad (hdry : o.dryRun = false) (hsound : s.database.Sound)
    (hs : s.Backed o.sideTable n) :
    (ending (createAndLoad o) s).Backed o.sideTable n := by
  rw [createAndLoad]
  cases hlower : (SideTable.statement o.sideTable).lower with
  | error e => exact hs
  | ok l =>
    have hsql : ∀ x ∈ l.sql, ∀ c, Command.ofText? x = some c → c.removes = [] := fun x hx c hc ↦
      List.eq_nil_iff_forall_not_mem.2 fun m ↦ not_removes_of_createTable hlower x hx c hc
    rw [ofExcept_ok, pure_bind, hdry, if_neg Bool.false_ne_true, ending_bind_of_ok (note_eq _ s)]
    refine Keeps.ending_bind ?_ fun _ ↦ keeps_load
    rw [Site.Backed, database_updateDdl]
    exact Database.Backed.updateDdl hs hsound hsql

/-- What a pass does before its batch. -/
def opening (o : PassOptions) (entities : List Entity) (statements : List Statement) :
    Pass Ledger := do
  note (.passStarted entities.length statements.length o.dryRun)
  let _ ← reloadTables true
  createAndLoad o

namespace Call

/-- The batch of the call, if there is one, is tidy where the call executes it. -/
def Tidy (o : PassOptions) (n : String) : Call → Site → Prop
  | executeDdl statements ignoreMissing, s => Pass.Tidy o n statements ignoreMissing s
  | synchronize entities statements ignoreMissing, s =>
    ∀ l u, opening o entities statements s = .ok l u → Pass.Tidy o n statements ignoreMissing u
  | _, _ => True

/-- Each of the calls is tidy where it is made. -/
def AllTidy (o : PassOptions) (n : String) : List Call → Site → Prop
  | [], _ => True
  | c :: calls, s => c.Tidy o n s ∧ AllTidy o n calls (c.apply o s)

end Call

theorem backed_synchronize (hdry : o.dryRun = false) (hs : s.Fresh o.sideTable)
    (hbacked : s.Backed o.sideTable n) {entities : List Entity}
    (h : (Call.synchronize entities statements ignoreMissing).Tidy o n s) :
    (ending (synchronize o entities statements ignoreMissing) s).Backed o.sideTable n := by
  have hsteady := steady_backed o.sideTable n
  have hfresh := (steady_fresh o.sideTable).reloadTables
  rw [synchronize, ending_bind_of_ok (note_eq _ s)]
  refine ending_bind (hsteady.reloadTables true _ hbacked) fun k v hreload hv ↦ ?_
  have hvfresh : v.Fresh o.sideTable := ending_of_ok hreload ▸ hfresh true _ ⟨hs.sound, hs.ledger⟩
  refine ending_bind (backed_createAndLoad hdry hvfresh.sound hv) fun l w hcreate hw ↦ ?_
  have hwfresh : w.Fresh o.sideTable := ending_of_ok hcreate ▸ fresh_createAndLoad hdry hvfresh
  have hopening : opening o entities statements s = .ok l w :=
    (run_bind_of_ok (note_eq _ s)).trans ((run_bind_of_ok hreload).trans hcreate)
  refine ending_bind (backed_executeDdl hdry hwfresh hw (h l w hopening)) fun r x hexecute hx ↦ ?_
  have hxfresh : x.Fresh o.sideTable :=
    ending_of_ok hexecute ▸ fresh_executeDdl hdry statements ignoreMissing hwfresh
  refine ending_bind (hsteady.reloadTables ignoreMissing x hx) fun k y hreload hy ↦ ?_
  obtain ⟨-, hcache⟩ := existsIn_of_reloadTables hxfresh.sound hreload
  exact Keeps.ending_bind (backed_syncEntities hy hcache entities ignoreMissing) fun _ ↦
    (hsteady.reloadTables ignoreMissing).bind fun _ ↦ (hsteady.note _).bind fun _ ↦ .pure _

theorem backed_call (hdry : o.dryRun = false) {c : Call} (hs : s.Fresh o.sideTable)
    (hbacked : s.Backed o.sideTable n) (h : c.Tidy o n s) :
    (c.apply o s).Backed o.sideTable n := by
  cases c with
  | executeDdl statements ignoreMissing => exact backed_executeDdl hdry hs hbacked h
  | loadTables ignoreMissing =>
    exact (steady_backed o.sideTable n).reloadTables ignoreMissing s hbacked
  | synchronize entities statements ignoreMissing => exact backed_synchronize hdry hs hbacked h
  | refuseAfter k => exact hbacked
  | refuseNone => exact hbacked

/-- After calls that are tidy no facts are recorded of the table if it is not there. -/
theorem backed_afterCalls (hdry : o.dryRun = false) (calls : List Call) (hs : s.Fresh o.sideTable)
    (hbacked : s.Backed o.sideTable n) (h : Call.AllTidy o n calls s) :
    (afterCalls o calls s).Backed o.sideTable n := by
  induction calls generalizing s with
  | nil => exact hbacked
  | cons c calls ih => exact ih (fresh_call hdry c hs) (backed_call hdry hs hbacked h.1) h.2

end Pass

end SchemaLedger
