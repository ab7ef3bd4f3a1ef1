import Mathlib
import SchemaLedger.Proofs.Lowering.Touched
import SchemaLedger.Proofs.Synchronization.Direct

/-!
# The cached ledger

After every call the cached ledger is none or the one that loading the side table would give at that
moment. It is dropped when statements touch the side table and when a write fails. Otherwise
statements leave the side table what it holds, and after writes that succeed it is loaded again,
which cannot fail: it could be loaded before, and what has been written can be read.
-/

namespace SchemaLedger

open SideTable

/-- The database is sound, and a cached ledger is the one that is stored. -/
structure Site.Fresh (sideTable : String) (s : Site) : Prop where
  sound : s.database.Sound
  ledger : ∀ l, s.cache.ledger = some l → stored sideTable s.database = .ok l

theorem Site.Fresh.of_none {sideTable : String} {s : Site} (h : s.database.Sound)
    (hl : s.cache.ledger = none) : s.Fresh sideTable :=
  ⟨h, fun l hl' ↦ absurd (hl.symm.trans hl') (by simp)⟩

namespace Pass

variable {o : PassOptions}

theorem steady_fresh (sideTable : String) : Steady (Site.Fresh sideTable) :=
  fun _ _ _ h ↦ ⟨h.sound, h.ledger⟩

/-! ## Loading and writing -/

theorem fresh_load {s : Site} (h : s.Fresh o.sideTable) :
    (ending (load o) s).Fresh o.sideTable := by
  cases hs : stored o.sideTable s.database with
  | ok l =>
    rw [ending_of_ok (load_of_stored hs)]
    exact ⟨h.sound, fun l' hl' ↦ Option.some.inj hl' ▸ hs⟩
  | error e =>
    obtain ⟨e', he⟩ := load_of_error hs
    rw [ending_of_error he]
    exact h

theorem loaded_of_some {s : Site} {l : Ledger} (h : s.cache.ledger = some l) :
    loaded o s = .ok l s := by
  rw [loaded, run_bind_of_ok (m := get) (a := s) (t := s) rfl, h]
  rfl

theorem loaded_of_none {s : Site} (h : s.cache.ledger = none) : loaded o s = load o s := by
  rw [loaded, run_bind_of_ok (m := get) (a := s) (t := s) rfl, h]

/-- A ledger that is loaded is cached and stored. -/
theorem of_loaded {s t : Site} {l : Ledger} (h : s.Fresh o.sideTable) (hok : loaded o s = .ok l t) :
    t.Fresh o.sideTable ∧ t.database = s.database ∧ t.cache.tables = s.cache.tables ∧
      t.cache.ledger = some l ∧ stored o.sideTable t.database = .ok l := by
  cases hl : s.cache.ledger with
  | some l' =>
    rw [loaded_of_some hl] at hok
    obtain ⟨rfl, rfl⟩ := EStateM.Result.ok.inj hok
    exact ⟨h, rfl, rfl, hl, h.ledger _ hl⟩
  | none =>
    rw [loaded_of_none hl] at hok
    have hfresh := fresh_load h
    rw [ending_of_ok hok] at hfresh
    cases hs : stored o.sideTable s.database with
    | ok l' =>
      rw [load_of_stored hs] at hok
      obtain ⟨rfl, rfl⟩ := EStateM.Result.ok.inj hok
      exact ⟨hfresh, rfl, rfl, rfl, hs⟩
    | error e =>
      obtain ⟨e', he⟩ := load_of_error hs
      rw [he] at hok
      contradiction

theorem fresh_loaded {s : Site} (h : s.Fresh o.sideTable) :
    (ending (loaded o) s).Fresh o.sideTable := by
  cases hl : s.cache.ledger with
  | some l =>
    rw [ending_of_ok (loaded_of_some hl)]
    exact h
  | none =>
    rw [ending, loaded_of_none hl]
    exact fresh_load h

/-- Facts that are written can be read. -/
theorem keeps_readable_writeFacts (d : Diff) :
    Keeps (fun s ↦ Readable o.sideTable s.database) (writeFacts o d) :=
  .bind (.forM fun f _ ↦ keeps_call (keeps_readable_upsertRow o.sideTable f)) fun _ ↦
    .forM fun f _ ↦ keeps_call (keeps_readable_deleteRow o.sideTable f)

theorem keeps_writeFacts (d : Diff) :
    Keeps (fun s ↦ s.database.Sound ∧ Readable o.sideTable s.database) (writeFacts o d) := by
  have hsound : Keeps (fun s ↦ s.database.Sound) (writeFacts o d) :=
    .bind (.forM fun f _ ↦ keeps_call (Database.keeps_sound_upsertRow _ _ _)) fun _ ↦
      .forM fun f _ ↦ keeps_call (Database.keeps_sound_deleteRow _ _)
  exact hsound.and (keeps_readable_writeFacts d)

theorem fresh_write (hdry : o.dryRun = false) (d : Diff) {s : Site} (h : s.Fresh o.sideTable)
    (hreadable : Readable o.sideTable s.database) : (ending (write o d) s).Fresh o.sideTable := by
  rw [write]
  split
  · exact h
  · rw [hdry, if_neg Bool.false_ne_true, ending_bind_of_ok (note_eq _ s),
      ending_bind_of_ok (outcome_eq _ _)]
    obtain ⟨hsound, l, hl⟩ := keeps_writeFacts (o := o) d (noted _ s) ⟨h.sound, hreadable⟩
    cases value (writeFacts o d) (noted _ s) with
    | error e => exact .of_none hsound rfl
    | ok u =>
      change Site.Fresh o.sideTable (ending (load o >>= fun _ ↦ pure ()) _)
      rw [ending_bind_of_ok (load_of_stored hl)]
      exact ⟨hsound, fun l' hl' ↦ Option.some.inj hl' ▸ hl⟩

/-- Facts are compared with the ledger that is cached, or loaded if there is none. -/
theorem fresh_loaded_bind {α : Type} {f : Ledger → Pass α} {s : Site} (h : s.Fresh o.sideTable)
    (hf : ∀ l t, t.Fresh o.sideTable → Readable o.sideTable t.database →
      (ending (f l) t).Fresh o.sideTable) :
    (ending (loaded o >>= f) s).Fresh o.sideTable := by
  cases hl : loaded o s with
  | ok l t =>
    obtain ⟨hfresh, -, -, -, hstored⟩ := of_loaded h hl
    rw [ending_bind_of_ok hl]
    exact hf l t hfresh ⟨l, hstored⟩
  | error e t =>
    rw [ending_bind_of_error hl, ← ending_of_error hl]
    exact fresh_loaded h

theorem fresh_writeDiff (hdry : o.dryRun = false) (notes : List Note) (d : Except SchemaError Diff)
    {s : Site} (h : s.Fresh o.sideTable) (hreadable : Readable o.sideTable s.database) :
    (ending (do noteAll notes; let d ← ofExcept d; write o d; return d : Pass Diff) s).Fresh
      o.sideTable := by
  rw [ending_bind_of_ok (noteAll_eq notes s)]
  cases d with
  | error e => exact ⟨h.sound, h.ledger⟩
  | ok d =>
    have hwrite := fresh_write hdry d (s := noted notes s) ⟨h.sound, h.ledger⟩ hreadable
    rw [ofExcept_ok, pure_bind]
    cases hw : write o d (noted notes s) with
    | ok u t =>
      rw [ending_bind_of_ok hw, ← ending_of_ok hw]
      exact hwrite
    | error e t =>
      rw [ending_bind_of_error hw, ← ending_of_error hw]
      exact hwrite

theorem fresh_syncEntities (hdry : o.dryRun = false) (entities : List Entity) (ignoreMissing : Bool)
    {s : Site} (h : s.Fresh o.sideTable) :
    (ending (syncEntities o entities ignoreMissing) s).Fresh o.sideTable :=
  fresh_loaded_bind h fun _ t ht hreadable ↦ by
    rw [ending_bind_of_ok (m := get) (a := t) (t := t) rfl]
    exact fresh_writeDiff hdry _ _ ht hreadable

theorem fresh_applyDelta (hdry : o.dryRun = false) (delta : Delta) (ignoreMissing : Bool)
    {s : Site} (h : s.Fresh o.sideTable) :
    (ending (applyDelta o delta ignoreMissing) s).Fresh o.sideTable := by
  rw [applyDelta]
  split
  · exact h
  · refine fresh_loaded_bind h fun _ t ht hreadable ↦ ?_
    rw [ending_bind_of_ok (m := get) (a := t) (t := t) rfl]
    exact fresh_writeDiff hdry _ _ ht hreadable

/-! ## Statements -/

/-- Statements that take nothing from the side table leave what it holds. -/
theorem keeps_fresh_updateDdl {sideTable : String} {sql : List String}
    (hsql : ∀ x ∈ sql, ∀ c, Command.ofText? x = some c → sideTable ∉ c.removes) :
    Keeps (Site.Fresh sideTable) (updateDdl sql) := by
  refine .forM fun x hx ↦ .bind ((steady_fresh sideTable).note _) fun _ s h ↦ ?_
  rw [ending_call]
  rcases Database.execute_cases x s.database with ⟨e, he⟩ | ⟨db', hrun, hok⟩
  · rw [ending_of_error he]
    exact h
  · have hextends : Database.Extends { db' with appliedDdl := db'.appliedDdl ++ [x] } s.database
        sideTable := h.sound.extends_of_run hrun (hsql x hx)
    rw [ending_of_ok hok]
    exact ⟨⟨(h.sound.run hrun).named, (h.sound.run hrun).tables⟩,
      fun l hl ↦ stored_of_extends hextends (h.ledger l hl)⟩

theorem keeps_sound_updateDdl (sql : List String) :
    Keeps (fun s ↦ s.database.Sound) (updateDdl sql) :=
  .forM fun x _ ↦ .bind (fun _ h ↦ h) fun _ ↦ keeps_call (Database.keeps_sound_execute x)

theorem not_removes_of_lowerAll {sideTable : String} {statements : List Statement} {l : Lowered}
    (hlower : Statement.lowerAll statements = .ok l)
    (htouched : ∀ s ∈ statements, sideTable ∉ s.touched) :
    ∀ x ∈ l.sql, ∀ c, Command.ofText? x = some c → sideTable ∉ c.removes := by
  intro x hx c hc hn
  obtain ⟨d, hd, rfl⟩ := List.mem_map.1 hx
  obtain ⟨s, hs, hmem⟩ :=
    Statement.exists_touched_of_lowerAll hlower d hd _ (Command.mem_subjects_of_ofText? hc _ hn)
  exact htouched s hs hmem

/-- The statements of a declaration take nothing from any table. -/
theorem not_removes_of_createTable {sideTable : String} {c : CreateTable} {l : Lowered}
    (hlower : c.lower = .ok l) :
    ∀ x ∈ l.sql, ∀ c, Command.ofText? x = some c → sideTable ∉ c.removes := by
  obtain ⟨t, columns, key, hmeant⟩ := CreateTable.exists_of_lower hlower
  intro x hx c hc
  have hcreate : "CREATE".toList <+: x.toList := by
    obtain ⟨d, hd, rfl⟩ := List.mem_map.1 hx
    rw [hmeant.ddl] at hd
    rcases List.mem_cons.1 hd with rfl | hd
    · exact Command.create_prefix_createTable ..
    · obtain ⟨i, -, rfl⟩ := List.mem_map.1 hd
      exact Command.create_prefix_createIndex i
  rw [Command.removes_of_create hcreate hc]
  exact List.not_mem_nil

theorem fresh_createAndLoad (hdry : o.dryRun = false) {s : Site} (h : s.Fresh o.sideTable) :
    (ending (createAndLoad o) s).Fresh o.sideTable := by
  rw [createAndLoad]
  cases hlower : (SideTable.statement o.sideTable).lower with
  | error e => exact h
  | ok l =>
    have hkeeps : Keeps (Site.Fresh o.sideTable) (do
        note (.sideTableEnsured o.sideTable); updateDdl l.sql; load o : Pass Ledger) :=
      .bind ((steady_fresh o.sideTable).note _) fun _ ↦
        .bind (keeps_fresh_updateDdl (not_removes_of_createTable hlower)) fun _ _ ↦ fresh_load
    rw [ofExcept_ok, pure_bind, hdry]
    exact hkeeps s h

/-! ## Calls -/

/-- Where the side table may have changed the ledger is dropped. -/
theorem fresh_invalidated {statements : List Statement} {s : Site} (hsound : s.database.Sound)
    (hfresh : statements.any (·.touched.contains o.sideTable) = false → s.Fresh o.sideTable) :
    (invalidated o statements s).Fresh o.sideTable := by
  rw [invalidated]
  split
  · exact .of_none hsound rfl
  · exact hfresh (Bool.eq_false_iff.2 ‹_›)

theorem fresh_concludeDdl (hdry : o.dryRun = false) (l : Lowered) (ignoreMissing : Bool)
    (applied : Except PassError Unit) :
    Keeps (Site.Fresh o.sideTable) (concludeDdl o l ignoreMissing applied) := by
  have hsteady := steady_fresh o.sideTable
  refine .bind (hsteady.reloadTables true) fun _ ↦ ?_
  cases applied with
  | error e => exact .throw e
  | ok _ =>
    refine .ite (fun _ ↦ .pure _) fun _ ↦ .get_bind fun t ↦ .ite ?_ fun _ ↦ ?_
    · exact fun _ ↦ .bind (hsteady.note _) fun _ ↦ .pure _
    · refine .bind (fun _ ↦ fresh_applyDelta hdry l.delta ignoreMissing) fun d ↦ ?_
      exact .ite (fun _ ↦ .bind (hsteady.reloadTables ignoreMissing) fun _ ↦ .pure _) fun _ ↦
        .pure _

theorem fresh_executeDdl (hdry : o.dryRun = false) (statements : List Statement)
    (ignoreMissing : Bool) {s : Site} (h : s.Fresh o.sideTable) :
    (ending (executeDdl o statements ignoreMissing) s).Fresh o.sideTable := by
  have hnoted (notes : List Note) : (noted notes s).Fresh o.sideTable := ⟨h.sound, h.ledger⟩
  cases hlower : Statement.lowerAll statements with
  | error e =>
    rw [ending_of_error (executeDdl_of_error hlower ignoreMissing s)]
    exact hnoted _
  | ok l =>
    by_cases hsql : l.sql = []
    · rw [ending_of_ok (executeDdl_of_nil hlower hsql ignoreMissing s)]
      exact hnoted _
    · obtain ⟨notes, heq⟩ := executeDdl_eq hlower hdry hsql ignoreMissing s
      rw [ending_congr heq]
      refine fresh_concludeDdl hdry l ignoreMissing _ _ (fresh_invalidated ?_ fun htouched ↦ ?_)
      · exact keeps_sound_updateDdl l.sql _ h.sound
      · refine keeps_fresh_updateDdl (not_removes_of_lowerAll hlower fun x hx hmem ↦ ?_) _
          (hnoted notes)
        exact List.any_eq_false.1 htouched x hx (List.contains_iff_mem.2 hmem)

theorem fresh_synchronize (hdry : o.dryRun = false) (entities : List Entity)
    (statements : List Statement) (ignoreMissing : Bool) :
    Keeps (Site.Fresh o.sideTable) (synchronize o entities statements ignoreMissing) := by
  have hsteady := steady_fresh o.sideTable
  exact .bind (hsteady.note _) fun _ ↦ .bind (hsteady.reloadTables true) fun _ ↦
    .bind (fun _ ↦ fresh_createAndLoad hdry) fun _ ↦
    .bind (fun _ ↦ fresh_executeDdl hdry statements ignoreMissing) fun _ ↦
    .bind (hsteady.reloadTables ignoreMissing) fun _ ↦
    .bind (fun _ ↦ fresh_syncEntities hdry entities ignoreMissing) fun _ ↦
    .bind (hsteady.reloadTables ignoreMissing) fun _ ↦ .bind (hsteady.note _) fun _ ↦ .pure _

/-- What is done with a site: a call, or an order to its database about row writes. -/
inductive Call where
  | executeDdl (statements : List Statement) (ignoreMissing : Bool)
  | loadTables (ignoreMissing : Bool)
  | synchronize (entities : List Entity) (statements : List Statement) (ignoreMissing : Bool)
  | refuseAfter (n : Nat)
  | refuseNone

/-- The site after a call, whatever comes of it. -/
def Call.apply (o : PassOptions) : Call → Site → Site
  | executeDdl statements ignoreMissing => ending (Pass.executeDdl o statements ignoreMissing)
  | loadTables ignoreMissing => ending (reloadTables ignoreMissing)
  | synchronize entities statements ignoreMissing =>
    ending (Pass.synchronize o entities statements ignoreMissing)
  | refuseAfter n => fun s ↦ { s with database := s.database.refuseAfter n }
  | refuseNone => fun s ↦ { s with database := s.database.refuseNone }

theorem fresh_call (hdry : o.dryRun = false) (c : Call) {s : Site} (h : s.Fresh o.sideTable) :
    (c.apply o s).Fresh o.sideTable := by
  cases c with
  | executeDdl statements ignoreMissing => exact fresh_executeDdl hdry statements ignoreMissing h
  | loadTables ignoreMissing => exact (steady_fresh o.sideTable).reloadTables ignoreMissing s h
  | synchronize entities statements ignoreMissing =>
    exact fresh_synchronize hdry entities statements ignoreMissing s h
  | refuseAfter n =>
    have hextends : Database.Extends (s.database.refuseAfter n) s.database o.sideTable :=
      .refl s.database o.sideTable
    exact ⟨⟨h.sound.named, h.sound.tables⟩, fun l hl ↦ stored_of_extends hextends (h.ledger l hl)⟩
  | refuseNone =>
    have hextends : Database.Extends s.database.refuseNone s.database o.sideTable :=
      .refl s.database o.sideTable
    exact ⟨⟨h.sound.named, h.sound.tables⟩, fun l hl ↦ stored_of_extends hextends (h.ledger l hl)⟩

/-- The site after calls, one after another. -/
def afterCalls (o : PassOptions) (calls : List Call) (s : Site) : Site :=
  calls.foldl (fun s c ↦ c.apply o s) s

theorem fresh_afterCalls (hdry : o.dryRun = false) (calls : List Call) {s : Site}
    (h : s.Fresh o.sideTable) : (afterCalls o calls s).Fresh o.sideTable := by
  induction calls generalizing s with
  | nil => exact h
  | cons c calls ih => exact ih (fresh_call hdry c h)

/-! ## Calls without text -/

namespace Call

/-- The statements of the call are written without loss. -/
def Plain (o : PassOptions) : Call → Prop
  | executeDdl statements _ => Statement.Plain statements
  | synchronize _ statements _ =>
    Statement.Plain [SideTable.statement o.sideTable] ∧ Statement.Plain statements
  | _ => True

instance (o : PassOptions) : DecidablePred (Plain o)
  | executeDdl statements _ => inferInstanceAs (Decidable (Statement.Plain statements))
  | synchronize .. => inferInstanceAs (Decidable (_ ∧ _))
  | loadTables _ | refuseAfter _ | refuseNone => instDecidableTrue

/-- The site after a call that enacts its statements. -/
def direct (o : PassOptions) : Call → Site → Site
  | executeDdl statements ignoreMissing => ending (Direct.executeDdl o statements ignoreMissing)
  | loadTables ignoreMissing => ending (Direct.reloadTables ignoreMissing)
  | synchronize entities statements ignoreMissing =>
    ending (Direct.synchronize o entities statements ignoreMissing)
  | c => c.apply o

theorem Plain.apply_eq {c : Call} (h : c.Plain o) {s : Site} (hs : s.database.Orderly) :
    c.apply o s = c.direct o s ∧ (c.apply o s).database.Orderly := by
  have of_agree {α : Type} {m n : Pass α} (h : Agree (fun s ↦ s.database.Orderly) m n) :
      ending m s = ending n s ∧ (ending m s).database.Orderly := ⟨h.ending_eq hs, (h s hs).2⟩
  cases c with
  | executeDdl statements ignoreMissing => exact of_agree (agree_executeDdl h ignoreMissing)
  | loadTables ignoreMissing => exact of_agree (agree_reloadTables ignoreMissing)
  | synchronize entities statements ignoreMissing =>
    exact of_agree (agree_synchronize h.1 entities h.2 ignoreMissing)
  | refuseAfter n => exact ⟨rfl, hs.call (c := .refuseAfter n) nofun⟩
  | refuseNone => exact ⟨rfl, hs.call (c := .refuseNone) nofun⟩

end Call

/-- Calls with plain statements do the same when the statements are enacted. -/
theorem afterCalls_eq {calls : List Call} (h : ∀ c ∈ calls, c.Plain o) {s : Site}
    (hs : s.database.Orderly) :
    afterCalls o calls s = calls.foldl (fun s c ↦ c.direct o s) s ∧
    (afterCalls o calls s).database.Orderly := by
  induction calls generalizing s with
  | nil => exact ⟨rfl, hs⟩
  | cons c calls ih =>
    obtain ⟨heq, horderly⟩ := (h c List.mem_cons_self).apply_eq hs
    obtain ⟨hrest, hend⟩ := ih (fun d hd ↦ h d (List.mem_cons_of_mem c hd)) horderly
    refine ⟨?_, hend⟩
    rw [List.foldl_cons, ← heq, ← hrest]
    rfl

/-! ## What is loaded -/

/-- After any calls on a new database, or one made from a dump, a cached ledger is the one that
loading the side table gives. -/
theorem load_of_cached (hdry : o.dryRun = false) {start : Database}
    (hstart : start = {} ∨ ∃ dump, Database.ofDump dump = .ok start) (calls : List Call)
    (l : Ledger) (hcached : (afterCalls o calls { database := start }).cache.ledger = some l) :
    ∃ t, load o (afterCalls o calls { database := start }) = .ok l t := by
  have hsound : start.Sound := by
    rcases hstart with rfl | ⟨dump, hdump⟩
    · exact Database.sound_empty
    · exact Database.sound_ofDump hdump
  have hfresh := fresh_afterCalls hdry calls (s := { database := start }) (.of_none hsound rfl)
  exact ⟨_, load_of_stored (hfresh.ledger l hcached)⟩

/-- A side table under another name. -/
def shelfOptions : PassOptions := { sideTable := "side-facts" }

/-- A table with a generated key. -/
def shelves : Statement :=
  .createTable
    { table := "book-shelves"
      definitions :=
        [.column { name := "shelf-id", dataType := ⟨"int", none, false⟩, generation := some .uuid },
          .primaryKey [⟨"shelf-id", .asc⟩]] }

/-- Both tables are created, writes are refused from then on, and a batch is refused. -/
def shelfCalls : List Call :=
  [.executeDdl [SideTable.statement shelfOptions.sideTable, shelves] false, .refuseAfter 0,
    .executeDdl [.dropTable ["attic"] false] false]

theorem shelves_load_of_cached :
    (afterCalls shelfOptions shelfCalls {}).cache.ledger.map (·.entries)
        = some [⟨"book-shelves", "shelf-id", .strategy, "uuid"⟩] ∧
      ∃ l t, load shelfOptions (afterCalls shelfOptions shelfCalls {}) = .ok l t ∧
        l.entries = [⟨"book-shelves", "shelf-id", .strategy, "uuid"⟩] := by
  have hcached : (afterCalls shelfOptions shelfCalls {}).cache.ledger.map (·.entries)
      = some [⟨"book-shelves", "shelf-id", .strategy, "uuid"⟩] := by
    rw [(afterCalls_eq (by decide +kernel) Database.orderly_empty).1]
    decide +kernel
  obtain ⟨l, hl, hentries⟩ := Option.map_eq_some_iff.1 hcached
  obtain ⟨t, ht⟩ := load_of_cached (o := shelfOptions) rfl (Or.inl rfl) shelfCalls l hl
  exact ⟨hcached, l, t, ht, hentries⟩

end Pass

end SchemaLedger
