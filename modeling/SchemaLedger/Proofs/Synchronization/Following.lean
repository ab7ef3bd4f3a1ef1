import Mathlib
import SchemaLedger.Proofs.Database.Grounded
import SchemaLedger.Proofs.Dump.Dangling
import SchemaLedger.Proofs.Reconciliation.Delta
import SchemaLedger.Proofs.Synchronization.Batch

/-!
# Stored facts follow the tables

Where every stored fact is about a column that is there, this stays so when a batch is executed that
leaves the side table alone and creates no table that may be there already. What is stored in the
end is what the delta of the batch makes of what was stored before. On the way nothing refers to a
column that is gone: not the facts, and not the dump of the database either.
-/

namespace SchemaLedger

open SideTable

/-- The error is none for a reference to something that is not there. -/
def PassError.Undangling (e : PassError) : Prop := e.isDangling = false

theorem PassError.undangling_client (operation message : String) :
    (client operation message).Undangling :=
  rfl

theorem PassError.undangling_invalidRow (table message : String) :
    (invalidRow table message).Undangling :=
  rfl

/-! ## Rows -/

namespace SideTable

variable {sideTable : String} {e : PassError}

theorem undangling_of_textCell {column : String} {j : Json}
    (h : textCell sideTable column j = .error e) :
    e.Undangling := by
  rw [textCell.eq_def] at h
  split at h
  · contradiction
  · exact Except.error.inj h ▸ PassError.undangling_invalidRow _ _

/-- What is wrong with a row is one of its cells. -/
theorem undangling_of_readRow {row : List Json} (h : readRow sideTable row = .error e) :
    e.Undangling := by
  rw [readRow.eq_def] at h
  split at h
  · rcases bind_eq_error h with h | ⟨name, -, h⟩
    · exact undangling_of_textCell h
    rcases bind_eq_error h with h | ⟨property, -, h⟩
    · cases hproperty : Property.ofText? name with
      | ok p =>
        rw [hproperty] at h
        contradiction
      | error e' =>
        rw [hproperty] at h
        exact Except.error.inj h ▸ PassError.undangling_invalidRow _ _
    split at h
    · contradiction
    rcases bind_eq_error h with h | ⟨v, -, h⟩
    · exact undangling_of_textCell h
    rcases bind_eq_error h with h | ⟨t, -, h⟩
    · exact undangling_of_textCell h
    rcases bind_eq_error h with h | ⟨c, -, h⟩
    · exact undangling_of_textCell h
    · contradiction
  · contradiction

theorem undangling_of_readRows {rows : List (List Json)} (h : readRows sideTable rows = .error e) :
    e.Undangling := by
  obtain ⟨row, -, hrow⟩ := exists_of_mapM_error (map_eq_error h)
  exact undangling_of_readRow hrow

end SideTable

/-! ## Calls to the database -/

namespace Database

variable {db : Database}

theorem failsOnly_tableFor (operation name : String) (db : Database) :
    FailsOnly PassError.Undangling (tableFor operation name) db := by
  refine .bind_of_ok (m := get) (a := db) (t := db) rfl ?_
  split
  · exact .pure _ _
  · exact .throw (PassError.undangling_client _ _) _

theorem failsOnly_recordWrite (operation : String) (db : Database) :
    FailsOnly PassError.Undangling (recordWrite operation) db := by
  refine .bind_of_ok (m := get) (a := db) (t := db) rfl ?_
  split
  · exact .throw (PassError.undangling_client _ _) _
  · exact .of_ok rfl

theorem failsOnly_readRows (table : String) (columns : List String) (db : Database) :
    FailsOnly PassError.Undangling (readRows table columns) db := by
  refine .bind (failsOnly_tableFor _ _ _) fun t db' _ ↦ ?_
  split
  · exact .throw (PassError.undangling_client _ _) _
  · exact .pure _ _

theorem failsOnly_upsertRow (table : String) (columns : List String) (values : List Json)
    (db : Database) :
    FailsOnly PassError.Undangling (upsertRow table columns values) db := by
  rw [upsertRow]
  dsimp only
  split
  · exact .throw (PassError.undangling_invalidRow _ _) _
  · refine .bind (failsOnly_tableFor _ _ _) fun t _ _ ↦ ?_
    split
    · exact .throw (PassError.undangling_invalidRow _ _) _
    · split
      · exact .throw (PassError.undangling_invalidRow _ _) _
      · exact .bind (failsOnly_recordWrite _ _) fun _ _ _ ↦ .of_ok rfl

theorem failsOnly_deleteRow (table : String) (key : List Json) (db : Database) :
    FailsOnly PassError.Undangling (deleteRow table key) db := by
  refine .bind (failsOnly_tableFor _ _ _) fun t _ _ ↦ ?_
  dsimp only
  split
  · exact .throw (PassError.undangling_invalidRow _ _) _
  · exact .bind (failsOnly_recordWrite _ _) fun _ _ _ ↦ .of_ok rfl

/-- A side table that is left alone holds what it held. -/
theorem keeps_holds_updateDdl {sideTable : String} {l : Ledger} {sql : List String}
    (hsql : ∀ x ∈ sql, ∀ c, Command.ofText? x = some c → sideTable ∉ c.removes) :
    Keeps (fun db : Database ↦ db.Holds sideTable l) (updateDdl sql) := by
  refine .forM fun x hx db h ↦ ?_
  rcases execute_cases x db with ⟨e, he⟩ | ⟨m, hrun, hok⟩
  · rwa [ending_of_error he]
  · rw [ending_of_ok hok]
    have hextends : m.Extends db sideTable := h.sound.extends_of_run hrun (hsql x hx)
    have hm : m.Sound := h.sound.run hrun
    have hstored := stored_eq_ok.1 (stored_of_extends hextends h.stored)
    exact ⟨⟨hm.named, hm.tables⟩, standard_of_extends hextends h.standard, stored_eq_ok.2 hstored⟩

end Database

namespace Pass

variable {α : Type} {o : PassOptions} {statements : List Statement} {s t : Site}

/-- Statements that are accepted change nothing but the database. -/
theorem updateDdl_eq {sql : List String} {db : Database}
    (h : Database.updateDdl sql s.database = .ok () db) :
    ∃ notes, updateDdl sql s = .ok () (noted notes { s with database := db }) := by
  obtain ⟨notes, hcall⟩ := updateDdl_eq_call sql s
  exact ⟨notes, by rw [hcall]; simp only [call, noted, h]⟩

/-! ## Errors -/

theorem failsOnly_call {m : DatabaseM α} (h : FailsOnly PassError.Undangling m s.database) :
    FailsOnly PassError.Undangling (call m) s := by
  intro e t he
  rw [call] at he
  cases hm : m s.database with
  | ok a db =>
    rw [hm] at he
    contradiction
  | error e' db =>
    rw [hm] at he
    obtain ⟨rfl, -⟩ := EStateM.Result.error.inj he
    exact h e' db hm

theorem failsOnly_ofExcept {x : Except SchemaError α} (h : Undangling x) (s : Site) :
    FailsOnly PassError.Undangling (ofExcept x) s := by
  cases x with
  | ok a => exact .pure a s
  | error e => exact .throw (show PassError.Undangling (.schema e) from h e rfl) s

theorem failsOnly_writeFacts (d : Diff) (s : Site) :
    FailsOnly PassError.Undangling (writeFacts o d) s :=
  .bind (.forM (fun _ _ _ ↦ failsOnly_call (Database.failsOnly_upsertRow _ _ _ _)) s) fun _ t _ ↦
    .forM (fun _ _ _ ↦ failsOnly_call (Database.failsOnly_deleteRow _ _ _)) t

/-- The side table may be missing, or have rows that hold no facts. -/
theorem failsOnly_load (s : Site) : FailsOnly PassError.Undangling (load o) s := by
  refine (failsOnly_call (Database.failsOnly_readRows _ _ _)).bind fun rows t _ ↦ ?_
  cases hread : SideTable.readRows o.sideTable rows with
  | error e => exact .throw (undangling_of_readRows hread) t
  | ok l => exact .of_ok rfl

theorem failsOnly_loaded (s : Site) : FailsOnly PassError.Undangling (loaded o) s := by
  refine .bind_of_ok (m := get) (a := s) (t := s) rfl ?_
  cases s.cache.ledger with
  | none => exact failsOnly_load s
  | some l => exact .pure l s

theorem failsOnly_write (d : Diff) (s : Site) : FailsOnly PassError.Undangling (write o d) s := by
  rw [write]
  split
  · exact .pure _ s
  · refine .bind_of_ok (note_eq _ s) ?_
    split
    · exact .of_ok rfl
    · refine .bind_of_ok (outcome_eq _ _) ?_
      cases hwrite : writeFacts o d (noted _ s) with
      | error e u =>
        rw [value, hwrite]
        exact .bind_of_ok (a := ()) rfl (.throw (failsOnly_writeFacts d _ e u hwrite) _)
      | ok x u =>
        rw [value, hwrite]
        exact (failsOnly_load _).bind fun _ _ _ ↦ .pure _ _

/-- The tables are read back, or something else is wrong with the dump. -/
theorem failsOnly_reloadTables {ignoreMissing : Bool} (h : s.database.Sound)
    (hcovers : ∀ r, s.database.described = .ok r →
      ignoreMissing = true ∨ ∀ t ∈ r.values, t.Covers s.cache.ledger) :
    FailsOnly PassError.Undangling (reloadTables ignoreMissing) s := by
  cases hr : s.database.described with
  | ok r =>
    obtain ⟨journal, hok⟩ := reloadTables_eq hr (hcovers r hr)
    exact .of_ok hok
  | error e =>
    -- Where the dump cannot be written or read, this is not for a reference, since the database is
    -- sound.
    have he : PassError.Undangling (.schema e) := h.undangling_described e hr
    rw [Database.described] at hr
    cases hdump : Database.dumpStatements s.database.schema with
    | error e' =>
      rw [hdump] at hr
      obtain rfl := Except.error.inj hr
      have hcall : FailsOnly PassError.Undangling (call Database.schemaDdl) s := by
        refine failsOnly_call (.bind_of_ok (m := get) (a := s.database) (t := s.database) rfl ?_)
        rw [hdump]
        exact .throw he _
      refine hcall.bind fun dump t hok ↦ ?_
      rw [dumpStatements_of_call hok] at hdump
      contradiction
    | ok dump =>
      rw [hdump] at hr
      refine .bind_of_ok (call_schemaDdl_of_ok hdump) ?_
      have hread : FailsOnly PassError.Undangling (ofExcept (Dump.parse dump)) s := by
        refine failsOnly_ofExcept (fun e' he' ↦ ?_) s
        obtain rfl := Except.error.inj (hr.symm.trans he')
        exact he
      refine hread.bind fun r t hok ↦ ?_
      obtain ⟨hparse, -⟩ := exists_of_ofExcept hok
      rw [ok_bind, hparse] at hr
      contradiction

/-! ## Facts of a batch -/

theorem covers_of_grounded {l : Ledger} (hdb : s.database.Sound) (h : l.Grounded s.database)
    {r : Schema} (hr : s.database.described = .ok r) : ∀ t ∈ r.values, t.Covers (some l) := by
  intro t ht l' hl' c hc
  obtain rfl := Option.some.inj hl'
  obtain ⟨n, hn⟩ := mem_values.1 ht
  obtain ⟨-, hname⟩ := Database.sound_of_described hr hn
  obtain ⟨p, v, hv⟩ := Ledger.mem_columns.1 hc
  have hexists : (⟨t.name, c, p, v⟩ : Fact).existsIn r = true := by
    rw [Fact.existsIn_of_described hdb hr]
    exact h _ (Ledger.mem_entries.2 hv)
  rw [Fact.existsIn, hname, hn, Option.any_some, Table.hasColumn_iff] at hexists
  exact hexists

section

variable {delta : Delta} {l : Ledger} {r : Schema} (hdelta : delta.isEmpty = false)
    (hs : s.Fresh o.sideTable)
  (hholds : s.database.Holds o.sideTable l) (hgrounded : (l.applyAll delta).Grounded s.database)
  (hr : s.database.described = .ok r)
    (htables : s.cache.tables = r.map fun _ t ↦ t.withFacts s.cache.ledger)

include hs hgrounded hr htables

/-- All that the delta makes of the stored facts is about columns that are cached. -/
theorem existsIn_of_grounded :
    ∀ f ∈ (l.applyAll delta).entries, f.existsIn s.cache.tables = true := by
  intro f hf
  rw [htables, Fact.existsIn_map_withFacts, Fact.existsIn_of_described hs.sound hr]
  exact hgrounded f hf

include hholds

theorem failsOnly_applyDelta : FailsOnly PassError.Undangling (applyDelta o delta false) s := by
  cases hempty : delta.isEmpty with
  | true =>
    rw [applyDelta, if_pos hempty]
    exact .pure _ s
  | false =>
    obtain ⟨notes, heq⟩ := applyDelta_eq hempty hs hholds.stored false
    obtain ⟨d, hd⟩ : ∃ d, Diff.ofDelta delta l s.cache.tables false = .ok d :=
      Diff.exists_ofDelta (.inr (existsIn_of_grounded hs hgrounded hr htables))
    have hwrite : FailsOnly PassError.Undangling (write o d)
        (noted notes { s with cache := ⟨s.cache.tables, some l⟩ }) := failsOnly_write d _
    refine .congr heq ?_
    rw [hd, ofExcept_ok, pure_bind]
    exact hwrite.bind fun _ _ _ ↦ .pure _ _

include hdelta

/-- What the delta makes of the stored facts is what is stored. -/
theorem holds_of_applyDelta (hdry : o.dryRun = false) {d : Diff}
    (hok : applyDelta o delta false s = .ok d t) :
    t.database.Holds o.sideTable (l.applyAll delta) ∧ (d.isEmpty = false →
      t.cache.ledger = some (l.applyAll delta)) := by
  obtain ⟨l', m, hstored, hdiff, hm, hdatabase, hcache, hwrite⟩ :=
    exists_of_applyDelta hdelta hs hok
  obtain rfl : l' = l := Except.ok.inj (hstored.symm.trans hholds.stored)
  have hwritten : l'.writeAll d.writes = l'.applyAll delta := by
    refine Ledger.ext_of_mem_entries fun f ↦ ?_
    rw [Diff.mem_writeAll_ofDelta hdiff, and_iff_left_iff_imp]
    exact existsIn_of_grounded hs hgrounded hr htables f
  have hledger : m.cache.ledger = some l' := by rw [hcache]
  obtain ⟨ht, htledger, -, -⟩ := holds_of_write hdry (hdatabase ▸ hholds) hledger hwrite
  rw [hwritten] at ht htledger
  exact ⟨ht, fun _ ↦ htledger⟩

end

/-! ## Batches -/

section

variable {l : Ledger} {lowered : Lowered} {db : Database} (hdry : o.dryRun = false)
  (hlower : Statement.lowerAll statements = .ok lowered)
    (htouched : ∀ x ∈ statements, o.sideTable ∉ x.touched)
  (hs : s.Fresh o.sideTable) (hholds : s.database.Holds o.sideTable l)
  (haccept : Database.updateDdl lowered.sql s.database = .ok () db)
  (hgrounded : (l.applyAll lowered.delta).Grounded db)

include hlower htouched hholds haccept

/-- The statements of the batch leave the side table what it held. -/
theorem holds_of_updateDdl : db.Holds o.sideTable l := by
  have hkept :=
    Database.keeps_holds_updateDdl (not_removes_of_lowerAll hlower htouched) s.database hholds
  rwa [ending_of_ok haccept] at hkept

include hdry hs hgrounded

/-- A batch that the database accepts fails, if at all, not for a reference to something that is not
there. -/
theorem failsOnly_executeDdl :
    FailsOnly PassError.Undangling (executeDdl o statements false) s := by
  by_cases hsql : lowered.sql = []
  · exact .of_ok (executeDdl_of_nil hlower hsql false s)
  · obtain ⟨applied, u, heq, hdatabase, hledger, happlied⟩ :=
      exists_executeDdl_eq hlower hdry hsql false s
    have hdb := holds_of_updateDdl hlower htouched hholds haccept
    -- From here on the database is the one that the statements lead to, and only what is cached may
    -- differ.
    obtain rfl : u.database = db := hdatabase.trans (ending_of_ok haccept)
    refine .congr heq ?_
    cases applied with
    | error e =>
      obtain ⟨db, he⟩ := happlied e rfl
      rw [haccept] at he
      contradiction
    | ok _ =>
      refine (failsOnly_reloadTables hdb.sound fun _ _ ↦ .inl rfl).bind fun n v hv ↦ ?_
      obtain ⟨r, hr, hsame, hkept, htables⟩ := of_reloadTables hv
      rw [← hsame] at hr hdb hgrounded
      have hcached : v.cache.ledger = none ∨ v.cache.ledger = some l := by
        rcases hledger with hnone | hsome
        · exact .inl (hkept.trans hnone)
        · rw [hkept, hsome]
          exact ledger_of_fresh hs hholds.stored
      have hfresh : v.Fresh o.sideTable := fresh_of_holds hdb hcached
      dsimp only
      split
      · exact .pure _ _
      · rename_i hdelta
        refine .bind_of_ok (m := get) (a := v) (t := v) rfl ?_
        split
        · exact .bind_of_ok (note_eq _ v) (.pure _ _)
        · refine (failsOnly_applyDelta hfresh hdb hgrounded hr htables).bind fun d w hw ↦ ?_
          split
          · rename_i hd
            obtain ⟨hwholds, hwledger⟩ :=
              holds_of_applyDelta (Bool.eq_false_iff.2 hdelta) hfresh hdb hgrounded hr
              htables hdry hw
            have hwgrounded := hgrounded.of_schema (schema_of_applyDelta hw)
            refine (failsOnly_reloadTables hwholds.sound fun r' hr' ↦ .inr ?_).bind fun _ _ _ ↦
              .pure _ _
            rw [hwledger (by simpa using hd)]
            exact covers_of_grounded hwholds.sound hwgrounded hr'
          · exact .pure _ _

/-- After a batch that succeeds the side table holds what the delta makes of what it held. -/
theorem holds_of_executeDdl (hempty : lowered.sql = [] → lowered.delta = []) {sql : List String}
    {d : Diff} (hok : executeDdl o statements false s = .ok (sql, d) t) :
    t.database.Holds o.sideTable (l.applyAll lowered.delta) ∧ t.database.schema = db.schema := by
  have hdb := holds_of_updateDdl hlower htouched hholds haccept
  have hlowered {l' : Lowered} (hl' : Statement.lowerAll statements = .ok l') : l' = lowered :=
    Except.ok.inj (hl'.symm.trans hlower)
  have haccepted {r : Schema} {v : Site} (h : Accepted o statements s lowered r v) :
      v.database = db := by
    obtain ⟨notes, u, hupdate, hdatabase⟩ := h.executed
    obtain ⟨notes', hupdate'⟩ := updateDdl_eq (s := noted notes s) haccept
    rw [hupdate'] at hupdate
    obtain ⟨-, rfl⟩ := EStateM.Result.ok.inj hupdate
    exact hdatabase
  have happlied {r : Schema} {v w : Site} {d : Diff} (h : Accepted o statements s lowered r v)
      (hdelta : lowered.delta.isEmpty = false) (hw : applyDelta o lowered.delta false v = .ok d w) :
      w.database.Holds o.sideTable (l.applyAll lowered.delta) ∧ w.database.schema = db.schema := by
    obtain rfl := haccepted h
    exact ⟨(holds_of_applyDelta hdelta (h.fresh hs) hdb hgrounded h.described h.tables hdry hw).1,
      schema_of_applyDelta hw⟩
  -- The facts are stored where the batch has any: its four ends differ in whether there was
  -- something to write.
  cases executed_of_executeDdl hdry hok with
  | idle notes hl hsql =>
    obtain rfl := hlowered hl
    rw [hsql] at haccept
    obtain ⟨-, rfl⟩ := EStateM.Result.ok.inj haccept
    rw [hempty hsql]
    exact ⟨hholds, rfl⟩
  | unstored notes h hunsaid =>
    obtain rfl := hlowered h.lowered
    obtain rfl := haccepted h
    have hdelta : _ = [] := List.isEmpty_iff.1 (hunsaid.resolve_right ?_)
    · rw [hdelta]
      exact ⟨hdb, rfl⟩
    · -- The side table is there, so it is cached.
      obtain ⟨u, hu, -⟩ := hdb.standard
      rw [h.tables, contains_of_described hdb.sound h.described hu]
      decide
  | unchanged h hdelta hw _ =>
    obtain rfl := hlowered h.lowered
    exact happlied h hdelta hw
  | stored h hdelta hw _ hreload =>
    obtain rfl := hlowered h.lowered
    obtain ⟨r, -, hdatabase, -, -⟩ := of_reloadTables hreload
    rw [hdatabase]
    exact happlied h hdelta hw

end

open Identifier in
/-- Where every stored fact is about a column that is there and a batch is executed that the
database accepts, nothing refers to a column that is not there. If the batch succeeds, what is
stored afterwards is what its delta makes of what was stored before, and every fact is about a
column that is there. -/
theorem facts_follow_tables (hdry : o.dryRun = false) {start : Database} (hstart : start.Reachable)
    (hstandard : Standard o.sideTable start) {l : Ledger}
    (hstored : stored o.sideTable start = .ok l) (hgrounded : l.Grounded start) {cache : Cache}
    (hcache : cache.ledger = none ∨ cache.ledger = some l)
    {journal : List Note} (hnew : ∀ c, .createTable c ∈ statements → c.ifNotExists = false)
    (htouched : ∀ x ∈ statements, o.sideTable ∉ x.touched)
    (hnames : ∀ x ∈ statements, ∀ n ∈ x.names, Tame n) {lowered : Lowered}
    (hlower : Statement.lowerAll statements = .ok lowered) {db : Database}
    (haccept : Database.updateDdl lowered.sql start = .ok () db) :
    (∀ e t, executeDdl o statements false ⟨start, cache, journal⟩ = .error e t →
      e.isDangling = false) ∧
    ∀ sql d t, executeDdl o statements false ⟨start, cache, journal⟩ = .ok (sql, d) t →
      stored o.sideTable t.database = .ok (l.applyAll lowered.delta) ∧
      (l.applyAll lowered.delta).Grounded t.database := by
  have hholds : start.Holds o.sideTable l := ⟨hstart.sound, hstandard, hstored⟩
  have hs : Site.Fresh o.sideTable ⟨start, cache, journal⟩ := by
    refine ⟨hstart.sound, fun l' hl' ↦ ?_⟩
    change cache.ledger = some l' at hl'
    rw [hl'] at hcache
    rw [Option.some.inj (hcache.resolve_left (Option.some_ne_none l'))]
    exact hstored
  -- No declaration may be skipped, or the facts of one would be stored without its columns.
  have hmirrors : Mirrors False lowered.ddl lowered.delta := by
    refine Statement.mirrors_of_lowerAll hlower fun c hc hine ↦ ?_
    rw [hnew c hc] at hine
    contradiction
  have hfollow : (l.applyAll lowered.delta).Grounded db :=
    .of_mirrors hmirrors (Statement.tame_of_lowerAll hlower hnames) hstart.sound hgrounded haccept
  refine ⟨failsOnly_executeDdl hdry hlower htouched hs hholds haccept hfollow, fun sql d t hok ↦ ?_⟩
  obtain ⟨ht, hschema⟩ := holds_of_executeDdl hdry hlower htouched hs hholds haccept hfollow
    (fun h ↦ hmirrors.eq_nil (List.map_eq_nil_iff.1 h)) hok
  exact ⟨ht.stored, hfollow.of_schema hschema⟩

/-- A side table with a fact, and the table that it is about. -/
def numberedTables : Database :=
  Database.Call.apply (.upsertRow "facts" columns (cells ⟨"t", "a", .strategy, "increment"⟩))
    (Database.Call.apply (.updateDdl
      ["CREATE TABLE facts (table date, column date, type date, value date) PRIMARY KEY (table, column, type)",
        "CREATE TABLE t (a date) PRIMARY KEY (a)"]) {})

theorem reachable_numberedTables : numberedTables.Reachable := .call _ (.call _ .empty)

/-- The texts of which the tables come, and what is read in them. -/
def numberedTexts : List (String × Table) :=
  [("CREATE TABLE facts (table date, column date, type date, value date) PRIMARY KEY (table, column, type)",
      { name := "facts"
        columns := columns.map fun c ↦
          { name := c, type := .date, isPrimary := keyColumns.contains c }
        primaryKey := keyColumns }),
    ("CREATE TABLE t (a date) PRIMARY KEY (a)",
      { name := "t", columns := [{ name := "a", type := .date, isPrimary := true }],
        primaryKey := ["a"] })]

theorem creates_numberedTexts : ∀ x ∈ numberedTexts, CreatesTable x.1 x.2 := by decide +kernel

/-- The tables without the texts. -/
theorem numberedTables_eq :
    numberedTables =
      Database.Call.apply (.upsertRow "facts" columns (cells ⟨"t", "a", .strategy, "increment"⟩))
      (ending (numberedTexts.forM fun x ↦ Database.attempt x.1 (·.create x.2.name false x.2))
        {}) := by
  rw [← Database.updateDdl_creates creates_numberedTexts]
  rfl

theorem orderly_numberedTables : numberedTables.Orderly :=
  (Database.keeps_orderly_creates creates_numberedTexts {} Database.orderly_empty).call nofun

/-- The table gets another name, and a new one gets its old name. -/
def moved : List Statement := [.renameTable [⟨"t", "u"⟩], .createTable (oneColumn numbered)]

/-- The steps that go with the statements that this becomes. -/
def movedDelta : Delta := [.renameTable "t" "u", .upsert ⟨"t", "a", .strategy, "increment"⟩]

theorem plain_moved : Statement.Plain moved := by decide +kernel

/-- The tables and what the batch makes of them. -/
theorem numberedTables_moved :
    numberedTables.tables["facts"]?.map (fun u ↦ (u.schema.columnNames, u.schema.primaryKey))
        = some (columns, keyColumns) ∧
      (stored "facts" numberedTables).toOption.map (fun l ↦
          (l.entries.all (·.existsIn numberedTables.schema), l.entries,
            (l.applyAll movedDelta).entries))
        = some (true, [⟨"t", "a", .strategy, "increment"⟩],
          [⟨"t", "a", .strategy, "increment"⟩, ⟨"u", "a", .strategy, "increment"⟩]) ∧
      (Statement.lowerAll moved).toOption.bind (fun l ↦
          seen (fun _ _ ↦ l.delta) (l.ddl.forM Database.carryOut) numberedTables) =
            some movedDelta ∧
      seen (fun x _ ↦ x.2.size) (executeDdl factOptions moved false)
        { database := numberedTables } = some 1 := by
  have hmoved := agree_executeDdl (o := factOptions) plain_moved false
  rw [seen_congr (run_eq_of_agree hmoved orderly_numberedTables), numberedTables_eq]
  decide +kernel

theorem standard_numberedTables : Standard "facts" numberedTables := by
  obtain ⟨hside, -⟩ := numberedTables_moved
  obtain ⟨u, hu, hside⟩ := Option.map_eq_some_iff.1 hside
  obtain ⟨hcolumns, hkey⟩ := Prod.mk.inj hside
  exact ⟨u, hu, fun c hc ↦ hcolumns ▸ hc, hkey⟩

theorem moved_facts_follow :
    ∃ l l' sql d t, stored "facts" numberedTables = .ok l ∧
      l.entries = [⟨"t", "a", .strategy, "increment"⟩] ∧
      executeDdl factOptions moved false { database := numberedTables } = .ok (sql, d) t ∧
      d.size = 1 ∧
      stored "facts" t.database = .ok l' ∧ l'.Grounded t.database ∧
      l'.entries = [⟨"t", "a", .strategy, "increment"⟩, ⟨"u", "a", .strategy, "increment"⟩] := by
  obtain ⟨-, hfacts, haccepted, hseen⟩ := numberedTables_moved
  obtain ⟨⟨sql, d⟩, t, ht, hsize⟩ := exists_of_seen hseen
  obtain ⟨l, hl, hfacts⟩ := Option.map_eq_some_iff.1 hfacts
  obtain ⟨hexists, hentries⟩ := Prod.mk.inj hfacts
  obtain ⟨hentries, happlied⟩ := Prod.mk.inj hentries
  obtain ⟨lowered, hlower, haccepted⟩ := Option.bind_eq_some_iff.1 haccepted
  have hlower := eq_ok_of_toOption hlower
  rw [← (plain_moved.agree_updateDdl hlower).seen_eq orderly_numberedTables] at haccepted
  obtain ⟨_, db, haccept, hdelta⟩ := exists_of_seen haccepted
  have hstored : stored "facts" numberedTables = .ok l := eq_ok_of_toOption hl
  have hnames : ∀ x ∈ moved, ∀ n ∈ x.names, Identifier.Tame n := by decide
  have hnew : ∀ c, .createTable c ∈ moved → c.ifNotExists = false := by
    intro c hc
    obtain rfl : c = oneColumn numbered := by simpa [moved] using hc
    rfl
  have hgrounded : l.Grounded numberedTables := List.all_eq_true.1 hexists
  have htouched : ∀ x ∈ moved, "facts" ∉ x.touched := by decide
  have hcache : ({} : Cache).ledger = none ∨ ({} : Cache).ledger = some l := .inl rfl
  obtain ⟨ht', hgrounded⟩ :=
    (facts_follow_tables (o := factOptions) rfl reachable_numberedTables standard_numberedTables
    hstored hgrounded hcache hnew htouched hnames hlower haccept).2 sql d t ht
  rw [hdelta] at ht' hgrounded
  exact ⟨l, l.applyAll movedDelta, sql, d, t, hstored, hentries, ht, hsize, ht', hgrounded,
    happlied⟩

end Pass

end SchemaLedger
