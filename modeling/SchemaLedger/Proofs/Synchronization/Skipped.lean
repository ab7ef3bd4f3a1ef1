import Mathlib
import SchemaLedger.Proofs.Database.Creation
import SchemaLedger.Proofs.Synchronization.Following

/-!
# Declarations that are skipped

The database skips the declaration of a table that is there, where the statement permits that. What
else the declaration says is not skipped: the statements for its indices are executed, and its facts
are stored as those of a new table would be. So the tables stay what they were, indices apart, but
the facts do not.

A column that is declared need not be there then. Facts about it are dropped, or the batch fails
over them.
-/

namespace SchemaLedger

open SideTable

/-! ## Databases to which facts have been added -/

/-- Some of the facts have been stored, and nothing else differs. -/
structure Database.Grown (sideTable : String) (db start : Database) (l : Ledger)
    (facts : List Fact) : Prop where
  schema : db.schema = start.schema
  others : ∀ n : String, n ≠ sideTable → db.tables[n]? = start.tables[n]?
  holds : ∃ fs ⊆ facts, db.Holds sideTable (l.insertAll fs)

namespace Database.Grown

variable {sideTable : String} {start db : Database} {l : Ledger} {facts : List Fact}

theorem of_holds (h : db.Holds sideTable l) (facts : List Fact) : db.Grown sideTable db l facts :=
  ⟨rfl, fun _ _ ↦ rfl, [], List.nil_subset _, h⟩

theorem of_tables (h : db.Grown sideTable start l facts) {start' : Database}
    (htables : start.tables = start'.tables) : db.Grown sideTable start' l facts := by
  refine ⟨h.schema.trans ?_, fun n hn ↦ htables ▸ h.others n hn, h.holds⟩
  rw [Database.schema, htables, Database.schema]

theorem keeps_upsertRow {f : Fact} (hf : f ∈ facts) :
    Keeps (fun db ↦ db.Grown sideTable start l facts)
      (Database.upsertRow sideTable columns (cells f)) := by
  rintro db ⟨hschema, hothers, fs, hfs, hholds⟩
  rcases Database.upsertRow_cases sideTable columns (cells f) db with ⟨e, he⟩ | ⟨t, key, -, -, hok⟩
  · rw [ending_of_error he]
    exact ⟨hschema, hothers, fs, hfs, hholds⟩
  · obtain ⟨hholds, hschema'⟩ := hholds.upsertRow hok
    rw [ending_of_ok hok]
    refine ⟨hschema'.trans hschema, fun n hn ↦ ?_, fs ++ [f], ?_, ?_⟩
    · rw [Database.getElem?_modifyRows, if_neg hn.symm]
      exact hothers n hn
    · exact List.append_subset.2 ⟨hfs, List.cons_subset.2 ⟨hf, List.nil_subset _⟩⟩
    · rw [Ledger.insertAll_append]
      exact hholds

end Database.Grown

/-- Indices do not matter for which columns are there. -/
theorem Fact.existsIn_of_reindexed {db db' : Database} (h : db'.Reindexed db) (f : Fact) :
    f.existsIn db'.schema = f.existsIn db.schema := by
  rw [Bool.eq_iff_iff, existsIn_schema, existsIn_schema]
  constructor
  · rintro ⟨u, hu, hcolumn⟩
    obtain ⟨t, ht, hut⟩ := h.exists_old hu
    exact ⟨t, ht, hut.columns ▸ hcolumn⟩
  · rintro ⟨t, ht, hcolumn⟩
    obtain ⟨u, hu, hut⟩ := h.exists_new ht
    exact ⟨u, hu, hut.columns ▸ hcolumn⟩

/-- What is cached is up to date, and all that is stored is about columns that are there. -/
structure Site.Current (sideTable : String) (l : Ledger) (s : Site) : Prop where
  fresh : s.Fresh sideTable
  holds : s.database.Holds sideTable l
  grounded : l.Grounded s.database
  existsIn : ∀ f : Fact, f.existsIn s.cache.tables = f.existsIn s.database.schema
  contains : s.cache.tables.contains sideTable = true

namespace Pass

variable {o : PassOptions} {ignoreMissing : Bool} {s t v : Site} {l : Ledger} {facts : List Fact}

/-! ## Facts are added -/

section

variable (h : s.Current o.sideTable l) (hsome : (facts.map Change.upsert).isEmpty = false)

include h

theorem existsIn_of_current : ∀ f ∈ l.entries, f.existsIn s.cache.tables = true :=
  fun f hf ↦ (h.existsIn f).trans (h.grounded f hf)

include hsome

/-- Whatever comes of it, facts are added at most. -/
theorem grown_applyDelta (ignoreMissing : Bool) :
    (ending (applyDelta o (facts.map .upsert) ignoreMissing) s).database.Grown o.sideTable
      s.database l
      (facts.filter (·.existsIn s.database.schema)) := by
  have hgrown := Database.Grown.of_holds h.holds (facts.filter (·.existsIn s.database.schema))
  obtain ⟨notes, heq⟩ := applyDelta_eq hsome h.fresh h.holds.stored ignoreMissing
  rw [ending_congr heq]
  cases hd : Diff.ofDelta (facts.map .upsert) l s.cache.tables ignoreMissing with
  | error e => exact hgrown
  | ok d =>
    rw [ofExcept_ok, pure_bind]
    obtain ⟨-, hd⟩ := (Diff.ofDelta_upserts_eq_ok (existsIn_of_current h)).1 hd
    rw [List.filter_congr fun f _ ↦ h.existsIn f] at hd
    have hwrite := keeps_write (o := o) (d := d)
      (q := fun db ↦
        db.Grown o.sideTable s.database l (facts.filter (·.existsIn s.database.schema)))
      (fun f hf ↦ Database.Grown.keeps_upsertRow (Diff.additions_insertAll_subset (hd ▸ hf)))
      (fun f hf ↦ absurd (hd ▸ hf) List.not_mem_nil)
    exact hwrite.bind (fun _ ↦ .pure _) (noted notes { s with cache := ⟨s.cache.tables, some l⟩ })
      hgrown

/-- If it succeeds, all facts about columns that are there are stored. -/
theorem holds_of_upserts (hdry : o.dryRun = false) {d : Diff}
    (hok : applyDelta o (facts.map .upsert) ignoreMissing s = .ok d t) :
    (ignoreMissing = true ∨ ∀ f ∈ facts, f.existsIn s.database.schema = true) ∧
      t.database.Holds o.sideTable (l.insertAll (facts.filter (·.existsIn s.database.schema))) ∧
      t.cache.ledger = some (l.insertAll (facts.filter (·.existsIn s.database.schema))) := by
  obtain ⟨l', m, hstored, hdiff, hm, hdatabase, hcache, hwrite⟩ :=
    exists_of_applyDelta hsome h.fresh hok
  obtain rfl : l' = l := Except.ok.inj (hstored.symm.trans h.holds.stored)
  have hledger : m.cache.ledger = some l' := by rw [hcache]
  obtain ⟨ht, htledger, -, -⟩ := holds_of_write hdry (hdatabase ▸ h.holds) hledger hwrite
  rw [Diff.writeAll_ofDelta_upserts (existsIn_of_current h) hdiff,
    List.filter_congr fun f _ ↦ h.existsIn f]
    at ht htledger
  obtain ⟨hall, -⟩ := (Diff.ofDelta_upserts_eq_ok (existsIn_of_current h)).1 hdiff
  exact ⟨hall.imp_right fun hall f hf ↦ (h.existsIn f).symm.trans (hall f hf), ht, htledger⟩

/-- If it fails over a column that is not there, nothing has been stored. -/
theorem missing_of_applyDelta {e : PassError} (he : e.isDangling = true)
    (herror : applyDelta o (facts.map .upsert) ignoreMissing s = .error e t) :
    t.database = s.database ∧ ignoreMissing = false ∧
      ∃ f ∈ facts, f.existsIn s.database.schema = false := by
  obtain ⟨notes, heq⟩ := applyDelta_eq hsome h.fresh h.holds.stored ignoreMissing
  rw [heq] at herror
  cases hd : Diff.ofDelta (facts.map .upsert) l s.cache.tables ignoreMissing with
  | ok d =>
    rw [hd, ofExcept_ok, pure_bind] at herror
    have hwrite : FailsOnly PassError.Undangling (write o d)
        (noted notes { s with cache := ⟨s.cache.tables, some l⟩ }) := failsOnly_write d _
    exact absurd he (Bool.eq_false_iff.1 (hwrite.bind (fun _ _ _ ↦ .pure _ _) e t herror))
  | error e' =>
    have hmissing : ¬(ignoreMissing = true ∨ ∀ f ∈ facts, f.existsIn s.cache.tables = true) :=
      fun hall ↦ by
      rw [(Diff.ofDelta_upserts_eq_ok (existsIn_of_current h)).2 ⟨hall, rfl⟩] at hd
      contradiction
    rw [hd] at herror
    obtain ⟨-, rfl⟩ := EStateM.Result.error.inj herror
    simp only [not_or, Bool.not_eq_true, not_forall, h.existsIn] at hmissing
    obtain ⟨hflag, f, hf, hmissing⟩ := hmissing
    exact ⟨rfl, hflag, f, hf, hmissing⟩

end

/-! ## Batches that add facts -/

theorem steady_grown (sideTable : String) (start : Database) (l : Ledger) (facts : List Fact) :
    Steady fun v ↦ v.database.Grown sideTable start l facts := fun _ _ _ h ↦ h

section

variable (hs : s.Fresh o.sideTable) (hholds : s.database.Holds o.sideTable l)
    (hgrounded : l.Grounded s.database)

include hs hholds hgrounded

theorem current_of_reloadTables {n : Nat} (hok : reloadTables ignoreMissing s = .ok n v) :
    v.Current o.sideTable l := by
  obtain ⟨r, hr, hdatabase, hledger, htables⟩ := of_reloadTables hok
  constructor
  case fresh => exact ⟨hdatabase ▸ hs.sound, fun l' hl' ↦ hdatabase ▸ hs.ledger l' (hledger ▸ hl')⟩
  case holds => exact hdatabase ▸ hholds
  case grounded => exact hdatabase ▸ hgrounded
  case existsIn =>
    intro f
    rw [htables, Fact.existsIn_map_withFacts, Fact.existsIn_of_described hs.sound hr, hdatabase]
  case contains =>
    obtain ⟨u, hu, -⟩ := hholds.standard
    rw [htables]
    exact contains_of_described hs.sound hr hu v.cache.ledger

variable {lowered : Lowered} (hdelta : lowered.delta = facts.map .upsert)

include hdelta

theorem grown_concludeDdl (applied : Except PassError Unit) :
    (ending (concludeDdl o lowered ignoreMissing applied) s).database.Grown o.sideTable s.database l
      (facts.filter (·.existsIn s.database.schema)) := by
  -- Neither a reload nor a fact that is written changes what the database has grown by, so it is
  -- kept to the end.
  have hsteady :=
    steady_grown o.sideTable s.database l (facts.filter (·.existsIn s.database.schema))
  have hgrown := Database.Grown.of_holds hholds (facts.filter (·.existsIn s.database.schema))
  unfold concludeDdl
  cases hreload : reloadTables true s with
  | error e v =>
    rw [ending_bind_of_error hreload, ← ending_of_error hreload]
    exact hsteady.reloadTables true s hgrown
  | ok n v =>
    have hv := hsteady.reloadTables true s hgrown
    rw [ending_of_ok hreload] at hv
    have hcurrent := current_of_reloadTables hs hholds hgrounded hreload
    obtain ⟨-, -, hdatabase, -, -⟩ := of_reloadTables hreload
    rw [ending_bind_of_ok hreload]
    cases applied with
    | error e => exact hv
    | ok _ =>
      dsimp only
      split
      · exact hv
      · rename_i hsome
        rw [hdelta] at hsome
        rw [ending_bind_of_ok (m := get) rfl, hcurrent.contains, hdelta]
        have happlied := grown_applyDelta hcurrent (Bool.eq_false_iff.2 hsome) ignoreMissing
        rw [hdatabase] at happlied
        have hrest := hsteady.reloadTables ignoreMissing
        exact Keeps.ending_bind happlied fun d ↦ .ite (fun _ ↦ hrest.bind fun _ ↦ .pure _) fun _ ↦
          .pure _

theorem holds_of_concludeDdl (hdry : o.dryRun = false) {applied : Except PassError Unit}
    {sql : List String}
    {d : Diff} (hok : concludeDdl o lowered ignoreMissing applied s = .ok (sql, d) t) :
    (ignoreMissing = true ∨ ∀ f ∈ facts, f.existsIn s.database.schema = true) ∧
      t.database.Holds o.sideTable (l.insertAll (facts.filter (·.existsIn s.database.schema))) := by
  obtain ⟨n, v, hreload, hok⟩ := exists_of_run_bind_ok hok
  have hcurrent := current_of_reloadTables hs hholds hgrounded hreload
  obtain ⟨-, -, hdatabase, -, -⟩ := of_reloadTables hreload
  cases applied with
  | error e => contradiction
  | ok _ =>
    dsimp only at hok
    split at hok
    · rename_i hnone
      obtain ⟨-, rfl⟩ := EStateM.Result.ok.inj hok
      rw [hdelta, List.isEmpty_iff, List.map_eq_nil_iff] at hnone
      rw [hnone]
      exact ⟨.inr fun f hf ↦ absurd hf List.not_mem_nil, hcurrent.holds⟩
    · rename_i hsome
      rw [hdelta] at hsome
      rw [run_bind_of_ok (m := get) rfl, hcurrent.contains, hdelta] at hok
      obtain ⟨d', w, hw, hok⟩ := exists_of_run_bind_ok hok
      -- The facts have been stored before the tables are read back again, which does not change the
      -- database.
      obtain ⟨hall, hwholds, -⟩ := holds_of_upserts hcurrent (Bool.eq_false_iff.2 hsome) hdry hw
      rw [hdatabase] at hall hwholds
      refine ⟨hall, ?_⟩
      split at hok
      · obtain ⟨n', x, hreload', hok⟩ := exists_of_run_bind_ok hok
        obtain ⟨-, rfl⟩ := EStateM.Result.ok.inj hok
        obtain ⟨-, -, hsame, -⟩ := of_reloadTables hreload'
        rw [hsame]
        exact hwholds
      · obtain ⟨-, rfl⟩ := EStateM.Result.ok.inj hok
        exact hwholds

/-- What refers to something that is not there is a statement or a declared fact. -/
theorem dangling_of_concludeDdl (hdry : o.dryRun = false) {applied : Except PassError Unit}
    {e : PassError} (he : e.isDangling = true)
    (herror : concludeDdl o lowered ignoreMissing applied s = .error e t) :
    t.database = s.database ∧ (applied = .error e ∨
      ignoreMissing = false ∧ ∃ f ∈ facts, f.existsIn s.database.schema = false) := by
  have hnot {m : Pass Nat} {u : Site} (h : FailsOnly PassError.Undangling m u)
      (hm : m u = .error e t) : False :=
    Bool.eq_false_iff.1 (h e t hm) he
  rcases exists_of_run_bind_error herror with hreload | ⟨n, v, hreload, herror⟩
  · exact (hnot (failsOnly_reloadTables hs.sound fun _ _ ↦ .inl rfl) hreload).elim
  · have hcurrent := current_of_reloadTables hs hholds hgrounded hreload
    obtain ⟨-, -, hdatabase, -, -⟩ := of_reloadTables hreload
    cases applied with
    | error e' =>
      obtain ⟨rfl, rfl⟩ := EStateM.Result.error.inj herror
      exact ⟨hdatabase, .inl rfl⟩
    | ok _ =>
      dsimp only at herror
      split at herror
      · contradiction
      · rename_i hsome
        rw [hdelta] at hsome
        rw [run_bind_of_ok (m := get) rfl, hcurrent.contains, hdelta] at herror
        rcases exists_of_run_bind_error herror with hw | ⟨d, w, hw, herror⟩
        · obtain ⟨hsame, hmissing⟩ :=
            missing_of_applyDelta hcurrent (Bool.eq_false_iff.2 hsome) he hw
          rw [hdatabase] at hsame hmissing
          exact ⟨hsame, .inr hmissing⟩
        · -- What has been stored by now is about columns that are there, so it is not that.
          obtain ⟨-, hwholds, hwledger⟩ :=
            holds_of_upserts hcurrent (Bool.eq_false_iff.2 hsome) hdry hw
          have hcolumns : ∀ f ∈ facts.filter (·.existsIn v.database.schema),
              v.database.HasColumn f.table f.column :=
                fun f hf ↦ Fact.existsIn_schema.1 (List.mem_filter.1 hf).2
          have hwgrounded :=
            (hcurrent.grounded.insertAll hcolumns).of_schema (schema_of_applyDelta hw)
          split at herror
          · rcases exists_of_run_bind_error herror with hreload' | ⟨_, _, _, herror⟩
            · refine (hnot (failsOnly_reloadTables hwholds.sound fun r hr ↦ .inr ?_) hreload').elim
              rw [hwledger]
              exact covers_of_grounded hwholds.sound hwgrounded hr
            · contradiction
          · contradiction

end

end Pass

/-! ## Declarations of tables that are there -/

namespace CreateTable

/-- The database after the creations of the declared indices, up to the first that is refused. -/
def indexed (c : CreateTable) (db : Database) : Database :=
  ending (Database.updateDdl (c.declaredIndices.map Index.sql)) db

/-- The declared facts that are about columns of the database. -/
def factsIn (c : CreateTable) (db : Database) : List Fact :=
  c.declaredFacts.filter (·.existsIn db.schema)

variable {c : CreateTable} {db : Database} (hdb : db.Sound)

include hdb

theorem existsIn_indexed (f : Fact) : f.existsIn (c.indexed db).schema = f.existsIn db.schema :=
  f.existsIn_of_reindexed
    (Database.keeps_reindexed_updateDdl db c.declaredIndices db ⟨hdb, .refl db⟩).2

/-- Of the statements of a declaration those for the indices are left where the table is there. -/
theorem sameOutcome_of_skipped (hskip : c.ifNotExists = true) {t : StoredTable}
    (ht : db.tables[c.table]? = some t) {lowered : Lowered} (hlower : c.lower = .ok lowered) :
    Database.SameOutcome (Database.updateDdl lowered.sql db)
      (Database.updateDdl (c.declaredIndices.map Index.sql) db) := by
  obtain ⟨_, columns, key, hmeant⟩ := exists_of_lower hlower
  have hfirst := Database.execute_of_run
    (hdb.run_createTable ht (columns.map (·.clause)) key (TableOption.interleaves c.options))
  rw [hmeant.sql_eq, hskip]
  change Database.SameOutcome
    ((do Database.execute _; Database.updateDdl (c.declaredIndices.map Index.sql)) db) _
  rw [run_bind_of_ok hfirst]
  refine Database.updateDdl_indices_congr ?_ _
  rfl

end CreateTable

namespace Pass

variable {o : PassOptions} {l : Ledger}

/-- A declaration of a table that is there changes no table, the indices apart that it declares, and
takes back no fact. All that it declares of columns that are there is stored if the batch succeeds.
It refers to something that is not there only by an index, or by a fact about a column that the
table lacks. -/
theorem facts_of_skipped {start : Database} (hstart : start.Reachable)
    (hstandard : Standard o.sideTable start)
    (hstored : stored o.sideTable start = .ok l) (hgrounded : l.Grounded start) {cache : Cache}
    (hcache : cache.ledger = none ∨ cache.ledger = some l) {journal : List Note} {c : CreateTable}
    (hskip : c.ifNotExists = true) {t₀ : StoredTable} (ht₀ : start.tables[c.table]? = some t₀)
    (ignoreMissing : Bool) :
    (∀ e, c.lower = .error e → ∃ t,
      executeDdl o [.createTable c] ignoreMissing ⟨start, cache, journal⟩ = .error (.schema e) t ∧
        t.database = start) ∧
    ∀ lowered, c.lower = .ok lowered →
      (o.dryRun = true → ∃ x t,
        executeDdl o [.createTable c] ignoreMissing ⟨start, cache, journal⟩ = .ok x t ∧
        t.database = start) ∧
      (o.dryRun = false →
        (ending (executeDdl o [.createTable c] ignoreMissing)
          ⟨start, cache, journal⟩).database.Grown
            o.sideTable (c.indexed start) l (c.factsIn start) ∧
        (∀ sql d t, executeDdl o [.createTable c] ignoreMissing ⟨start, cache, journal⟩ =
          .ok (sql, d) t →
          (ignoreMissing = true ∨ ∀ f ∈ c.declaredFacts, f.existsIn start.schema = true) ∧
          stored o.sideTable t.database = .ok (l.insertAll (c.factsIn start))) ∧
        ∀ e t, executeDdl o [.createTable c] ignoreMissing ⟨start, cache, journal⟩ = .error e t →
          e.isDangling = true →
          stored o.sideTable t.database = .ok l ∧
          ((∃ db, Database.updateDdl (c.declaredIndices.map Index.sql) start = .error e db) ∨
            ignoreMissing = false ∧ ∃ f ∈ c.declaredFacts, f.existsIn start.schema = false)) := by
  have hlowerAll := Statement.lowerAll_singleton (.createTable c)
  refine ⟨fun e he ↦ ⟨_, executeDdl_of_error (hlowerAll.trans he) ignoreMissing _, rfl⟩,
    fun lowered hlower ↦ ?_⟩
  obtain ⟨_, columns, key, hmeant⟩ := CreateTable.exists_of_lower hlower
  have hsql : lowered.sql ≠ [] := by
    rw [hmeant.sql_eq]
    exact List.cons_ne_nil _ _
  have hall : Statement.lowerAll [.createTable c] = .ok lowered := hlowerAll.trans hlower
  refine ⟨fun hdry ↦ ⟨_, _, executeDdl_of_dryRun hall hdry hsql ignoreMissing _, rfl⟩,
    fun hdry ↦ ?_⟩
  obtain ⟨applied, u, heq, hdatabase, hledger, happlied⟩ :=
    exists_executeDdl_eq hall hdry hsql ignoreMissing ⟨start, cache, journal⟩
  -- The statement of the table does nothing, so the batch does what its indices alone would do.
  have hsame := CreateTable.sameOutcome_of_skipped hstart.sound hskip ht₀ hlower
  have hholds : u.database.Holds o.sideTable l := hdatabase ▸
    Database.keeps_holds_updateDdl (not_removes_of_createTable hlower) start
      ⟨hstart.sound, hstandard, hstored⟩
  have hfresh : u.Fresh o.sideTable := fresh_of_holds hholds <| by
    rcases hledger with hnone | hsome
    · exact .inl hnone
    · rwa [hsome]
  have htables : u.database.tables = (c.indexed start).tables := by
    rw [hdatabase]
    exact hsame.tables_ending
  have hexists (f : Fact) : f.existsIn u.database.schema = f.existsIn start.schema := by
    rw [Database.schema, htables]
    exact CreateTable.existsIn_indexed hstart.sound f
  have hcurrent : l.Grounded u.database := fun f hf ↦ (hexists f).trans (hgrounded f hf)
  have hfacts : c.declaredFacts.filter (·.existsIn u.database.schema) = c.factsIn start :=
    List.filter_congr fun f _ ↦ hexists f
  refine ⟨?_, fun sql d t hok ↦ ?_, fun e t herror he ↦ ?_⟩
  · rw [ending_congr heq, ← hfacts]
    exact (grown_concludeDdl hfresh hholds hcurrent hmeant.delta_eq applied).of_tables htables
  · rw [heq] at hok
    obtain ⟨hexisting, ht⟩ := holds_of_concludeDdl hfresh hholds hcurrent hmeant.delta_eq hdry hok
    rw [hfacts] at ht
    simp only [hexists] at hexisting
    exact ⟨hexisting, ht.stored⟩
  · rw [heq] at herror
    obtain ⟨ht, hcause⟩ :=
      dangling_of_concludeDdl hfresh hholds hcurrent hmeant.delta_eq hdry he herror
    simp only [hexists] at hcause
    refine ⟨ht ▸ hholds.stored, hcause.imp_left fun hrefused ↦ ?_⟩
    obtain ⟨db, hdb⟩ := happlied e hrefused
    exact hsame.exists_error hdb

/-- A declaration of the table where it is missing. -/
def redeclaration (columns : List ColumnDef) : CreateTable where
  table := "t"
  ifNotExists := true
  definitions := columns.map .column

/-- The column with values of another kind, each of which is there once. -/
def identified : ColumnDef := { silent with generation := some .uuid, unique := true }

/-- A column that the table lacks. -/
def added : ColumnDef := { numbered with name := "b" }

theorem exists_numberedTables :
    Standard "facts" numberedTables ∧ (∃ t, numberedTables.tables["t"]? = some t) ∧
      ∃ l, stored "facts" numberedTables = .ok l ∧ l.Grounded numberedTables ∧
        l.entries = [⟨"t", "a", .strategy, "increment"⟩] := by
  obtain ⟨hside, hfacts, -⟩ := numberedTables_moved
  obtain ⟨u, hu, hside⟩ := Option.map_eq_some_iff.1 hside
  obtain ⟨hcolumns, hkey⟩ := Prod.mk.inj hside
  obtain ⟨l, hl, hfacts⟩ := Option.map_eq_some_iff.1 hfacts
  obtain ⟨hexists, hentries⟩ := Prod.mk.inj hfacts
  obtain ⟨hentries, -⟩ := Prod.mk.inj hentries
  have hgrounded : l.Grounded numberedTables := List.all_eq_true.1 hexists
  have hfact : (⟨"t", "a", .strategy, "increment"⟩ : Fact) ∈ l.entries := by
    rw [hentries]
    exact List.mem_singleton_self _
  obtain ⟨t, ht, -⟩ := Fact.existsIn_schema.1 (hgrounded _ hfact)
  exact ⟨⟨u, hu, fun c hc ↦ hcolumns ▸ hc, hkey⟩, ⟨t, ht⟩, l, eq_ok_of_toOption hl, hgrounded,
    hentries⟩

/-- What the declarations become, and what they make of the tables. -/
theorem seen_redeclaration :
    (redeclaration [identified, added]).lower.toOption.map (·.sql.length) = some 2 ∧
      (numberedTables.table? "t").map (fun u ↦ u.indices.map (·.name)) = some [] ∧
      seen (fun _ t ↦ ((stored "facts" t.database).toOption.map (·.entries),
          (t.database.table? "t").map fun u ↦ u.indices.map (·.name)))
        (executeDdl factOptions [.createTable (redeclaration [identified, added])] true)
        { database := numberedTables }
        = some (some [⟨"t", "a", .strategy, "uuid"⟩], some ["uq_t_a"]) ∧
      (match executeDdl factOptions [.createTable (redeclaration [added])] false
          { database := numberedTables } with
        | .ok _ _ => false
        | .error e _ => e.isDangling) = true := by
  have hboth : Statement.Plain [.createTable (redeclaration [identified, added])] := by
    decide +kernel
  have hone : Statement.Plain [.createTable (redeclaration [added])] := by decide +kernel
  rw [seen_congr (run_eq_of_agree (agree_executeDdl hboth true) orderly_numberedTables),
    run_eq_of_agree (agree_executeDdl hone false) orderly_numberedTables, numberedTables_eq]
  decide +kernel

/-- The table has another index and the column another strategy afterwards. -/
theorem redeclaration_skipped :
    ∃ l sql d t, stored "facts" numberedTables = .ok l ∧
      l.entries = [⟨"t", "a", .strategy, "increment"⟩] ∧
      executeDdl factOptions [.createTable (redeclaration [identified, added])] true
        { database := numberedTables } = .ok (sql, d) t ∧
      t.database.schema = ((redeclaration [identified, added]).indexed numberedTables).schema ∧
      stored "facts" t.database
        = .ok (l.insertAll ((redeclaration [identified, added]).factsIn numberedTables)) ∧
      (stored "facts" t.database).toOption.map (·.entries) =
        some [⟨"t", "a", .strategy, "uuid"⟩] := by
  obtain ⟨hstandard, ⟨t₀, ht₀⟩, l, hstored, hgrounded, hentries⟩ := exists_numberedTables
  obtain ⟨hlength, -, hexecuted, -⟩ := seen_redeclaration
  obtain ⟨⟨sql, d⟩, t, ht, hseen⟩ := exists_of_seen hexecuted
  obtain ⟨lowered, hlower, -⟩ := Option.map_eq_some_iff.1 hlength
  have hcache : ({} : Cache).ledger = none ∨ ({} : Cache).ledger = some l := .inl rfl
  obtain ⟨hgrown, hsucceeds, -⟩ :=
    ((facts_of_skipped (o := factOptions) reachable_numberedTables hstandard hstored
    hgrounded hcache (c := redeclaration [identified, added]) rfl ht₀ true).2 lowered
      (eq_ok_of_toOption hlower)).2 rfl
  rw [ending_of_ok ht] at hgrown
  exact ⟨l, sql, d, t, hstored, hentries, ht, hgrown.schema, (hsucceeds sql d t ht).2,
    (Prod.mk.inj hseen).1⟩

/-- A declaration that is skipped changes the facts of the table and its indices, and where it
declares a column that the table lacks it may fail over that. -/
theorem skipped_not_idle :
    numberedTables.Reachable ∧ Standard "facts" numberedTables ∧
    (∃ t, numberedTables.tables["t"]? = some t) ∧
      (∃ l, stored "facts" numberedTables = .ok l ∧ l.Grounded numberedTables) ∧
      (∃ sql d t, executeDdl factOptions [.createTable (redeclaration [identified, added])] true
          { database := numberedTables } = .ok (sql, d) t ∧
        stored "facts" t.database ≠ stored "facts" numberedTables ∧
        t.database.schema ≠ numberedTables.schema) ∧
      ∃ e t, executeDdl factOptions [.createTable (redeclaration [added])] false
        { database := numberedTables }
          = .error e t ∧ e.isDangling = true := by
  obtain ⟨hstandard, ht₀, l, hstored, hgrounded, hentries⟩ := exists_numberedTables
  obtain ⟨-, hbefore, hexecuted, hdangling⟩ := seen_redeclaration
  obtain ⟨⟨sql, d⟩, t, ht, hseen⟩ := exists_of_seen hexecuted
  obtain ⟨hfacts, hindices⟩ := Prod.mk.inj hseen
  refine ⟨reachable_numberedTables, hstandard, ht₀, ⟨l, hstored, hgrounded⟩,
    ⟨sql, d, t, ht, fun hsame ↦ ?_, fun hsame ↦ ?_⟩, ?_⟩
  · rw [hsame, hstored, Except.toOption, Option.map_some, hentries] at hfacts
    exact absurd hfacts (by decide)
  · have htable : t.database.table? "t" = numberedTables.table? "t" := by
      rw [Database.table?, ← Database.getElem?_schema, hsame, Database.getElem?_schema,
        Database.table?]
    rw [htable, hbefore] at hindices
    exact absurd hindices (by decide)
  · split at hdangling
    · exact absurd hdangling Bool.false_ne_true
    · rename_i e t' he
      exact ⟨e, t', he, hdangling⟩

end Pass

end SchemaLedger
