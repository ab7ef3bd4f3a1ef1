import Mathlib
import SchemaLedger.Proofs.Database.Creation
import SchemaLedger.Proofs.Lowering.Names
import SchemaLedger.Proofs.Reconciliation.Delta
import SchemaLedger.Proofs.Synchronization.Backed

/-!
# Facts of new tables

A table that is created gets the generations and defaults that its statement declares. Its creation
does not clear facts about a table of its name that are stored already. But the table was not there
before, so no such facts are stored where they are recorded only about tables that are there, as
they are after calls whose batches have succeeded, or have spared the table and the side table when
they failed.
-/

namespace SchemaLedger

open SideTable

/-! ## Declared columns -/

/-- A column without facts has neither a generation nor a default. -/
theorem LoweredColumn.eq_none_of_facts {x : LoweredColumn} {table : String} (h : x.facts table = [])
    (p : Property) : p.valueFor x.source.resolveGeneration x.defaultValue = none := by
  refine Option.eq_none_iff_forall_ne_some.2 fun v hv ↦ ?_
  have hmem : (⟨table, x.source.name, p, v⟩ : Fact) ∈ x.facts table :=
    Fact.mem_ofColumn.2 ⟨rfl, rfl, hv⟩
  rw [h] at hmem
  contradiction

namespace CreateTable

/-- The names of the table, its columns and its parents. -/
def ownNames (c : CreateTable) : List String :=
  c.table :: (c.columnDefs.map (·.name) ++ (TableOption.interleaves c.options).map (·.parent))

/-- What the statement declares of where the values of its columns come from. -/
def sources (c : CreateTable) : List (String × Option Generation × Option ColumnDefault) :=
  c.columnDefs.map fun d ↦ (d.name, d.resolveGeneration,
    d.resolveDefault.map fun v ↦ ColumnDefault.ofExpression v.factValue)

end CreateTable

/-! ## Decorated columns -/

/-- What is given of a column by a ledger, if there is one. -/
def Ledger.given (ledger : Option Ledger) (k : FactKey) : Option String := ledger.bind (·.get? k)

/-- What a ledger makes of where the values of a column come from. The other members of the column
do not matter to it. -/
def Ledger.decorateSources (l : Ledger) (table : String)
    (x : String × Option Generation × Option ColumnDefault) :
    String × Option Generation × Option ColumnDefault :=
  let c := l.decorateColumn table
    { name := x.1, type := .string, generation := x.2.1, defaultValue := x.2.2 }
  (c.name, c.generation, c.defaultValue)

theorem Ledger.decorateSources_eq {l : Ledger} {table name : String} {g g' : Option Generation}
    {d d' : Option ColumnDefault} (h : ∀ p, l.get? ⟨table, name, p⟩ = p.valueFor g d) :
    l.decorateSources table (name, g', d')
      = (name, g.or g', (d.map fun v ↦ ColumnDefault.ofExpression v.factValue).or d') := by
  have hcolumn :=
    decorateColumn_eq (c := { name, type := .string, generation := g', defaultValue := d' }) h
  exact congrArg (fun c : Column ↦ (c.name, c.generation, c.defaultValue)) hcolumn

theorem Table.sources_withFacts_some (l : Ledger) (u : Table) :
    (u.withFacts (some l)).sources = u.sources.map (l.decorateSources u.name) := by
  rw [withFacts, sources, sources, List.map_map, List.map_map]
  rfl

/-- A table of which statements say all gets the generations and defaults of its facts. -/
theorem Table.sources_withFacts {u : Table} {table : String} (hname : u.name = table)
    {columns : List LoweredColumn}
    (hsources : u.sources = columns.map fun x ↦ (x.source.name, none,
      if x.defaultValue == some .commitTimestamp then some .commitTimestamp else none))
    {ledger : Option Ledger}
    (hledger : ∀ x ∈ columns, ∀ p, Ledger.given ledger ⟨table, x.source.name, p⟩
      = p.valueFor x.source.resolveGeneration x.defaultValue) :
    (u.withFacts ledger).sources = columns.map fun x ↦ (x.source.name, x.source.resolveGeneration,
      x.defaultValue.map fun v ↦ ColumnDefault.ofExpression v.factValue) := by
  have hcommit (x : LoweredColumn) :
      (x.defaultValue.map fun v ↦ ColumnDefault.ofExpression v.factValue).or
          (if x.defaultValue == some .commitTimestamp then some .commitTimestamp else none)
        = x.defaultValue.map fun v ↦ ColumnDefault.ofExpression v.factValue := by
    cases x.defaultValue <;> rfl
  cases ledger with
  | none =>
    rw [withFacts, hsources]
    refine List.map_congr_left fun x hx ↦ ?_
    have hgeneration : x.source.resolveGeneration = none := by
      simpa [Ledger.given, Property.valueFor] using hledger x hx .strategy
    have hdefault : x.defaultValue = none := by
      simpa [Ledger.given, Property.valueFor] using hledger x hx .default
    rw [hgeneration, hdefault]
    rfl
  | some l =>
    rw [sources_withFacts_some, hname, hsources, List.map_map]
    refine List.map_congr_left fun x hx ↦ ?_
    have hfacts (p : Property) : l.get? ⟨table, x.source.name, p⟩
        = p.valueFor x.source.resolveGeneration x.defaultValue := hledger x hx p
    rw [Function.comp_apply, Ledger.decorateSources_eq hfacts, hcommit, Option.or_none]

namespace Pass

variable {o : PassOptions} {ignoreMissing : Bool} {s t : Site}

/-! ## Executing a declaration -/

theorem reindexed_of_updateDdl {is : List Index} (hs : s.database.Sound)
    (hok : updateDdl (is.map Index.sql) s = .ok () t) : t.database.Reindexed s.database := by
  induction is generalizing s with
  | nil =>
    obtain ⟨-, rfl⟩ := EStateM.Result.ok.inj hok
    exact .refl _
  | cons i is ih =>
    obtain ⟨db, m, hrun, hm, hok⟩ := exists_of_updateDdl_cons hok
    have hdb : m.database.Sound := hm ▸ ⟨(hs.run hrun).named, (hs.run hrun).tables⟩
    have hfirst : db.Reindexed s.database := hs.reindexed_of_run hrun
    have hrest : t.database.Reindexed m.database := ih hdb hok
    rw [hm] at hrest
    exact (show t.database.Reindexed db from hrest).trans hfirst

theorem stored_of_reindexed {sideTable : String} {db db' : Database} (h : db'.Reindexed db)
    {l : Ledger} (hl : stored sideTable db' = .ok l) : stored sideTable db = .ok l := by
  obtain ⟨u, hu, hcolumns, hrows⟩ := stored_eq_ok.1 hl
  obtain ⟨t, ht, hut⟩ := h.exists_old hu
  exact stored_eq_ok.2 ⟨t, ht, hut.columns ▸ hcolumns, hut.rows ▸ hrows⟩

/-- What a declaration has done when its statements have been accepted. -/
structure Created (o : PassOptions) (c : CreateTable) (columns : List LoweredColumn) (s v : Site) :
    Prop where
  absent : s.database.tables[c.table]? = none
  source : columns.map (·.source) = c.columnDefs
  meant : ∀ x ∈ columns, x.Meant
  distinct : (columns.map (·.source.name)).Nodup
  table : ∃ u, v.database.tables[c.table]? = some u ∧ u.schema.Unsourced ∧
    u.schema.sources = columns.map fun x ↦ (x.source.name, none,
      if x.defaultValue == some .commitTimestamp then some .commitTimestamp else none)
  stored : ∀ l, stored o.sideTable v.database = .ok l →
    SideTable.stored o.sideTable s.database = .ok l ∨ ∀ k, l.get? k = none

/-- A declaration has a statement to execute. -/
theorem sql_ne_nil_of_createTable {c : CreateTable} {l : Lowered}
    (hlower : Statement.lowerAll [.createTable c] = .ok l) : l.sql ≠ [] := by
  obtain ⟨table, columns, key, hmeant⟩ :=
    CreateTable.exists_of_lower ((Statement.lowerAll_singleton _).symm.trans hlower)
  rw [hmeant.sql_eq]
  exact List.cons_ne_nil _ _

/-- The statement that has been accepted made the table as it is declared. -/
theorem store_of_run {c : CreateTable} {l : Lowered} {declared : Table}
    {columns : List LoweredColumn} {key : List KeyPart} (hmeant : c.Meant l declared columns key)
    (hnew : c.ifNotExists = false) (hnames : ∀ n ∈ c.ownNames, '\x60' ∉ n.toList)
    {db db' : Database}
    (hrun : db.run (Ddl.createTable c.table c.ifNotExists (columns.map (·.clause)) key
      (TableOption.interleaves c.options)).text = .ok db') :
    db.tables[c.table]? = none ∧ ∃ parent : Option Interleave,
      Table.Declarable c.table (columns.map (·.clause)) key parent ∧
      db' = db.store c.table { schema := .declared c.table (columns.map (·.clause)) key parent } := by
  have hcolumns : ∀ x ∈ columns.map (·.clause), '\x60' ∉ x.name.toList := by
    intro x hx
    have hname : x.name ∈ c.columnDefs.map (·.name) :=
      hmeant.names_clauses ▸ List.mem_map_of_mem hx
    exact hnames _ (List.mem_cons_of_mem _ (List.mem_append_left _ hname))
  have hparents : ∀ i ∈ TableOption.interleaves c.options, '\x60' ∉ i.parent.toList := fun i hi ↦
    hnames _ (List.mem_cons_of_mem _ (List.mem_append_right _ (List.mem_map_of_mem hi)))
  rcases Database.of_run_createTable (hnames _ List.mem_cons_self) hcolumns hmeant.declares_key
    hparents hrun with ⟨hine, -, -⟩ | ⟨habsent, parent, -, hdeclarable, -, hstore⟩
  · rw [hnew] at hine
    contradiction
  · exact ⟨habsent, parent, hdeclarable, hstore⟩

/-- A table that is stored without rows leaves the facts as they are, or it is the side table and
there are none. -/
theorem stored_of_store {sideTable n : String} {t : Table} {db db' : Database}
    (hreindexed : db'.Reindexed (db.store n { schema := t })) {l : Ledger}
    (hl : stored sideTable db' = .ok l) : stored sideTable db = .ok l ∨ ∀ k, l.get? k = none := by
  obtain ⟨u, hu, hcolumns, hrows⟩ := stored_eq_ok.1 (stored_of_reindexed hreindexed hl)
  rw [Database.getElem?_store] at hu
  split at hu
  · obtain rfl := Option.some.inj hu
    obtain rfl : (∅ : Ledger) = l := Except.ok.inj hrows
    exact .inr Ledger.get?_empty
  · exact .inl (stored_eq_ok.2 ⟨u, hu, hcolumns, hrows⟩)

theorem created_of_accepted {c : CreateTable} (hnew : c.ifNotExists = false)
    (hnames : ∀ n ∈ c.ownNames, '\x60' ∉ n.toList) {l : Lowered} {r : Schema} {v : Site}
    (hs : s.Fresh o.sideTable) (h : Accepted o [.createTable c] s l r v) :
    ∃ columns, Created o c columns s v ∧
      l.delta = (columns.flatMap (LoweredColumn.facts c.table)).map .upsert := by
  obtain ⟨declared, columns, key, hmeant⟩ :=
    CreateTable.exists_of_lower ((Statement.lowerAll_singleton _).symm.trans h.lowered)
  obtain ⟨notes, u, hupdate, hdatabase⟩ := h.executed
  rw [hmeant.sql_eq] at hupdate
  obtain ⟨db, m, hrun, hm, hindices⟩ := exists_of_updateDdl_cons hupdate
  obtain ⟨habsent, parent, hdeclarable, hstore⟩ := store_of_run hmeant hnew hnames hrun
  have hreindexed : v.database.Reindexed db := by
    have hdb : db.Sound := hs.sound.run hrun
    have hsound : m.database.Sound := hm ▸ ⟨hdb.named, hdb.tables⟩
    have hindexed := reindexed_of_updateDdl hsound hindices
    rw [hm] at hindexed
    rw [hdatabase]
    exact hindexed
  have hcreated : db.tables[c.table]?
      = some { schema := .declared c.table (columns.map (·.clause)) key parent } := by
    rw [hstore, Database.getElem?_store, if_pos rfl]
  obtain ⟨w, hw, hwt⟩ := hreindexed.exists_new hcreated
  have hunsourced := Table.unsourced_declared c.table (columns.map (·.clause)) key parent
  refine ⟨columns, ⟨habsent, hmeant.source, hmeant.meant, ?_, ⟨w, hw, ?_, ?_⟩, fun l hl ↦ ?_⟩,
    hmeant.delta⟩
  · have hdistinct := hdeclarable.distinct
    rw [hmeant.names_clauses, ← hmeant.source, List.map_map] at hdistinct
    exact hdistinct
  · exact hunsourced.congr (hwt.sources hunsourced)
  · rw [hwt.sources hunsourced, Table.sources_declared, List.map_map]
    refine List.map_congr_left fun x hx ↦ ?_
    rw [Function.comp_apply, (hmeant.meant x hx).name_clause,
      (hmeant.meant x hx).commitTimestamp_clause]
  · exact stored_of_store (hstore ▸ hreindexed) hl

namespace Created

variable {c : CreateTable} {columns : List LoweredColumn} {v : Site} (h : Created o c columns s v)

include h

/-- Where no facts about the table were stored before, none are stored now. -/
theorem get?_eq_none (hclean : ∀ l, SideTable.stored o.sideTable s.database = .ok l →
      ∀ f ∈ l.entries, f.table ≠ c.table) {l : Ledger}
    (hl : SideTable.stored o.sideTable v.database = .ok l) {k : FactKey} (hk : k.table = c.table) :
    l.get? k = none := by
  rcases h.stored l hl with hbefore | hnone
  · refine Option.eq_none_iff_forall_ne_some.2 fun w hw ↦ ?_
    exact hclean l hbefore (.ofKey k w) (Ledger.mem_entries.2 hw) hk
  · exact hnone k

section

variable (hv : v.database.Sound) {r : Schema} (hr : v.database.described = .ok r)

include hv hr

theorem existsIn {x : LoweredColumn} (hx : x ∈ columns) (p : Property) (value : String) :
    (⟨c.table, x.source.name, p, value⟩ : Fact).existsIn r = true := by
  obtain ⟨u, hu, hunsourced, hsources⟩ := h.table
  rw [Fact.existsIn, Database.getElem?_of_described hv hr, hu, Option.map_some, Option.any_some,
    Table.hasColumn_iff, Table.columnNames_stated]
  have hmem : x.source.name ∈ u.schema.sources.map Prod.fst := by
    rw [hsources, List.map_map]
    exact List.mem_map_of_mem hx
  rw [Table.sources, List.map_map] at hmem
  exact hmem

/-- The table is cached with what a ledger says of it. -/
theorem exists_of_map {ledger : Option Ledger}
    (hledger : ∀ x ∈ columns, ∀ p, Ledger.given ledger ⟨c.table, x.source.name, p⟩
      = p.valueFor x.source.resolveGeneration x.defaultValue) :
    ∃ u, (r.map fun _ t ↦ t.withFacts ledger)[c.table]? = some u ∧ u.sources = c.sources := by
  obtain ⟨u, hu, hunsourced, hsources⟩ := h.table
  have hlookup : r[c.table]? = some u.schema.stated := by
    rw [Database.getElem?_of_described hv hr, hu, Option.map_some]
  have hname : u.schema.stated.name = c.table := (Database.sound_of_described hr hlookup).2
  refine ⟨u.schema.stated.withFacts ledger, ?_, ?_⟩
  · rw [Std.ExtTreeMap.getElem?_map, hlookup, Option.map_some]
  · rw [Table.sources_withFacts hname (hunsourced.sources_stated.trans hsources) hledger,
      CreateTable.sources, ← h.source, List.map_map]
    refine List.map_congr_left fun x hx ↦ ?_
    rw [Function.comp_apply, (h.meant x hx).resolveDefault_eq]

end

/-- What is written for a batch of the declaration says of each column what is declared of it. -/
theorem given_writeAll {l : Ledger} (hl : ∀ k : FactKey, k.table = c.table → l.get? k = none)
    {tables : Schema}
    (hexists : ∀ x ∈ columns, ∀ p value,
      (⟨c.table, x.source.name, p, value⟩ : Fact).existsIn tables = true)
    {d : Diff}
    (hd : Diff.ofDelta ((columns.flatMap (LoweredColumn.facts c.table)).map .upsert) l tables
      ignoreMissing = .ok d) {x : LoweredColumn} (hx : x ∈ columns) (p : Property) :
    Ledger.given (some (l.writeAll d.writes)) ⟨c.table, x.source.name, p⟩
      = p.valueFor x.source.resolveGeneration x.defaultValue := by
  rw [← Ledger.get?_applyAll_upserts h.distinct (fun x ↦ x.source.resolveGeneration)
    (fun x ↦ x.defaultValue) hx (hl ⟨c.table, x.source.name, p⟩ rfl)]
  refine Option.ext fun value ↦ ?_
  have hmem := Diff.mem_writeAll_ofDelta hd (f := ⟨c.table, x.source.name, p, value⟩)
  rw [Ledger.mem_entries, Ledger.mem_entries, hexists x hx p value, and_iff_left rfl] at hmem
  exact hmem

end Created

/-- Without facts nothing is declared of any column. -/
theorem valueFor_of_delta {c : CreateTable} {columns : List LoweredColumn}
    (h : (columns.flatMap (LoweredColumn.facts c.table)).map Change.upsert = []) {x : LoweredColumn}
    (hx : x ∈ columns) (p : Property) :
    p.valueFor x.source.resolveGeneration x.defaultValue = none :=
  LoweredColumn.eq_none_of_facts (List.flatMap_eq_nil_iff.1 (List.map_eq_nil_iff.1 h) x hx) p

theorem standard_of_schema {sideTable : String} {db db' : Database} (h : db'.schema = db.schema)
    (hdb : Standard sideTable db) : Standard sideTable db' := by
  obtain ⟨t, ht, hside⟩ := hdb
  obtain ⟨u, hu, hut⟩ := Database.exists_of_schema h.symm ht
  exact ⟨u, hu, hut ▸ hside⟩

/-! ## The cached table -/

/-- A declaration without facts is cached as it is, if nothing is stored about its table. -/
theorem exists_of_silent {c : CreateTable} {columns : List LoweredColumn} {v : Site}
    (h : Created o c columns s v) (hv : v.Fresh o.sideTable)
    (hclean : ∀ l, stored o.sideTable s.database = .ok l → ∀ f ∈ l.entries, f.table ≠ c.table)
    {r : Schema} (hr : v.database.described = .ok r)
    (hsilent : ∀ x ∈ columns, ∀ p : Property,
      p.valueFor x.source.resolveGeneration x.defaultValue = none) :
    ∃ u, (r.map fun _ t ↦ t.withFacts v.cache.ledger)[c.table]? = some u ∧
      u.sources = c.sources := by
  refine h.exists_of_map hv.sound hr fun x hx p ↦ ?_
  rw [hsilent x hx p]
  cases hledger : v.cache.ledger with
  | none => rfl
  | some l => exact h.get?_eq_none hclean (hv.ledger l hledger) rfl

section

variable {c : CreateTable} {columns : List LoweredColumn} {l : Lowered} {r : Schema} {v : Site}
  (hcreated : Created o c columns s v) (haccepted : Accepted o [.createTable c] s l r v)
  (hv : v.Fresh o.sideTable)
  (hdelta : l.delta = (columns.flatMap (LoweredColumn.facts c.table)).map .upsert)
  (hclean : ∀ l, stored o.sideTable s.database = .ok l → ∀ f ∈ l.entries, f.table ≠ c.table)

include hcreated hdelta

/-- A statement that declares nothing of its columns leaves no facts behind. -/
theorem delta_eq_nil_of_silent
    (hsilent : ∀ x ∈ c.columnDefs, x.resolveGeneration = none ∧ x.resolveDefault = none) :
    l.delta = [] := by
  rw [hdelta, List.map_eq_nil_iff, List.flatMap_eq_nil_iff]
  intro x hx
  obtain ⟨hgeneration, hdefault⟩ := hsilent x.source (hcreated.source ▸ List.mem_map_of_mem hx)
  rw [(hcreated.meant x hx).resolveDefault_eq] at hdefault
  rw [LoweredColumn.facts, hgeneration, hdefault]
  rfl

include haccepted hv hclean

theorem exists_of_unstored (hempty : l.delta = []) :
    ∃ u, v.cache.tables[c.table]? = some u ∧ u.sources = c.sources := by
  rw [haccepted.tables]
  exact exists_of_silent hcreated hv hclean haccepted.described fun x hx p ↦
    valueFor_of_delta (hdelta.symm.trans hempty) hx p

variable {ledger : Ledger} {d : Diff} (hstored : stored o.sideTable v.database = .ok ledger)
  (hdiff : Diff.ofDelta l.delta ledger v.cache.tables ignoreMissing = .ok d)

include hstored hdiff

/-- What is written says of each column what is declared of it. -/
theorem given_of_ofDelta {x : LoweredColumn} (hx : x ∈ columns) (p : Property) :
    Ledger.given (some (ledger.writeAll d.writes)) ⟨c.table, x.source.name, p⟩
      = p.valueFor x.source.resolveGeneration x.defaultValue := by
  rw [hdelta, haccepted.tables] at hdiff
  refine hcreated.given_writeAll (fun k hk ↦ hcreated.get?_eq_none hclean hstored hk)
    (fun x hx p value ↦ ?_) hdiff hx p
  rw [Fact.existsIn_map_withFacts]
  exact hcreated.existsIn hv.sound haccepted.described hx p value

/-- Where nothing is to be written, nothing has been declared, since nothing was stored. -/
theorem exists_of_unchanged (hempty : d.isEmpty = true) :
    ∃ u, v.cache.tables[c.table]? = some u ∧ u.sources = c.sources := by
  rw [haccepted.tables]
  refine exists_of_silent hcreated hv hclean haccepted.described fun x hx p ↦ ?_
  have hgiven := given_of_ofDelta hcreated haccepted hv hdelta hclean hstored hdiff hx p
  rw [Diff.writes_eq_nil_iff.2 hempty] at hgiven
  rw [← hgiven]
  exact hcreated.get?_eq_none hclean hstored rfl

end

theorem exists_of_executed (hdry : o.dryRun = false) {c : CreateTable}
    (hnew : c.ifNotExists = false)
    (hnames : ∀ n ∈ c.ownNames, '\x60' ∉ n.toList) (hs : s.Fresh o.sideTable)
    (hclean : ∀ l, stored o.sideTable s.database = .ok l → ∀ f ∈ l.entries, f.table ≠ c.table)
    {sql : List String} {d : Diff} (h : Executed o [.createTable c] ignoreMissing s sql d t)
    (hside : Standard o.sideTable t.database ∨
      ∀ x ∈ c.columnDefs, x.resolveGeneration = none ∧ x.resolveDefault = none) :
    ∃ u, t.cache.tables[c.table]? = some u ∧ u.sources = c.sources := by
  cases h with
  | idle notes hlower hempty => exact absurd hempty (sql_ne_nil_of_createTable hlower)
  | unstored notes haccepted hunsaid =>
    rename_i l r v
    obtain ⟨columns, hcreated, hdelta⟩ := created_of_accepted hnew hnames hs haccepted
    have hv := haccepted.fresh hs
    change ∃ u, v.cache.tables[c.table]? = some u ∧ u.sources = c.sources
    refine exists_of_unstored hcreated haccepted hv hdelta hclean ?_
    rcases hside with ⟨u, hu, -⟩ | hsilent
    · refine List.isEmpty_iff.1 (hunsaid.resolve_right fun hmissing ↦ ?_)
      rw [haccepted.tables, contains_of_described hv.sound haccepted.described hu] at hmissing
      contradiction
    · exact delta_eq_nil_of_silent hcreated hdelta hsilent
  | unchanged haccepted hsome happlied hempty =>
    rename_i l r v
    obtain ⟨columns, hcreated, hdelta⟩ := created_of_accepted hnew hnames hs haccepted
    have hv := haccepted.fresh hs
    obtain ⟨ledger, m, hstored, hdiff, -, -, hcache, hwrite⟩ :=
      exists_of_applyDelta hsome hv happlied
    obtain rfl := eq_of_write_of_isEmpty hempty hwrite
    rw [hcache]
    exact exists_of_unchanged hcreated haccepted hv hdelta hclean hstored hdiff hempty
  | stored haccepted hsome happlied hnonempty hreload =>
    rename_i l r v w n
    obtain ⟨columns, hcreated, hdelta⟩ := created_of_accepted hnew hnames hs haccepted
    have hv := haccepted.fresh hs
    obtain ⟨ledger, m, hstored, hdiff, hm, hdatabase, hcache, hwrite⟩ :=
      exists_of_applyDelta hsome hv happlied
    obtain ⟨r', hr', hreloaded, hledger, htables⟩ := of_reloadTables hreload
    have hschema : w.database.schema = v.database.schema := schema_of_applyDelta happlied
    -- There is something to write, so the side table is as it has to be.
    have hstandard : Standard o.sideTable m.database := by
      have hend : Standard o.sideTable t.database := hside.resolve_right fun hsilent ↦ by
        rw [delta_eq_nil_of_silent hcreated hdelta hsilent] at hsome
        contradiction
      rw [hreloaded] at hend
      exact hdatabase ▸ standard_of_schema hschema.symm hend
    have hcached : m.cache.ledger = some ledger := by rw [hcache]
    obtain ⟨-, hw, -⟩ :=
      holds_of_write hdry ⟨hm.sound, hstandard, hdatabase ▸ hstored⟩ hcached hwrite
    rw [Database.described_congr hschema, haccepted.described] at hr'
    obtain rfl := Except.ok.inj hr'
    rw [htables, hledger, hw]
    exact hcreated.exists_of_map hv.sound haccepted.described fun x hx p ↦
      given_of_ofDelta hcreated haccepted hv hdelta hclean hstored hdiff hx p

/-- The statements of a declaration have been executed, and their tables stay, whatever facts are
stored then. -/
theorem exists_accepted_of_executed {c : CreateTable} {sql : List String} {d : Diff}
    (h : Executed o [.createTable c] ignoreMissing s sql d t) :
    ∃ l r v, Accepted o [.createTable c] s l r v ∧ t.database.schema = v.database.schema := by
  cases h with
  | idle notes hlower hempty => exact absurd hempty (sql_ne_nil_of_createTable hlower)
  | unstored notes haccepted _ => exact ⟨_, _, _, haccepted, rfl⟩
  | unchanged haccepted _ happlied _ => exact ⟨_, _, _, haccepted, schema_of_applyDelta happlied⟩
  | stored haccepted _ happlied _ hreload =>
    obtain ⟨-, -, hdatabase, -, -⟩ := of_reloadTables hreload
    exact ⟨_, _, _, haccepted, hdatabase ▸ schema_of_applyDelta happlied⟩

/-- A table that is created was not there, so nothing is stored about it where facts are recorded
only about tables that are there. -/
theorem clean_of_executed {c : CreateTable} (hnew : c.ifNotExists = false)
    (hnames : ∀ n ∈ c.ownNames, '\x60' ∉ n.toList) (hs : s.Fresh o.sideTable)
    (hbacked : s.database.Backed o.sideTable c.table) {sql : List String} {d : Diff}
    (h : Executed o [.createTable c] ignoreMissing s sql d t)
    (hkey : ∀ u, t.database.tables[o.sideTable]? = some u → u.schema.primaryKey = keyColumns) :
    ∀ l, stored o.sideTable s.database = .ok l → ∀ f ∈ l.entries, f.table ≠ c.table := by
  obtain ⟨lowered, r, v, haccepted, hschema⟩ := exists_accepted_of_executed h
  obtain ⟨columns, hcreated, -⟩ := created_of_accepted hnew hnames hs haccepted
  have hlower := (Statement.lowerAll_singleton _).symm.trans haccepted.lowered
  have hextends : v.database.Extends s.database o.sideTable := by
    rw [haccepted.database_eq]
    exact Database.extends_of_updateDdl lowered.sql hs.sound (not_removes_of_createTable hlower)
  -- The declaration has left the key of the side table as it was.
  have hold : ∀ u, s.database.tables[o.sideTable]? = some u → u.schema.primaryKey = keyColumns := by
    intro u hu
    obtain ⟨w, hw, huw⟩ := hextends u hu
    obtain ⟨x, hx, hxw⟩ := Database.exists_of_schema hschema.symm hw
    rw [← huw.primaryKey, ← hxw]
    exact hkey x hx
  intro l hl f hf hn
  obtain ⟨u, hu⟩ := hbacked f (Database.records_of_mem_entries hs.sound hl hold hf) hn
  rw [hcreated.absent] at hu
  contradiction

/-- After any calls on a database without facts, a table that is created is cached with exactly the
generations and defaults that its statement declares, and with none of an earlier table of its name.
The batches of the calls may have failed, if they have then spared tables of that name and the side
table. After the creation the side table has to be there with its columns and its key, or else the
statement has to declare nothing, and a side table that is there must have its key. -/
theorem sources_of_created (hdry : o.dryRun = false) {start : Site}
    (hstart : start.database.Reachable)
    (hempty : ∀ u, start.database.tables[o.sideTable]? = some u → u.rows = ∅)
    (hnone : start.cache.ledger = none) (calls : List Call) (hs : afterCalls o calls start = s)
    {c : CreateTable} (htidy : Call.AllTidy o c.table calls start) (hnew : c.ifNotExists = false)
    (hnames : ∀ n ∈ c.ownNames, '\x60' ∉ n.toList) {sql : List String} {d : Diff}
    (hok : executeDdl o [.createTable c] ignoreMissing s = .ok (sql, d) t)
    (hside : Standard o.sideTable t.database ∨
      (∀ x ∈ c.columnDefs, x.resolveGeneration = none ∧ x.resolveDefault = none) ∧
        ∀ u, t.database.tables[o.sideTable]? = some u → u.schema.primaryKey = keyColumns) :
    ∃ u, t.cache.tables[c.table]? = some u ∧ u.sources = c.sources := by
  have hfresh : start.Fresh o.sideTable := .of_none hstart.sound hnone
  have hs_fresh : s.Fresh o.sideTable := hs ▸ fresh_afterCalls hdry calls hfresh
  have hbacked : s.database.Backed o.sideTable c.table :=
    hs ▸ backed_afterCalls hdry calls hfresh (.of_rows_empty hempty) htidy
  have hexecuted := executed_of_executeDdl hdry hok
  have hkey : ∀ u, t.database.tables[o.sideTable]? = some u → u.schema.primaryKey = keyColumns := by
    rcases hside with ⟨w, hw, hstandard⟩ | ⟨-, hkey⟩
    · intro u hu
      obtain rfl := Option.some.inj (hw.symm.trans hu)
      exact hstandard.primaryKey
    · exact hkey
  have hclean := clean_of_executed hnew hnames hs_fresh hbacked hexecuted hkey
  exact exists_of_executed hdry hnew hnames hs_fresh hclean hexecuted (hside.imp_right And.left)

/-- A table is created, a batch is refused that has made another one, and the table is dropped. -/
def dropped : List Call :=
  [.executeDdl [factTable keyColumns, .createTable (oneColumn numbered)] false,
    .executeDdl [.createTable { oneColumn silent with table := "w" }, .dropTable ["u"] false] false,
    .executeDdl [.dropTable ["t"] false] false]

/-- A table of the same name, with another generation and with defaults. -/
def redeclared : CreateTable where
  table := "t"
  definitions :=
    [.column { name := "a", dataType := ⟨"int", none, false⟩, generation := some (.custom "n") },
      .column
        { name := "b", dataType := ⟨"date", none, false⟩, defaultExpr := some (.literal "x") },
      .column
        { name := "c", dataType := ⟨"datetime", none, false⟩, onUpdate := some .currentTimestamp },
      .primaryKey [⟨"a", .asc⟩]]

/-- The refused batch has spared the table that is dropped later. -/
theorem tidy_dropped : Call.AllTidy factOptions "t" dropped {} := by
  have hplain : ∀ c ∈ dropped, c.Plain factOptions := by decide +kernel
  simp only [dropped, List.forall_mem_cons] at hplain
  obtain ⟨hcreate, hrefused, hdrop, -⟩ := hplain
  obtain ⟨heq, horderly⟩ := hcreate.apply_eq (s := {}) Database.orderly_empty
  obtain ⟨heq', horderly'⟩ := hrefused.apply_eq horderly
  refine ⟨(tidy_iff_direct hcreate Database.orderly_empty).2 (.inl ?_),
    (tidy_iff_direct hrefused horderly).2 (.inr ?_), (tidy_iff_direct hdrop horderly').2 (.inl ?_),
    trivial⟩
  · decide +kernel
  · rw [heq]
    decide +kernel
  · rw [heq', heq]
    decide +kernel

/-- The side table is there after the new table. -/
theorem seen_redeclared :
    seen (fun _ t ↦ t.database.tables[factOptions.sideTable]?.map fun u ↦
        (u.schema.columnNames, u.schema.primaryKey))
      (executeDdl factOptions [.createTable redeclared] false) (afterCalls factOptions dropped {})
      = some (some (columns, keyColumns)) := by
  have hredeclared : Statement.Plain [.createTable redeclared] := by decide +kernel
  have hcalls : ∀ c ∈ dropped, c.Plain factOptions := by decide +kernel
  obtain ⟨heq, horderly⟩ := afterCalls_eq hcalls (s := {}) Database.orderly_empty
  rw [(agree_executeDdl hredeclared false).seen_eq horderly, heq]
  decide +kernel

theorem redeclared_sources :
    ∃ sql d t u, executeDdl factOptions [.createTable redeclared] false
        (afterCalls factOptions dropped {}) = .ok (sql, d) t ∧
      t.cache.tables["t"]? = some u ∧ u.sources = redeclared.sources ∧
      redeclared.sources = [("a", some (.custom "n"), none), ("b", none, some (.expression "'x'")),
        ("c", none, some .commitTimestamp)] := by
  obtain ⟨⟨sql, d⟩, t, ht, hside⟩ := exists_of_seen seen_redeclared
  obtain ⟨w, hw, hcolumns⟩ := Option.map_eq_some_iff.1 hside
  obtain ⟨hcolumns, hkey⟩ := Prod.mk.inj hcolumns
  have hnames : ∀ n ∈ redeclared.ownNames, '\x60' ∉ n.toList := by decide
  have hempty (u : StoredTable)
      (hu : ({} : Site).database.tables[factOptions.sideTable]? = some u) :
      u.rows = ∅ := by
    rw [show ({} : Site).database.tables = ∅ from rfl, Std.ExtTreeMap.getElem?_empty] at hu
    contradiction
  obtain ⟨u, hu, hsources⟩ :=
    sources_of_created (o := factOptions) rfl .empty hempty rfl dropped rfl
    tidy_dropped rfl hnames ht (.inl ⟨w, hw, fun c hc ↦ hcolumns ▸ hc, hkey⟩)
  exact ⟨sql, d, t, u, ht, hu, hsources, by decide +kernel⟩

/-! ## Tables that are not cached as they are declared -/

/-- The columns of a new table are cached with what is declared of them. -/
def CachedAsDeclared (calls : List Call) (c : CreateTable) : Prop :=
  ∀ sql d t, executeDdl factOptions [.createTable c] true (afterCalls factOptions calls {})
      = .ok (sql, d) t →
    ∀ u, t.cache.tables[c.table]? = some u →
      u.sources = c.columnDefs.map fun x ↦ (x.name, x.resolveGeneration, x.resolveDefault)

/-- What a batch of one declaration caches of its table. -/
def cachedSources (calls : List Call) (c : CreateTable) :
    Option (Option (List (String × Option Generation × Option ColumnDefault))) :=
  seen (fun _ t ↦ t.cache.tables[c.table]?.map Table.sources)
    (executeDdl factOptions [.createTable c] true) (afterCalls factOptions calls {})

theorem cachedSources_eq_direct {calls : List Call} (hcalls : ∀ d ∈ calls, d.Plain factOptions)
    {c : CreateTable} (hc : Statement.Plain [.createTable c]) :
    cachedSources calls c = seen (fun _ t ↦ t.cache.tables[c.table]?.map Table.sources)
      (Direct.executeDdl factOptions [.createTable c] true)
      (calls.foldl (fun s d ↦ d.direct factOptions s) {}) := by
  obtain ⟨heq, horderly⟩ := afterCalls_eq hcalls (s := {}) Database.orderly_empty
  rw [cachedSources, (agree_executeDdl hc true).seen_eq horderly, heq]

theorem not_cachedAsDeclared {calls : List Call} {c : CreateTable}
    {xs : List (String × Option Generation × Option ColumnDefault)}
    (h : cachedSources calls c = some (some xs))
    (hne : xs ≠ c.columnDefs.map fun x ↦ (x.name, x.resolveGeneration, x.resolveDefault)) :
    ¬CachedAsDeclared calls c := by
  obtain ⟨⟨sql, d⟩, t, ht, hcached⟩ := exists_of_seen h
  obtain ⟨u, hu, rfl⟩ := Option.map_eq_some_iff.1 hcached
  exact fun hall ↦ hne (hall sql d t ht u hu)

/-- The batch that drops the table is refused, so the facts about it stay. -/
def leftover : List Call :=
  [.executeDdl [factTable keyColumns, .createTable (oneColumn numbered)] false,
    .executeDdl [.dropTable ["t", "u"] false] false]

/-- The table is dropped, but its fact is looked for under a key in another order. -/
def misplaced : List Call :=
  [.executeDdl [factTable ["column", "table", "type"], .createTable (oneColumn numbered)] false,
    .executeDdl [.dropTable ["t"] false] false]

/-- The table is dropped while the side table has another name, which it gets back in a batch that
is refused. -/
def returned : List Call :=
  [.executeDdl [factTable keyColumns, .createTable (oneColumn numbered)] false,
    .executeDdl [.renameTable [⟨"facts", "x"⟩]] false, .executeDdl [.dropTable ["t"] false] false,
    .executeDdl [.renameTable [⟨"x", "facts"⟩], .dropTable ["u"] false] false]

/-- A column with a number. -/
def defaulted : ColumnDef := { silent with defaultExpr := some (.number "5") }

/-- A column with a generator of its own, and so with two facts. -/
def counted : ColumnDef := { silent with generation := some (.custom "n") }

/-- A column with a number between blanks. -/
def spaced : ColumnDef := { silent with defaultExpr := some (.number " 5 ") }

/-- A column with a name that ends early when it is read, in the middle of a definition. -/
def endsEarly : ColumnDef :=
  { silent with
    name := "a\\\x60 timestamp OPTIONS (allow_commit_timestamp=true), foreign key \x60" }

/-- What each of the tables is cached with. -/
theorem cachedSources_eq :
    cachedSources leftover (oneColumn silent) = some (some [("a", some .increment, none)]) ∧
      cachedSources misplaced (oneColumn silent) = some (some [("a", some .increment, none)]) ∧
      cachedSources returned (oneColumn defaulted)
        = some (some [("a", some .increment, some (.expression "5"))]) ∧
      cachedSources [] (oneColumn numbered) = some (some [("a", none, none)]) ∧
      cachedSources [.executeDdl [factTable ["table"]] false] (oneColumn counted)
        = some (some [("a", none, none)]) ∧
      cachedSources [] (oneColumn endsEarly) =
        some (some [("a\\\\", none, some .commitTimestamp)]) ∧
      cachedSources [.executeDdl [factTable keyColumns] false] (oneColumn spaced)
        = some (some [("a", none, some (.expression "5"))]) := by
  refine ⟨?leftover, ?misplaced, ?returned, ?missing, ?short, ?early, ?spaced⟩
  case early => decide +kernel
  all_goals
    rw [cachedSources_eq_direct (by decide +kernel) (by decide +kernel)]
    decide +kernel

/-- A new table gets facts that are left behind: by a refused batch that has dropped the earlier
table or has given the side table its name back, or where the side table has its key in another
order. It does not get its own where the side table is missing or keeps one row for a table. The
name of a column may end early when it is read, and a number is read without the blanks around
it. -/
theorem not_cached_as_declared :
    ¬CachedAsDeclared leftover (oneColumn silent) ∧ ¬CachedAsDeclared misplaced (oneColumn silent) ∧
      ¬CachedAsDeclared returned (oneColumn defaulted) ∧ ¬CachedAsDeclared [] (oneColumn numbered) ∧
      ¬CachedAsDeclared [.executeDdl [factTable ["table"]] false] (oneColumn counted) ∧
      ¬CachedAsDeclared [] (oneColumn endsEarly) ∧
      ¬CachedAsDeclared [.executeDdl [factTable keyColumns] false] (oneColumn spaced) := by
  obtain ⟨hleftover, hmisplaced, hreturned, hnil, hshort, hends, hspaced⟩ := cachedSources_eq
  exact ⟨not_cachedAsDeclared hleftover (by decide), not_cachedAsDeclared hmisplaced (by decide),
    not_cachedAsDeclared hreturned (by decide), not_cachedAsDeclared hnil (by decide),
    not_cachedAsDeclared hshort (by decide), not_cachedAsDeclared hends (by decide),
    not_cachedAsDeclared hspaced (by decide)⟩

end Pass

end SchemaLedger
