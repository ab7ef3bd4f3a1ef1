import Mathlib
import SchemaLedger.Proofs.Database.Described
import SchemaLedger.Proofs.Fact.Frame
import SchemaLedger.Proofs.Reconciliation.Program

/-!
# Reading the tables back

The cached tables become those that the database describes, each with the facts that are cached, and
nothing is left of what was cached of tables before. Reading them back fails only for a dump that
cannot be written or read, and, unless they are passed over, for facts of columns that are gone.
-/

namespace SchemaLedger

/-- The table with the facts of a ledger, if there is one. -/
def Table.withFacts (ledger : Option Ledger) (t : Table) : Table :=
  match ledger with
  | some l => { t with columns := t.columns.map (l.decorateColumn t.name) }
  | none => t

@[simp]
theorem Table.name_withFacts (ledger : Option Ledger) (t : Table) :
    (t.withFacts ledger).name = t.name := by
  cases ledger <;> rfl

@[simp]
theorem Table.columnNames_withFacts (ledger : Option Ledger) (t : Table) :
    (t.withFacts ledger).columnNames = t.columnNames := by
  cases ledger with
  | none => rfl
  | some l =>
    rw [withFacts, columnNames, List.map_map]
    rfl

/-- A ledger has no facts of columns that the table lacks. -/
def Table.Covers (ledger : Option Ledger) (t : Table) : Prop :=
  ∀ l ∈ ledger, ∀ c ∈ l.columns t.name, c ∈ t.columnNames

/-- A database describes the columns that it has. -/
theorem Fact.existsIn_of_described {db : Database} {r : Schema} (h : db.Sound)
    (hr : db.described = .ok r) (f : Fact) : f.existsIn r = f.existsIn db.schema := by
  rw [existsIn, existsIn, Database.getElem?_of_described h hr, Database.getElem?_schema]
  cases db.tables[f.table]? with
  | none => rfl
  | some t =>
    rw [Option.map_some, Option.map_some, Option.any_some, Option.any_some, Bool.eq_iff_iff,
      Table.hasColumn_iff, Table.hasColumn_iff, Table.columnNames_stated]

namespace Cache

theorem getElem?_foldl_insert_of_forall_ne {ts : List Table} {n : String} (h : ∀ t ∈ ts, t.name ≠ n)
    (c : Cache) : (ts.foldl insert c).tables[n]? = c.tables[n]? := by
  induction ts generalizing c with
  | nil => rfl
  | cons t ts ih =>
    rw [List.foldl_cons, ih fun u hu ↦ h u (List.mem_cons_of_mem t hu), insert,
      Std.ExtTreeMap.getElem?_insert,
      if_neg fun e ↦ h t List.mem_cons_self (Std.LawfulEqOrd.compare_eq_iff_eq.1 e)]

theorem getElem?_foldl_insert_of_mem {ts : List Table} (h : (ts.map (·.name)).Nodup) {t : Table}
    (ht : t ∈ ts) (c : Cache) : (ts.foldl insert c).tables[t.name]? = some t := by
  induction ts generalizing c with
  | nil => contradiction
  | cons u ts ih =>
    rw [List.map_cons, List.nodup_cons] at h
    rw [List.foldl_cons]
    rcases List.mem_cons.1 ht with rfl | ht
    · rw [getElem?_foldl_insert_of_forall_ne fun v hv e ↦ h.1 (List.mem_map.2 ⟨v, hv, e⟩)]
      exact Std.ExtTreeMap.getElem?_insert_self
    · exact ih h.2 ht _

/-- Where the tables of a map are put over others, and what it lacks is dropped, it is what is
left. -/
theorem filter_foldl_insert {r : Schema} {f : Table → Table}
    (h : ∀ (n : String) (t : Table), r[n]? = some t → (f t).name = n)
    (c : Cache) : ((r.values.map f).foldl insert c).tables.filter (fun name _ ↦ r.contains name)
      = r.map fun _ t ↦ f t := by
  have hnames : ((r.values.map f).map (·.name)).Nodup := by
    rw [List.map_map]
    exact nodup_map_values h
  refine Std.ExtTreeMap.ext_getElem? fun n ↦ ?_
  rw [Std.ExtTreeMap.getElem?_filter, Std.ExtTreeMap.getElem?_map]
  simp only [Std.ExtTreeMap.getKey_eq, Std.ExtTreeMap.contains_eq_isSome_getElem?]
  cases hn : r[n]? with
  | none => cases ((r.values.map f).foldl insert c).tables[n]? <;> simp
  | some t =>
    have hlookup := getElem?_foldl_insert_of_mem hnames
      (List.mem_map_of_mem (f := f) (mem_values.2 ⟨n, hn⟩)) c
    rw [h n t hn] at hlookup
    rw [hlookup]
    simp

theorem ledger_foldl_insert (ts : List Table) (c : Cache) :
    (ts.foldl insert c).ledger = c.ledger := by
  induction ts generalizing c with
  | nil => rfl
  | cons t ts ih => exact ih _

end Cache

namespace Pass

variable {ignoreMissing : Bool}

/-- A table is cached with its facts. -/
theorem cacheTable_eq {ledger : Option Ledger} {t : Table} (ht : t.columnNames.Nodup)
    (hcovers : ignoreMissing = true ∨ t.Covers ledger) (s : Site) :
    ∃ notes, cacheTable ledger ignoreMissing t s
      = .ok () (noted notes { s with cache := s.cache.insert (t.withFacts ledger) }) := by
  cases ledger with
  | none => exact ⟨[], by rw [noted, List.append_nil]; rfl⟩
  | some l =>
    refine ⟨l.decorationNotes t ignoreMissing, ?_⟩
    rw [cacheTable]
    dsimp only
    rw [run_bind_of_ok (noteAll_eq _ s),
      Ledger.decorate_eq ht (hcovers.imp_right fun h ↦ h l rfl)]
    rfl

theorem covers_of_cacheTable {ledger : Option Ledger} {t : Table} {s s' : Site}
    (h : cacheTable ledger ignoreMissing t s = .ok () s') :
    ignoreMissing = true ∨ t.Covers ledger := by
  cases ledger with
  | none => exact Or.inr fun l hl ↦ absurd hl (Option.not_mem_none l)
  | some l =>
    rw [cacheTable] at h
    dsimp only at h
    rw [run_bind_of_ok (noteAll_eq _ s)] at h
    obtain ⟨u, _, hdecorate, -⟩ := exists_of_run_bind_ok h
    refine (Ledger.decorate_eq_ok (exists_of_ofExcept hdecorate).1).imp_right fun hcolumns l' hl' ↦
      ?_
    obtain rfl := Option.some.inj hl'
    exact hcolumns

theorem forM_cacheTable_eq {ledger : Option Ledger} {ts : List Table}
    (h : ∀ t ∈ ts, t.columnNames.Nodup ∧ (ignoreMissing = true ∨ t.Covers ledger)) (s : Site) :
    ∃ notes, ts.forM (cacheTable ledger ignoreMissing) s = .ok ()
      (noted notes
        { s with cache := (ts.map (Table.withFacts ledger)).foldl Cache.insert s.cache }) := by
  induction ts generalizing s with
  | nil => exact ⟨[], by rw [noted, List.append_nil]; rfl⟩
  | cons t ts ih =>
    obtain ⟨ht, hcovers⟩ := h t List.mem_cons_self
    obtain ⟨notes, hnotes⟩ := cacheTable_eq ht hcovers s
    obtain ⟨more, hmore⟩ := ih (fun u hu ↦ h u (List.mem_cons_of_mem t hu))
      (noted notes { s with cache := s.cache.insert (t.withFacts ledger) })
    refine ⟨notes ++ more, (run_bind_of_ok hnotes).trans (hmore.trans ?_)⟩
    rw [noted, noted, noted, List.append_assoc]
    rfl

theorem covers_of_forM_cacheTable {ledger : Option Ledger} {ts : List Table} {s s' : Site}
    (h : ts.forM (cacheTable ledger ignoreMissing) s = .ok () s') :
    ∀ t ∈ ts, ignoreMissing = true ∨ t.Covers ledger := by
  induction ts generalizing s with
  | nil => exact fun t ht ↦ absurd ht List.not_mem_nil
  | cons t ts ih =>
    obtain ⟨u, m, ht, hts⟩ := exists_of_run_bind_ok h
    intro v hv
    rcases List.mem_cons.1 hv with rfl | hv
    · exact covers_of_cacheTable ht
    · exact ih hts v hv

theorem call_schemaDdl_of_ok {s : Site} {dump : List String}
    (h : Database.dumpStatements s.database.schema = .ok dump) :
    call Database.schemaDdl s = .ok dump s := by
  rw [call, Database.schemaDdl, run_bind_of_ok (m := get) (a := s.database) (t := s.database) rfl,
    h]
  rfl

theorem dumpStatements_of_call {s s' : Site} {dump : List String}
    (h : call Database.schemaDdl s = .ok dump s') :
    Database.dumpStatements s.database.schema = .ok dump := by
  cases hdump : Database.dumpStatements s.database.schema with
  | ok dump' =>
    rw [call_schemaDdl_of_ok hdump] at h
    rw [(EStateM.Result.ok.inj h).1]
  | error e =>
    rw [call, Database.schemaDdl, run_bind_of_ok (m := get) (a := s.database) (t := s.database) rfl,
      hdump] at h
    contradiction

/-- Where the tables can be read back, they are cached with their facts. -/
theorem reloadTables_eq {s : Site} {r : Schema} (h : s.database.described = .ok r)
    (hcovers : ignoreMissing = true ∨ ∀ t ∈ r.values, t.Covers s.cache.ledger) :
    ∃ journal, reloadTables ignoreMissing s
      = .ok r.size ⟨s.database, ⟨r.map fun _ t ↦ t.withFacts s.cache.ledger, s.cache.ledger⟩,
        journal⟩ := by
  have hsound {n : String} {t : Table} (ht : r[n]? = some t) : t.Sound ∧ t.name = n :=
    Database.sound_of_described h ht
  have hmem {t : Table} (ht : t ∈ r.values) : t.columnNames.Nodup := by
    obtain ⟨n, hn⟩ := mem_values.1 ht
    exact (hsound hn).1.distinct
  obtain ⟨dump, hdump, hparse⟩ := bind_eq_ok h
  have htables : ∀ t ∈ r.values, t.columnNames.Nodup ∧
      (ignoreMissing = true ∨ t.Covers s.cache.ledger) :=
    fun t ht ↦ ⟨hmem ht, hcovers.imp_right fun hcovers ↦ hcovers t ht⟩
  obtain ⟨notes, hnotes⟩ := forM_cacheTable_eq htables s
  have hcache :
      (⟨((r.values.map (Table.withFacts s.cache.ledger)).foldl Cache.insert s.cache).tables.filter
        fun name _ ↦ r.contains name,
      ((r.values.map (Table.withFacts s.cache.ledger)).foldl Cache.insert s.cache).ledger⟩ : Cache)
      = ⟨r.map fun _ t ↦ t.withFacts s.cache.ledger, s.cache.ledger⟩ := by
    rw [Cache.ledger_foldl_insert, Cache.filter_foldl_insert
      fun n t ht ↦ (Table.name_withFacts _ t).trans (hsound ht).2]
  rw [reloadTables, run_bind_of_ok (call_schemaDdl_of_ok hdump), hparse, ofExcept_ok, pure_bind,
    run_bind_of_ok (m := get) (a := s) (t := s) rfl, run_bind_of_ok hnotes, ← hcache]
  exact ⟨_, rfl⟩

/-- A table that is there is among those that are described. -/
theorem contains_of_described {db : Database} {r : Schema} (h : db.Sound)
    (hr : db.described = .ok r) {n : String}
    {t : StoredTable} (ht : db.tables[n]? = some t) (ledger : Option Ledger) :
    (r.map fun _ t ↦ t.withFacts ledger).contains n = true := by
  have hlookup := Database.getElem?_of_described h hr n
  rw [ht] at hlookup
  rw [Std.ExtTreeMap.contains_map, Std.ExtTreeMap.contains_eq_isSome_getElem?, hlookup]
  rfl

/-- The tables are read back only where the database describes tables. -/
theorem exists_of_reloadTables {s s' : Site} {n : Nat}
    (h : reloadTables ignoreMissing s = .ok n s') :
    ∃ r, s.database.described = .ok r ∧
      (ignoreMissing = true ∨ ∀ t ∈ r.values, t.Covers s.cache.ledger) := by
  rw [reloadTables] at h
  obtain ⟨dump, s₁, hcall, h⟩ := exists_of_run_bind_ok h
  obtain ⟨r, s₂, hparse, h⟩ := exists_of_run_bind_ok h
  obtain ⟨site, s₃, hget, h⟩ := exists_of_run_bind_ok h
  obtain ⟨u, s₄, hforM, -⟩ := exists_of_run_bind_ok h
  obtain ⟨rfl, rfl⟩ := EStateM.Result.ok.inj hget
  obtain ⟨hr, rfl⟩ := exists_of_ofExcept hparse
  obtain rfl : s = s₂ := (call_schemaDdl s).symm.trans (ending_of_ok hcall)
  refine ⟨r, by rw [Database.described, dumpStatements_of_call hcall]; exact hr, ?_⟩
  have hcovers := covers_of_forM_cacheTable hforM
  cases ignoreMissing with
  | true => exact Or.inl rfl
  | false => exact Or.inr fun t ht ↦ (hcovers t ht).resolve_left Bool.false_ne_true

end Pass

end SchemaLedger
