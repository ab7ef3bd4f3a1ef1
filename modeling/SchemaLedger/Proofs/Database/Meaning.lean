import Mathlib
import SchemaLedger.Proofs.Database.Redump
import SchemaLedger.Proofs.Database.Restorable

/-!
# Statements without their text

The database is given text and reads it before it does anything, and for an index it writes the
table down first and reads that as well. What a statement does can be said without any of this, of
the statement as it was before it was written: `enact`. It is what its text does, refusals included,
if the statement can be read back and the database has had nothing but statements of that kind. Such
a database also tells of its tables, by way of a dump, just what they are, but for foreign keys
other than the one to the parent.
-/

namespace SchemaLedger

open Identifier

/-! ## Statements that are read back -/

/-- Its text is read as the statement. -/
def Ddl.Readable : Ddl → Prop
  | createTable table _ columns key interleaves =>
    interleaves.length ≤ 1 ∧ Table.Declarable table columns key interleaves.head?
  | createIndex index => index.Readable
  | addColumn table column | alterColumn table column => Legible table ∧ column.Readable
  | dropColumn table column | allowCommitTimestamp table column => Legible table ∧ Legible column
  | renameTable old new => Legible old ∧ Legible new
  | dropIndex name | dropTable name _ => Legible name

instance : DecidablePred Legible := fun n ↦
  decidable_of_iff (n ≠ "" ∧ '\x60' ∉ n.toList) ⟨fun h ↦ ⟨h.1, h.2⟩,
    fun h ↦ ⟨h.ne_empty, h.noBacktick⟩⟩

instance : DecidablePred Closed := fun n ↦
  decidable_of_iff (n ≠ "" ∧ Balanced n) ⟨fun h ↦ h.2.closed h.1, fun h ↦ ⟨h.ne_empty, h.balanced⟩⟩

instance : DecidablePred Listable := fun n ↦
  decidable_of_iff (Closed n ∧ ')' ∉ n.toList) ⟨fun h ↦ ⟨h.1, h.2⟩,
    fun h ↦ ⟨h.toClosed, h.noParenthesis⟩⟩

instance (type : ColumnType) (length : Option ColumnLength) :
    Decidable (Dump.HasLength type length) :=
  inferInstanceAs (Decidable (_ ≠ _))

instance : DecidablePred ColumnClause.Readable := fun c ↦
  decidable_of_iff (Legible c.name ∧ Dump.HasLength c.type c.length)
    ⟨fun h ↦ ⟨h.1, h.2⟩, fun h ↦ ⟨h.name, h.length⟩⟩

instance : DecidablePred Index.Readable := fun i ↦
  decidable_of_iff (Legible i.name ∧ Legible i.table ∧ i.columns ≠ [] ∧
    (∀ c ∈ i.referenced, Listable c) ∧
      ∀ p ∈ i.interleaveIn, Legible p)
    ⟨fun ⟨hname, htable, hcolumns, hreferenced, hparent⟩ ↦ ⟨hname, htable, hcolumns, hreferenced,
      hparent⟩,
      fun h ↦ ⟨h.name, h.table, h.columns_ne_nil, h.referenced, h.interleaveIn⟩⟩

instance (table : String) (columns : List ColumnClause) (key : List KeyPart)
    (parent : Option Interleave) :
    Decidable (Table.Declarable table columns key parent) :=
  decidable_of_iff
    (Legible table ∧ (∀ c ∈ columns, Closed c.name ∧ Dump.HasLength c.type c.length) ∧
      (columns.map (·.name)).Nodup ∧ (∀ p ∈ key, Listable p.name ∧ p.name ∈ columns.map (·.name)) ∧
      ∀ i ∈ parent, Legible i.parent)
    ⟨fun ⟨htable, hcolumns, hdistinct, hkey, hparent⟩ ↦ ⟨htable, fun c hc ↦ (hcolumns c hc).1,
        fun c hc ↦ (hcolumns c hc).2, hdistinct, fun p hp ↦ (hkey p hp).1, fun p hp ↦ (hkey p hp).2,
        hparent⟩,
      fun h ↦ ⟨h.legible, fun c hc ↦ ⟨h.closed c hc, h.lengths c hc⟩, h.distinct,
        fun p hp ↦ ⟨h.listable p hp, h.declaresKey p hp⟩, h.parents⟩⟩

instance : DecidablePred Ddl.Readable
  | .createTable .. => inferInstanceAs (Decidable (_ ∧ Table.Declarable ..))
  | .createIndex index => inferInstanceAs (Decidable index.Readable)
  | .addColumn _ column => inferInstanceAs (Decidable (_ ∧ column.Readable))
  | .alterColumn _ column => inferInstanceAs (Decidable (_ ∧ column.Readable))
  | .dropColumn .. => inferInstanceAs (Decidable (_ ∧ Legible _))
  | .allowCommitTimestamp .. => inferInstanceAs (Decidable (_ ∧ Legible _))
  | .renameTable .. => inferInstanceAs (Decidable (_ ∧ Legible _))
  | .dropIndex name => inferInstanceAs (Decidable (Legible name))
  | .dropTable name _ => inferInstanceAs (Decidable (Legible name))

/-- The text of a statement that is read back gives its command. -/
theorem Ddl.Readable.command {d : Ddl} (h : d.Readable) :
    Command.ofText? d.text = some d.command := by
  refine Command.ofText?_text ?targets ?clauses
  case targets =>
    intro n hn
    cases d with
    | createTable => exact List.mem_singleton.1 hn ▸ h.2.legible
    | createIndex =>
      rcases List.mem_cons.1 hn with rfl | hn
      · exact h.name
      · exact List.mem_singleton.1 hn ▸ h.table
    | dropIndex | dropTable => exact List.mem_singleton.1 hn ▸ h
    | addColumn | alterColumn => exact List.mem_singleton.1 hn ▸ h.1
    | dropColumn | allowCommitTimestamp | renameTable =>
      rcases List.mem_cons.1 hn with rfl | hn
      · exact h.1
      · exact List.mem_singleton.1 hn ▸ h.2
  case clauses =>
    intro c hc
    cases d with
    | createTable => exact (h.2.closed c hc).noBacktick
    | addColumn | alterColumn => exact List.mem_singleton.1 hc ▸ h.2.name.noBacktick
    | _ => exact absurd hc List.not_mem_nil

/-- An index behind statements that describe a schema is added to what they describe. -/
theorem Dump.parse_concat_index {statements : List String} {s : Schema}
    (h : parse statements = .ok s) {i : Index}
    (hi : i.Readable) : parse (statements ++ [i.sql]) = addIndex s i := by
  obtain ⟨items, hitems, h⟩ := bind_eq_ok h
  obtain ⟨s', htables, hindices⟩ := bind_eq_ok h
  have hindex : readItems ([i].map Index.sql) = .ok ([i].map .index) :=
    readItems_indices fun j hj ↦ List.mem_singleton.1 hj ▸ hi
  have hall : readItems (statements ++ [i.sql]) = .ok (items ++ [.index i]) :=
    readItems_append_ok hitems hindex
  have hnone : tables [.index i] = [] := tables_map_index [i]
  have hsome : indices [.index i] = [i] := indices_map_index [i]
  rw [parse, hall, ok_bind, tables_append, indices_append, hnone, hsome, List.append_nil, htables,
    ok_bind, List.foldlM_append, hindices, ok_bind, List.foldlM_cons]
  cases addIndex s i <;> rfl

/-! ## What a database tells of its tables -/

namespace Table

variable {t : Table}

/-- A table with such columns is written down. -/
theorem Restorable.sql_eq (h : t.Restorable) (hsound : t.Sound) : t.sql = .ok t.creation :=
  hsound.sql_of_timed h.timed

/-- The statement of a table and statements of any indices of it are read one after another. -/
theorem Storable.parse_toDdl (h : t.Storable) {is : List Index} (hreadable : ∀ i ∈ is, i.Readable)
    (hnamed : ∀ i ∈ is, i.table = t.name)
    (hdeclared : ∀ i ∈ is, ∀ c ∈ i.referenced, c ∈ t.columnNames) :
    Dump.parse (t.toDdl.text :: is.map Index.sql)
      = .ok ((∅ : Schema).insert t.name (is.foldl registerIndex t.bare)) := by
  refine Dump.parse_declared (h.declarable (KeyPart.map_name_asc _)) false hreadable hnamed ?_
  rw [columnNames_toClause]
  exact hdeclared

/-- The indices of a table make of what its own statement says what is restored of it. -/
theorem Restorable.stated_eq (h : t.Restorable) (hstorable : t.Storable) : t.stated = t.restored :=
  (hstorable.foldl_registerIndex (KeyPart.map_name_asc _)).trans h.shown_eq

/-- A table that is written down is read back as it can be restored. -/
theorem Restorable.parse_creation (h : t.Restorable) (hstorable : t.Storable) :
    Dump.parse t.creation = .ok ((∅ : Schema).insert t.name t.restored) := by
  rw [creation, hstorable.parse_toDdl hstorable.readable hstorable.named hstorable.declaresIndexed]
  exact congrArg (fun u ↦ Except.ok ((∅ : Schema).insert t.name u)) (h.stated_eq hstorable)

end Table

namespace Database

namespace Orderly

variable {db : Database} (h : db.Orderly)

include h

theorem exists_of_mem_dumpOrder {t : Table} (ht : t ∈ dumpOrder db.schema) :
    ∃ u, db.tables[t.name]? = some u ∧ u.schema = t := by
  obtain ⟨n, hn⟩ := mem_dumpOrder.1 ht
  rw [getElem?_schema] at hn
  obtain ⟨u, hu, rfl⟩ := Option.map_eq_some_iff.1 hn
  exact ⟨u, by rw [h.sound.named n u hu, hu], rfl⟩

theorem nodup_dumpOrder : ((dumpOrder db.schema).map (·.name)).Nodup :=
  Database.nodup_dumpOrder fun n t ht ↦ by
    rw [getElem?_schema] at ht
    obtain ⟨u, hu, rfl⟩ := Option.map_eq_some_iff.1 ht
    exact h.sound.named n u hu

theorem dumpStatements_eq :
    dumpStatements db.schema = .ok ((dumpOrder db.schema).flatMap Table.creation) := by
  refine Database.dumpStatements_eq fun t ht ↦ ?_
  obtain ⟨u, hu, rfl⟩ := h.exists_of_mem_dumpOrder ht
  exact (h.restorable.tables _ u hu).sql_eq (h.sound.tables _ u hu).schema

/-- The tables of the dump are those of the database. -/
theorem described_eq : db.described = .ok (db.schema.map fun _ t ↦ t.restored) := by
  have hstorable : ∀ t ∈ dumpOrder db.schema, t.Storable := by
    intro t ht
    obtain ⟨u, hu, rfl⟩ := h.exists_of_mem_dumpOrder ht
    exact h.storable hu
  obtain ⟨r, hr⟩ := Dump.exists_parse_creation hstorable h.nodup_dumpOrder
  have hdescribed : db.described = .ok r := by rw [described, h.dumpStatements_eq, ok_bind, hr]
  rw [hdescribed]
  refine congrArg Except.ok (Std.ExtTreeMap.ext_getElem? fun n ↦ ?_)
  rw [getElem?_of_described h.sound hdescribed, Std.ExtTreeMap.getElem?_map, getElem?_schema,
    Option.map_map]
  exact Option.map_congr fun t ht ↦ (h.restorable.tables n t ht).stated_eq (h.storable ht)

end Orderly

/-! ## What statements do -/

/-- Creates a table unless there is one of its name; its parent has to be there. -/
def create (db : Database) (name : String) (ifNotExists : Bool) (t : Table) :
    Except Refusal Database :=
  if db.tables.contains name then
    if ifNotExists then .ok db else reject (.tableExists name)
  else
    match t.interleave with
    | none => .ok (db.store name { schema := t })
    | some i =>
      if db.tables.contains i.parent then .ok (db.store name { schema := t })
      else reject (.parentMissing i.parent)

/-- What a statement makes of the database. -/
def enact (db : Database) : Ddl → Except Refusal Database
  | .createTable table ifNotExists columns key interleaves =>
    db.create table ifNotExists (.declared table columns key interleaves.head?)
  | .createIndex index =>
    if (db.indexOwner? index.name).isSome then reject (.indexExists index.name)
    else do
      let t ← db.demand index.table
      let schema ← (t.schema.restored.addIndex index).mapError .schema
      return db.store index.table { t with schema }
  | .dropIndex name => db.dropIndex name
  | .addColumn table column => do
    let t ← db.demand table
    if t.schema.hasColumn column.name then reject (.columnExists column.name)
    else return db.store table { t with schema := t.schema.appendColumn column.column }
  | .dropColumn table column => db.dropColumn table column
  | .alterColumn table column => do
    let t ← db.demand table
    if !t.schema.hasColumn column.name then reject (.columnMissing column.name)
    else
      return db.store table
        { t with schema := t.schema.modifyColumn column.name (Column.alter column.plain.column) }
  | .allowCommitTimestamp table column => db.allowCommitTimestamp table column true
  | .renameTable old new => db.renameTable old new
  | .dropTable table ifExists => db.dropTable table ifExists

variable {db : Database}

/-- A text that describes one table creates that table. -/
theorem run_of_parse {statement name : String} {ifNotExists : Bool} {t : Table}
    (hcommand : Command.ofText? statement = some (.createTable name ifNotExists))
    (hparse : Dump.parse [statement] = .ok ((∅ : Schema).insert name t)) :
    db.run statement = db.create name ifNotExists t := by
  have hlookup : ((∅ : Schema).insert name t)[name]? = some t := Std.ExtTreeMap.getElem?_insert_self
  rw [run, hcommand]
  dsimp only
  by_cases hcontains : db.tables.contains name = true
  · simp only [createTable, create, if_pos hcontains]
  · simp only [createTable, create, if_neg hcontains, hparse, Except.mapError, ok_bind, hlookup]
    rfl

theorem run_createTable {table : String} {ifNotExists : Bool} {columns : List ColumnClause}
    {key : List KeyPart} {interleaves : List Interleave}
    (h : (Ddl.createTable table ifNotExists columns key interleaves).Readable) :
    db.run (Ddl.createTable table ifNotExists columns key interleaves).text
      = db.enact (.createTable table ifNotExists columns key interleaves) := by
  refine run_of_parse h.command ?_
  obtain ⟨hlength, hdeclarable⟩ := h
  have hparents : interleaves.head?.toList = interleaves := by
    clear hdeclarable
    cases interleaves with
    | nil => rfl
    | cons i is =>
      rw [List.length_eq_zero_iff.1 (Nat.le_zero.1 (Nat.le_of_succ_le_succ hlength))]
      rfl
  have hparse :=
    Dump.parse_declared hdeclarable ifNotExists (List.forall_mem_nil _) (List.forall_mem_nil _)
    (List.forall_mem_nil _)
  rwa [hparents, List.map_nil, List.foldl_nil] at hparse

theorem run_createIndex (horderly : db.Orderly) {i : Index} (h : i.Readable) :
    db.run i.sql = db.enact (.createIndex i) := by
  have hcommand : Command.ofText? i.sql = some (.createIndex i.name i.table) :=
    Ddl.Readable.command (d := .createIndex i) h
  rw [run, hcommand]
  dsimp only
  rw [createIndex, enact]
  split
  · rfl
  · cases ht : db.tables[i.table]? with
    | none =>
      simp only [demand, ht, reject]
      rfl
    | some t =>
      have hname := horderly.sound.named i.table t ht
      have hrestorable := horderly.restorable.tables i.table t ht
      have hown := hrestorable.sql_eq (horderly.sound.tables i.table t ht).schema
      have hdemand : db.demand i.table = .ok t := by rw [demand, ht]
      have hparse : Dump.parse (t.schema.creation ++ [i.sql]) = (do
          let u ← t.schema.restored.addIndex i
          Except.ok (((∅ : Schema).insert i.table t.schema.restored).insert i.table u)) := by
        rw [Dump.parse_concat_index (hrestorable.parse_creation (horderly.storable ht)) h,
          Dump.addIndex, hname, Std.ExtTreeMap.getElem?_insert_self]
        rfl
      cases hadd : t.schema.restored.addIndex i with
      | error e =>
        rw [hadd] at hparse
        simp only [hdemand, ok_bind, hown, hparse, hadd, Except.mapError]
        rfl
      | ok u =>
        have hlookup :
            (((∅ : Schema).insert i.table t.schema.restored).insert i.table u)[i.table]? = some u :=
          Std.ExtTreeMap.getElem?_insert_self
        rw [hadd, ok_bind] at hparse
        simp only [hdemand, ok_bind, hown, hparse, hadd, Except.mapError, hlookup]

theorem run_addColumn {table : String} {c : ColumnClause} (h : (Ddl.addColumn table c).Readable) :
    db.run (Ddl.addColumn table c).text = db.enact (.addColumn table c) := by
  have hread : Dump.columnOfText c.text.toList = .ok c.column :=
    Dump.reading_eq_ok.2 (Dump.readColumn_text h.2)
  rw [run, h.command]
  dsimp only [Ddl.command]
  rw [alterTable, addColumn, hread, enact]
  rfl

theorem run_alterColumn {table : String} {c : ColumnClause}
    (h : (Ddl.alterColumn table c).Readable) :
    db.run (Ddl.alterColumn table c).text = db.enact (.alterColumn table c) := by
  have hread : Dump.columnOfText c.definition.toList = .ok c.plain.column :=
    Dump.reading_eq_ok.2 (Dump.readColumn_text (c := c.plain) ⟨h.2.name, h.2.length⟩)
  rw [run, h.command]
  dsimp only [Ddl.command]
  rw [alterTable, alterColumn, hread, enact]
  rfl

/-- A text does what its statement says. Where it creates an index the database has to be one that
can be dumped. -/
theorem run_text {d : Ddl} (h : d.Readable) (horderly : ∀ i, d = .createIndex i → db.Orderly) :
    db.run d.text = db.enact d := by
  cases d with
  | createTable => exact run_createTable h
  | createIndex i => exact run_createIndex (horderly i rfl) h
  | addColumn => exact run_addColumn h
  | alterColumn => exact run_alterColumn h
  | _ =>
    rw [run, h.command]
    rfl

/-! ## Batches -/

/-- Changes the database on account of a text, which is remembered unless it is refused. -/
def attempt (text : String) (f : Database → Except Refusal Database) : DatabaseM Unit := fun db ↦
  match f db with
  | .ok db' => .ok () { db' with appliedDdl := db'.appliedDdl ++ [text] }
  | .error e => .error (e.toError text) db

theorem execute_eq_attempt {text : String} {f : Database → Except Refusal Database}
    (h : db.run text = f db) :
    execute text db = attempt text f db := by
  rw [attempt, ← h]
  cases hresult : db.run text with
  | error e => exact execute_of_run_error hresult
  | ok db' => exact execute_of_run hresult

/-- Enacts a statement. -/
def carryOut (d : Ddl) : DatabaseM Unit := attempt d.text (·.enact d)

theorem execute_text {d : Ddl} (h : d.Readable) (horderly : ∀ i, d = .createIndex i → db.Orderly) :
    execute d.text db = carryOut d db :=
  execute_eq_attempt (run_text h horderly)

end Database

section

variable {ε σ : Type} {lenient : Prop} {p : σ → Prop} {q : Ddl → Prop}
    {f g : Ddl → EStateM ε σ PUnit}

/-- Two programs do the same with the statements of a batch if they do so with each of them, be it
only from states with a property for those that create an index. The first has to keep this
property, though not with each statement, but with those together that belong together. -/
theorem Mirrors.agree {ds : List Ddl} {delta : Delta} (h : Mirrors lenient ds delta)
    (hds : ∀ d ∈ ds, q d) (heq : ∀ d s, q d → (∀ i, d = .createIndex i → p s) → f d s = g d s)
    (hkeeps : ∀ ds delta, Mirrors lenient ds delta → (∀ d ∈ ds, q d) → Keeps p (ds.forM f)) :
    Agree p (ds.forM f) (ds.forM g) := by
  have hpiece {ds : List Ddl} {delta : Delta} (h : Mirrors lenient ds delta) (hds : ∀ d ∈ ds, q d)
      (hindex : ∀ d ∈ ds, ∀ i, d ≠ .createIndex i) : Agree p (ds.forM f) (ds.forM g) := by
    have hsame : ds.forM f = ds.forM g :=
      forM_congr fun d hd ↦ funext fun s ↦ heq d s (hds d hd) fun i hi ↦ absurd hi (hindex d hd i)
    exact .of_eq (fun s _ ↦ congrFun hsame s) (hkeeps _ _ h hds)
  induction h with
  | createIndex hcolumns =>
    have hi := hds _ List.mem_cons_self
    exact .of_eq (fun s hs ↦ run_bind_congr (heq _ s hi fun _ _ ↦ hs))
      (hkeeps _ _ (.createIndex hcolumns) hds)
  | alterColumn table htimed habout =>
    refine hpiece (.alterColumn table htimed habout) hds ?_
    split <;> simp
  | @append ds ds' _ _ _ _ ih ih' =>
    have happend (f : Ddl → EStateM ε σ PUnit) : (ds ++ ds').forM f = (do ds.forM f; ds'.forM f) :=
      List.forM_append
    rw [happend, happend]
    exact .bind (ih fun d hd ↦ hds d (List.mem_append_left _ hd)) fun _ ↦
      ih' fun d hd ↦ hds d (List.mem_append_right _ hd)
  | _ => exact hpiece (by constructor <;> assumption) hds (by simp)

end

/-- Statements that are written without loss, in whatever they are lowered to. -/
structure Statement.Plain (statements : List Statement) : Prop where
  tame : ∀ x ∈ statements, ∀ n ∈ x.names, Tame n
  readable : ∀ l, lowerAll statements = .ok l → ∀ d ∈ l.ddl, d.Readable

namespace Statement

instance : DecidablePred Plain := fun statements ↦
  decidable_of_iff ((∀ x ∈ statements, ∀ n ∈ x.names, Tame n) ∧
      ∀ l ∈ (lowerAll statements).toOption, ∀ d ∈ l.ddl, d.Readable)
    ⟨fun ⟨htame, hreadable⟩ ↦ ⟨htame, fun l hl ↦ hreadable l (by rw [hl]; rfl)⟩,
      fun h ↦ ⟨h.tame, fun l hl ↦ h.readable l (eq_ok_of_toOption hl)⟩⟩

variable {statements : List Statement} {l : Lowered} (h : Plain statements)
    (hlower : lowerAll statements = .ok l)

include h hlower

/-- Two programs do the same with what plain statements are lowered to if they do so with what can
be read back. -/
theorem Plain.agree {ε σ : Type} {p : σ → Prop} {f g : Ddl → EStateM ε σ PUnit}
    (heq : ∀ d s, d.Readable → (∀ i, d = .createIndex i → p s) → f d s = g d s)
    (hkeeps : ∀ ds delta, Mirrors True ds delta → (∀ d ∈ ds, d.Tame) → Keeps p (ds.forM f)) :
    Agree p (l.ddl.forM f) (l.ddl.forM g) := by
  have hmirrors : Mirrors True l.ddl l.delta := mirrors_of_lowerAll hlower fun _ _ _ ↦ trivial
  exact hmirrors.agree (q := fun d ↦ d.Tame ∧ d.Readable)
    (fun d hd ↦ ⟨tame_of_lowerAll hlower h.tame d hd, h.readable l hlower d hd⟩)
    (fun d s hd ↦ heq d s hd.2)
    fun ds delta hmirrors hds ↦ hkeeps ds delta hmirrors fun d hd ↦ (hds d hd).1

/-- A batch does what its statements say, up to the first that is refused. -/
theorem Plain.agree_updateDdl :
    Agree Database.Orderly (Database.updateDdl l.sql) (l.ddl.forM Database.carryOut) := by
  have hforM (ds : List Ddl) : Database.updateDdl (ds.map Ddl.text) = ds.forM fun d ↦
    Database.execute d.text :=
    forM_map
  rw [Lowered.sql, hforM]
  refine h.agree hlower (fun d db hd horderly ↦ Database.execute_text hd horderly) fun ds delta
    hmirrors htame ↦ ?_
  rw [← hforM]
  exact Database.keeps_orderly_of_mirrors hmirrors htame

end Statement

/-! ## Texts that create a table -/

instance : DecidablePred Column.Restorable := fun c ↦
  decidable_of_iff (Closed c.name ∧ c.generation = none ∧
      ∀ d ∈ c.defaultValue, d = .commitTimestamp ∧ c.type = .timestamp)
    ⟨fun ⟨hclosed, hgeneration, htimed⟩ ↦ ⟨hclosed, hgeneration, htimed⟩,
      fun h ↦ ⟨h.closed, h.generation, h.timed⟩⟩

instance : DecidablePred Table.Restorable := fun t ↦
  decidable_of_iff ((∀ c ∈ t.columns, c.Restorable) ∧ (∀ n ∈ t.primaryKey, Listable n) ∧
    ∀ i ∈ t.indices, i.Readable)
    ⟨fun ⟨hcolumns, hkey, hindices⟩ ↦ ⟨hcolumns, hkey, hindices⟩,
     fun h ↦ ⟨h.columns, h.key, h.indices⟩⟩

/-- However it is written, the text creates the table, which can be written down and has no index
yet. -/
structure CreatesTable (text : String) (t : Table) : Prop where
  command : Command.ofText? text = some (.createTable t.name false)
  parse : Dump.parse [text] = .ok ((∅ : Schema).insert t.name t)
  restorable : t.Restorable
  indices : t.indices = []

instance (text : String) (t : Table) : Decidable (CreatesTable text t) :=
  decidable_of_iff (Command.ofText? text = some (.createTable t.name false) ∧
      (Dump.parse [text]).toOption = some ((∅ : Schema).insert t.name t) ∧ t.Restorable ∧
      t.indices = [])
    ⟨fun ⟨hcommand, hparse, hrestorable, hindices⟩ ↦
        ⟨hcommand, eq_ok_of_toOption hparse, hrestorable, hindices⟩,
      fun h ↦ ⟨h.command, by rw [h.parse]; rfl, h.restorable, h.indices⟩⟩

namespace CreatesTable

variable {text : String} {t : Table}

theorem execute_eq (h : CreatesTable text t) :
    Database.execute text = Database.attempt text (·.create t.name false t) :=
  funext fun _ ↦ Database.execute_eq_attempt (Database.run_of_parse h.command h.parse)

theorem keeps_orderly (h : CreatesTable text t) :
    Keeps Database.Orderly (Database.execute text) := by
  intro db hdb
  rcases Database.execute_cases text db with ⟨e, he⟩ | ⟨db', hrun, hok⟩
  · rwa [ending_of_error he]
  · have hstored : (db.store t.name { schema := t }).Restorable := by
      have hnames : t.indexNames = [] := List.map_eq_nil_iff.2 h.indices
      refine hdb.restorable.store h.restorable ?_ fun _ _ _ _ i hi ↦ ?_
      · exact hnames ▸ List.nodup_nil
      · exact absurd (hnames ▸ hi) List.not_mem_nil
    have hrestorable : db'.Restorable := by
      have hcreate := (Database.run_of_parse h.command h.parse).symm.trans hrun
      rw [Database.create] at hcreate
      split at hcreate
      · contradiction
      · split at hcreate
        · exact Except.ok.inj hcreate ▸ hstored
        · split at hcreate
          · exact Except.ok.inj hcreate ▸ hstored
          · contradiction
    rw [ending_of_ok hok]
    exact (hdb.of_run hrun hrestorable).applied _

end CreatesTable

namespace Database

variable {texts : List (String × Table)} (h : ∀ x ∈ texts, CreatesTable x.1 x.2)

include h

theorem updateDdl_creates :
    updateDdl (texts.map (·.1)) = texts.forM fun x ↦ attempt x.1 (·.create x.2.name false x.2) :=
  forM_map.trans (forM_congr fun x hx ↦ (h x hx).execute_eq)

theorem keeps_orderly_creates : Keeps Orderly (updateDdl (texts.map (·.1))) := by
  refine .forM fun text htext ↦ ?_
  obtain ⟨x, hx, rfl⟩ := List.mem_map.1 htext
  exact (h x hx).keeps_orderly

end Database

end SchemaLedger
