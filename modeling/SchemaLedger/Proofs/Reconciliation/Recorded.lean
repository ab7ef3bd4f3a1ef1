import Mathlib
import SchemaLedger.Proofs.Database.Grounded
import SchemaLedger.Proofs.Reconciliation.Rows

/-!
# What a side table records

A fact is recorded if a row of the side table has its cells. Statements record nothing: a table is
made without rows, and what they do to one that is there takes from its rows at most. Only by
another name can rows come to be those of the side table. So what is recorded after statements was
recorded before, unless one of them has given a table the name of the side table.
-/

namespace SchemaLedger

open SideTable

/-! ## Statements that add -/

/-- Statements to which no steps of a ledger belong are such statements. -/
theorem Mirrors.adds {lenient : Prop} {ds : List Ddl} {delta : Delta} (h : Mirrors lenient ds delta)
    (hdelta : delta = []) : ∀ d ∈ ds, d.Adds := by
  induction h with
  | nil => exact fun d hd ↦ absurd hd List.not_mem_nil
  | createTable | createIndex | dropIndex | addColumn =>
    exact fun d hd ↦ List.mem_singleton.1 hd ▸ trivial
  | dropColumn | alterColumn | renameTable | dropTable => exact absurd hdelta (List.cons_ne_nil _ _)
  | append _ _ ih ih' =>
    obtain ⟨hfirst, hrest⟩ := List.append_eq_nil_iff.1 hdelta
    exact fun d hd ↦ (List.mem_append.1 hd).elim (ih hfirst d) (ih' hrest d)

namespace Command

/-- The name that a command gives to a table that is there. -/
def newName? : Command → Option String
  | alterTable _ (some (.renameTo n)) => some n
  | _ => none

/-- What takes nothing away gives no other name. -/
theorem newName?_eq_none {c : Command} (h : c.removes = []) : c.newName? = none := by
  cases c with
  | alterTable table action =>
    cases action with
    | none => rfl
    | some action =>
      cases action with
      | renameTo n => exact absurd h (List.cons_ne_nil _ _)
      | _ => rfl
  | _ => rfl

end Command

namespace Database

variable {sideTable : String} {db db' : Database} {f : Fact}

/-- There is a table of the name. -/
def HasTable (db : Database) (n : String) : Prop := ∃ t, db.tables[n]? = some t

instance (db : Database) (n : String) : Decidable (db.HasTable n) :=
  decidable_of_iff (db.tables[n]?.isSome = true) Option.isSome_iff_exists

/-- A row of the side table has the cells of the fact, and rows are kept under what tells facts
apart. -/
def Records (sideTable : String) (db : Database) (f : Fact) : Prop :=
  ∃ (t : StoredTable) (k : String) (row : Row), db.tables[sideTable]? = some t ∧
    t.schema.primaryKey = keyColumns ∧ t.rows[k]? = some row ∧ cellsOf row = cells f

/-! ## Statements -/

/-- A table that takes the place of another records what that recorded, if its rows come from
there. -/
theorem Records.of_store {n : String} {t u : StoredTable} (ht : db.tables[n]? = some t)
    (hkey : u.schema.primaryKey = t.schema.primaryKey)
    (hrows : ∀ (k : String) (row : Row), u.rows[k]? = some row → cellsOf row = cells f →
      ∃ row', t.rows[k]? = some row' ∧ cellsOf row' = cells f)
    (h : (db.store n u).Records sideTable f) : db.Records sideTable f := by
  obtain ⟨v, k, row, hv, hvkey, hrow, hcells⟩ := h
  rw [getElem?_store] at hv
  split at hv
  · rename_i hn
    obtain rfl := Option.some.inj hv
    obtain ⟨row', hrow', hcells'⟩ := hrows k row hrow hcells
    exact ⟨t, k, row', hn ▸ ht, hkey ▸ hvkey, hrow', hcells'⟩
  · exact ⟨v, k, row, hv, hvkey, hrow, hcells⟩

theorem Records.of_store_schema {n : String} {t : StoredTable} (ht : db.tables[n]? = some t)
    {u : Table} (hkey : u.primaryKey = t.schema.primaryKey) :
    (db.store n { t with schema := u }).Records sideTable f → db.Records sideTable f :=
  .of_store ht hkey fun _ row hrow hcells ↦ ⟨row, hrow, hcells⟩

/-- A row without one of its values is not that of a fact, unless the value is none of the
fact's. -/
theorem cellsOf_erase {row : Row} {column : String} (h : cellsOf (row.erase column) = cells f) :
    cellsOf row = cells f := by
  have hcolumn : column ∉ columns := by
    intro hcolumn
    have hnull : Json.null ∈ cells f := by
      rw [← h]
      refine List.mem_map.2 ⟨column, hcolumn, ?_⟩
      rw [Std.ExtTreeMap.getElem?_erase_self]
      rfl
    simp [cells] at hnull
  rw [← h]
  refine List.map_congr_left fun c hc ↦ ?_
  rw [Std.ExtTreeMap.getElem?_erase, if_neg]
  exact fun e ↦ hcolumn (Std.LawfulEqOrd.compare_eq_iff_eq.1 e ▸ hc)

theorem Records.of_createTable {statement name : String} {ifNotExists : Bool}
    (hok : db.createTable statement name ifNotExists = .ok db') (h : db'.Records sideTable f) :
    db.Records sideTable f := by
  rcases createTable_eq_ok hok with ⟨-, -, rfl⟩ | ⟨parsed, t, -, -, -, -, rfl⟩
  · exact h
  · obtain ⟨v, k, row, hv, hvkey, hrow, hcells⟩ := h
    rw [getElem?_store] at hv
    split at hv
    · obtain rfl := Option.some.inj hv
      exact absurd hrow (by simp)
    · exact ⟨v, k, row, hv, hvkey, hrow, hcells⟩

theorem Records.of_dropTable {name : String} {ifExists : Bool}
    (hok : db.dropTable name ifExists = .ok db')
    (h : db'.Records sideTable f) : db.Records sideTable f := by
  rcases dropTable_eq_ok hok with ⟨-, rfl⟩ | ⟨t, -, -, rfl⟩
  · exact h
  · obtain ⟨v, k, row, hv, hvkey, hrow, hcells⟩ := h
    dsimp only at hv
    rw [Std.ExtTreeMap.getElem?_erase] at hv
    split at hv
    · contradiction
    · exact ⟨v, k, row, hv, hvkey, hrow, hcells⟩

theorem Records.of_renameTable {old new : String} (hok : db.renameTable old new = .ok db')
    (hnew : new ≠ sideTable) (h : db'.Records sideTable f) : db.Records sideTable f := by
  obtain ⟨t, -, -, rfl⟩ := renameTable_eq_ok hok
  obtain ⟨v, k, row, hv, hvkey, hrow, hcells⟩ := h
  rcases renamed_cases hv with ⟨hside, -⟩ | ⟨-, -, u, hu, rfl⟩
  · exact absurd hside.symm hnew
  · exact ⟨u, k, row, hu, hvkey, hrow, hcells⟩

theorem Records.of_createIndex (hdb : db.Sound) {statement index table : String}
    (hok : db.createIndex statement index table = .ok db') :
    db'.Records sideTable f → db.Records sideTable f := by
  obtain ⟨t, own, parsed, u, -, ht, hown, hparsed, hu, rfl⟩ := createIndex_eq_ok hok
  obtain ⟨v, hv, -, -, -, hkey⟩ := (hdb.tables table t ht).schema.reread hown hparsed
  rw [hdb.named table t ht] at hv
  obtain rfl : u = v := Option.some.inj (hu.symm.trans hv)
  exact .of_store_schema ht hkey

theorem Records.of_alterTable {table : String} {action : TableAction}
    (hok : db.alterTable table action = .ok db')
    (hnew : (Command.alterTable table (some action)).newName? ≠ some sideTable) :
    db'.Records sideTable f → db.Records sideTable f := by
  cases action with
  | addColumn text =>
    obtain ⟨c, t, -, ht, -, rfl⟩ := addColumn_eq_ok hok
    exact .of_store_schema ht rfl
  | dropColumn column =>
    obtain ⟨t, ht, -, -, -, rfl⟩ := dropColumn_eq_ok hok
    refine .of_store ht rfl fun k row hrow hcells ↦ ?_
    dsimp only at hrow
    rw [Std.ExtTreeMap.getElem?_map] at hrow
    obtain ⟨row', hrow', rfl⟩ := Option.map_eq_some_iff.1 hrow
    exact ⟨row', hrow', cellsOf_erase hcells⟩
  | allowCommitTimestamp column allowed =>
    obtain ⟨t, ht, -, rfl⟩ := allowCommitTimestamp_eq_ok hok
    exact .of_store_schema ht rfl
  | alterColumn text =>
    obtain ⟨c, t, -, ht, -, rfl⟩ := alterColumn_eq_ok hok
    exact .of_store_schema ht rfl
  | renameTo new => exact .of_renameTable hok fun e ↦ hnew (congrArg some e)

/-- The statement gives the name to a table that is there. -/
def GivesName (n statement : String) : Prop :=
  (Command.ofText? statement).bind Command.newName? = some n

instance (n x : String) : Decidable (GivesName n x) := inferInstanceAs (Decidable (_ = _))

/-- What takes nothing away gives no name. -/
theorem not_givesName {n x : String} (h : ∀ c, Command.ofText? x = some c → c.removes = []) :
    ¬GivesName n x := by
  rw [GivesName]
  cases hc : Command.ofText? x with
  | none => nofun
  | some c =>
    rw [Option.bind_some, Command.newName?_eq_none (h c hc)]
    nofun

/-- A statement records nothing. -/
theorem Records.of_run (hdb : db.Sound) {statement : String} (hok : db.run statement = .ok db')
    (hnew : ¬GivesName sideTable statement) : db'.Records sideTable f → db.Records sideTable f := by
  rw [GivesName] at hnew
  rw [run] at hok
  cases hcommand : Command.ofText? statement with
  | none =>
    rw [hcommand] at hok
    contradiction
  | some command =>
    rw [hcommand] at hok hnew
    cases command with
    | createTable name ifNotExists => exact .of_createTable hok
    | createIndex name table => exact .of_createIndex hdb hok
    | dropTable name ifExists => exact .of_dropTable hok
    | dropIndex name =>
      obtain ⟨owner, t, -, ht, rfl⟩ := dropIndex_eq_ok hok
      exact .of_store_schema ht rfl
    | alterTable table action =>
      cases action with
      | none => contradiction
      | some action => exact .of_alterTable hok hnew

/-- Statements record nothing, however many of them are accepted. -/
theorem exists_accepted (sideTable : String) (sql : List String) (hdb : db.Sound) :
    ∃ accepted, accepted <+: sql ∧
      (ending (updateDdl sql) db).appliedDdl = db.appliedDdl ++ accepted ∧
      ((∀ x ∈ accepted, ¬GivesName sideTable x) → ∀ f,
        (ending (updateDdl sql) db).Records sideTable f → db.Records sideTable f) := by
  induction sql generalizing db with
  | nil => exact ⟨[], List.prefix_rfl, (List.append_nil _).symm, fun _ _ h ↦ h⟩
  | cons x sql ih =>
    have hcons : updateDdl (x :: sql) = (do execute x; updateDdl sql) := rfl
    rcases execute_cases x db with ⟨e, he⟩ | ⟨m, hm, hok⟩
    · rw [hcons, ending_bind_of_error he]
      exact ⟨[], List.nil_prefix, (List.append_nil _).symm, fun _ _ h ↦ h⟩
    · have hlogged : (m.log [x]).Sound := ⟨(hdb.run hm).named, (hdb.run hm).tables⟩
      obtain ⟨accepted, haccepted, happlied, hrecords⟩ := ih hlogged
      rw [hcons, ending_bind_of_ok hok]
      refine ⟨x :: accepted, List.cons_prefix_cons.2 ⟨rfl, haccepted⟩, ?_, fun hnew f hf ↦ ?_⟩
      · have hsame : m.appliedDdl = db.appliedDdl := by rw [eq_of_run hm]
        refine happlied.trans ?_
        rw [log, hsame, List.append_assoc]
        rfl
      · refine .of_run hdb hm (hnew x List.mem_cons_self) ?_
        exact hrecords (fun y hy ↦ hnew y (List.mem_cons_of_mem x hy)) f hf

/-- Statements that take nothing from a table leave it, however many of them are accepted. -/
theorem extends_of_updateDdl {n : String} (sql : List String) (hdb : db.Sound)
    (hkeep : ∀ x ∈ sql, ∀ c, Command.ofText? x = some c → n ∉ c.removes) :
    (ending (updateDdl sql) db).Extends db n := by
  have hkeeps : Keeps (fun m ↦ m.Sound ∧ m.Extends db n) (updateDdl sql) := by
    refine .forM fun x hx m ⟨hm, hextends⟩ ↦ ⟨keeps_sound_execute x m hm, ?_⟩
    rcases execute_cases x m with ⟨e, he⟩ | ⟨m', hrun, hok⟩
    · rwa [ending_of_error he]
    · rw [ending_of_ok hok]
      have hstep : m'.Extends m n := hm.extends_of_run hrun (hkeep x hx)
      exact hstep.trans hextends
  exact (hkeeps db ⟨hdb, .refl db n⟩).2

theorem HasTable.of_extends {n : String} (h : db'.Extends db n) :
    db.HasTable n → db'.HasTable n := by
  rintro ⟨t, ht⟩
  obtain ⟨u, hu, -⟩ := h t ht
  exact ⟨u, hu⟩

theorem exists_of_schema {n : String} (h : db'.schema = db.schema) {u : StoredTable}
    (hu : db'.tables[n]? = some u) : ∃ t, db.tables[n]? = some t ∧ t.schema = u.schema := by
  have hlookup := getElem?_schema db' n
  rw [h, getElem?_schema, hu] at hlookup
  exact Option.map_eq_some_iff.1 hlookup

theorem hasTable_congr {n : String} (h : db'.schema = db.schema) :
    db'.HasTable n ↔ db.HasTable n := by
  constructor
  · rintro ⟨u, hu⟩
    obtain ⟨t, ht, -⟩ := exists_of_schema h hu
    exact ⟨t, ht⟩
  · rintro ⟨t, ht⟩
    obtain ⟨u, hu, -⟩ := exists_of_schema h.symm ht
    exact ⟨u, hu⟩

/-- There is a table where there is a column of it. -/
theorem hasTable_of_existsIn (h : f.existsIn db.schema = true) : db.HasTable f.table := by
  obtain ⟨t, ht, -⟩ := Fact.existsIn_schema.1 h
  exact ⟨t, ht⟩

/-! ## Writes -/

/-- Where rows of the side table come from. -/
theorem Records.of_modifyRows {g : Std.ExtTreeMap String Row → Std.ExtTreeMap String Row} {p : Prop}
    (hrows : ∀ (rows : Std.ExtTreeMap String Row) (k : String) (row : Row),
      (g rows)[k]? = some row →
      cellsOf row = cells f → rows[k]? = some row ∨ p)
    (h : (modifyRows sideTable g db.counted).Records sideTable f) : db.Records sideTable f ∨ p := by
  obtain ⟨t, k, row, ht, hkey, hrow, hcells⟩ := h
  rw [getElem?_modifyRows, if_pos rfl] at ht
  obtain ⟨u, hu, rfl⟩ := Option.map_eq_some_iff.1 ht
  rcases hrows u.rows k row hrow hcells with hold | hp
  · exact .inl ⟨u, k, row, hu, hkey, hold, hcells⟩
  · exact .inr hp

theorem Records.of_upsertRow {g : Fact}
    (h : (ending (upsertRow sideTable columns (cells g)) db).Records sideTable f) :
    db.Records sideTable f ∨ f.table = g.table := by
  rcases upsertRow_cases sideTable columns (cells g) db with ⟨e, he⟩ | ⟨t, key, -, -, hok⟩
  · rw [ending_of_error he] at h
    exact .inl h
  · rw [ending_of_ok hok] at h
    refine h.of_modifyRows fun rows k row hrow hcells ↦ ?_
    rw [Std.ExtTreeMap.getElem?_alter] at hrow
    split at hrow
    · obtain rfl := Option.some.inj hrow
      rw [cellsOf_mergeRow] at hcells
      exact .inr (Json.string.inj (List.cons.inj hcells).1).symm
    · exact .inl hrow

theorem Records.of_deleteRow {key : List Json}
    (h : (ending (deleteRow sideTable key) db).Records sideTable f) : db.Records sideTable f := by
  rcases deleteRow_cases sideTable key db with ⟨e, he⟩ | ⟨t, -, hok⟩
  · rw [ending_of_error he] at h
    exact h
  · rw [ending_of_ok hok] at h
    refine (h.of_modifyRows (p := False) fun rows k row hrow _ ↦ .inl ?_).resolve_right id
    rw [Std.ExtTreeMap.getElem?_erase] at hrow
    split at hrow
    · contradiction
    · exact hrow

/-! ## Ledgers -/

/-- What is recorded is in the ledger that is loaded. -/
theorem Records.mem_entries (hdb : db.Sound) {l : Ledger} (hl : stored sideTable db = .ok l)
    (h : db.Records sideTable f) : f ∈ l.entries := by
  obtain ⟨t, k, row, ht, hkey, hrow, hcells⟩ := h
  obtain ⟨u, hu, hcolumns, hrows⟩ := stored_eq_ok.1 hl
  obtain rfl := Option.some.inj (ht.symm.trans hu)
  have hside : t.schema.IsSideTable := ⟨hcolumns, hkey⟩
  have hk := key_of_cells (hdb.tables sideTable t ht) hside hrow hcells
  exact Ledger.mem_entries.2 ((get?_of_readRows (hdb.tables sideTable t ht) hside hrows f).2
    ⟨row, hk ▸ hrow, hcells⟩)

/-- What is loaded is recorded, if the side table has the usual key. -/
theorem records_of_mem_entries (hdb : db.Sound) {l : Ledger} (hl : stored sideTable db = .ok l)
    (hkey : ∀ t, db.tables[sideTable]? = some t → t.schema.primaryKey = keyColumns)
    (hf : f ∈ l.entries) : db.Records sideTable f := by
  obtain ⟨t, ht, hcolumns, hrows⟩ := stored_eq_ok.1 hl
  obtain ⟨row, hrow, hcells⟩ :=
    (get?_of_readRows (hdb.tables sideTable t ht) ⟨hcolumns, hkey t ht⟩ hrows f).1
    (Ledger.mem_entries.1 hf)
  exact ⟨t, _, row, ht, hkey t ht, hrow, hcells⟩

end Database

end SchemaLedger
