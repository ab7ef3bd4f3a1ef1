import Mathlib
import SchemaLedger.Proofs.Database.Edit
import SchemaLedger.Proofs.Database.Sound

/-!
# Rows and calls

A call about a row fails and leaves the database as it was, or counts one write and changes the rows
of one table under one key. So rows stay under the texts of their keys, and every database that
comes about by calls is sound.
-/

namespace SchemaLedger

/-- A table takes the values of columns as a row: each is the value of one of its columns, and those
of its key are among them. -/
structure Table.Takes (t : Table) (columns : List String) (values : List Json) : Prop where
  length_eq : columns.length = values.length
  declared : ∀ c ∈ columns, c ∈ t.columnNames
  key : ∀ c ∈ t.primaryKey, c ∈ columns

namespace Database

/-! ## Merged rows -/

theorem getElem?_mergeRow (old : Option Row) (fields : List (String × Json)) (c : String) :
    (mergeRow old fields)[c]? = ((mergeRow none fields)[c]?).or (old.getD ∅)[c]? := by
  have hfold (row : Row) : (fields.foldl (fun row f ↦ row.insert f.1 f.2) row)[c]?
      = ((fields.foldl (fun row f ↦ row.insert f.1 f.2) (∅ : Row))[c]?).or row[c]? := by
    induction fields generalizing row with
    | nil => rw [List.foldl_nil, List.foldl_nil, Std.ExtTreeMap.getElem?_empty, Option.none_or]
    | cons f fields ih =>
      rw [List.foldl_cons, List.foldl_cons, ih, ih ((∅ : Row).insert f.1 f.2), Option.or_assoc,
        Std.ExtTreeMap.getElem?_insert, Std.ExtTreeMap.getElem?_insert]
      split
      · rfl
      · rw [Std.ExtTreeMap.getElem?_empty, Option.none_or]
  exact hfold (old.getD ∅)

/-- Of several fields of one name the last one counts. -/
theorem getElem?_mergeRow_none (fields : List (String × Json)) (c : String) :
    (mergeRow none fields)[c]? = fields.reverse.lookup c := by
  have hfold (fs : List (String × Json)) :
      (fs.foldr (fun f row ↦ row.insert f.1 f.2) (∅ : Row))[c]? = fs.lookup c := by
    induction fs with
    | nil => rw [List.foldr_nil, List.lookup_nil, Std.ExtTreeMap.getElem?_empty]
    | cons f fs ih =>
      rw [List.foldr_cons, Std.ExtTreeMap.getElem?_insert, ih, List.lookup_cons]
      simp only [Std.LawfulEqOrd.compare_eq_iff_eq]
      by_cases hc : f.1 = c
      · rw [if_pos hc, beq_iff_eq.2 hc.symm]
      · rw [if_neg hc, beq_eq_false_iff_ne.2 (Ne.symm hc)]
  rw [mergeRow, Option.getD_none, ← hfold, List.foldr_reverse]

theorem isSome_mergeRow_none {fields : List (String × Json)} {c : String} :
    ((mergeRow none fields)[c]?).isSome = true ↔ c ∈ fields.map (·.1) := by
  rw [getElem?_mergeRow_none, List.lookup_isSome_iff]
  constructor
  · rintro ⟨f, hf, hc⟩
    exact List.mem_map.2 ⟨f, List.mem_reverse.1 hf, (beq_iff_eq.1 hc).symm⟩
  · rintro hc
    obtain ⟨f, hf, rfl⟩ := List.mem_map.1 hc
    exact ⟨f, List.mem_reverse.2 hf, beq_self_eq_true f.1⟩

/-- A row with all columns of a key has the values of the key, and no other row has. -/
theorem keyValues_eq_ok {key : List String} {row : Row} {values : List Json} :
    keyValues key row = .ok values ↔
      (∀ c ∈ key, (row[c]?).isSome = true) ∧ values = key.map fun c ↦ (row[c]?).getD .null := by
  constructor
  · intro h
    refine ⟨fun c hc ↦ ?_, eq_map_of_mapM h fun c _ v hv ↦ ?_⟩
    · obtain ⟨v, -, hv⟩ := exists_of_mapM h hc
      cases hrow : row[c]? with
      | none =>
        rw [hrow] at hv
        contradiction
      | some w => rfl
    · cases hrow : row[c]? with
      | none =>
        rw [hrow] at hv
        contradiction
      | some w =>
        rw [hrow] at hv
        exact (Except.ok.inj hv).symm
  · rintro ⟨h, rfl⟩
    have hvalues : keyValues (key.map id) row = .ok (key.map fun c ↦ (row[c]?).getD .null) := by
      refine mapM_ok fun c hc ↦ ?_
      obtain ⟨v, hv⟩ := Option.isSome_iff_exists.1 (h c hc)
      rw [id, hv]
      rfl
    rwa [List.map_id] at hvalues

/-- The fields of a row decide its key, whatever they are put over. -/
theorem keyValues_mergeRow {key : List String} {fields : List (String × Json)} {values : List Json}
    (h : keyValues key (mergeRow none fields) = .ok values) (old : Option Row) :
    keyValues key (mergeRow old fields) = .ok values := by
  refine mapM_mono (fun c _ v hv ↦ ?_) h
  rw [getElem?_mergeRow]
  cases hc : (mergeRow none fields)[c]? with
  | none =>
    rw [hc] at hv
    contradiction
  | some w =>
    rw [hc] at hv
    exact hv

/-! ## Changed rows -/

/-- The database with one more write counted. -/
def counted (db : Database) : Database := { db with writes := db.writes + 1 }

theorem getElem?_modifyRows (db : Database) (n : String)
    (f : Std.ExtTreeMap String Row → Std.ExtTreeMap String Row) (k : String) :
    (modifyRows n f db).tables[k]?
      = if n = k then db.tables[n]?.map fun t ↦ { t with rows := f t.rows } else db.tables[k]? := by
  rw [modifyRows, Std.ExtTreeMap.getElem?_modify]
  simp only [Std.LawfulEqOrd.compare_eq_iff_eq]

theorem schema_modifyRows (db : Database) (n : String)
    (f : Std.ExtTreeMap String Row → Std.ExtTreeMap String Row) :
    (modifyRows n f db).schema = db.schema := by
  refine Std.ExtTreeMap.ext_getElem? fun k ↦ ?_
  rw [schema, schema, Std.ExtTreeMap.getElem?_map, Std.ExtTreeMap.getElem?_map, getElem?_modifyRows]
  split
  · rename_i hk
    rw [Option.map_map, hk]
    rfl
  · rfl

theorem tableFor_of_some {db : Database} {name : String} {t : StoredTable}
    (h : db.tables[name]? = some t) (operation : String) :
    tableFor operation name db = .ok t db := by
  rw [tableFor, run_bind_of_ok (m := get) (a := db) (t := db) rfl, h]
  rfl

theorem tableFor_of_none {db : Database} {name : String} (h : db.tables[name]? = none)
    (operation : String) : ∃ e, tableFor operation name db = .error e db := by
  refine ⟨.client operation ("table '" ++ name ++ "' not found"), ?_⟩
  rw [tableFor, run_bind_of_ok (m := get) (a := db) (t := db) rfl, h]
  rfl

/-- A write is not refused. -/
def Writable (db : Database) : Prop := ∀ limit ∈ db.writeLimit, db.writes < limit

theorem recordWrite_outcome (operation : String) (db : Database) :
    (¬db.Writable ∧ ∃ e, recordWrite operation db = .error e db) ∨
      db.Writable ∧ recordWrite operation db = .ok () db.counted := by
  have hwritable : db.Writable ↔ ¬db.writeLimit.any (· ≤ db.writes) = true := by
    rw [Writable]
    cases db.writeLimit <;> simp
  rw [recordWrite, run_bind_of_ok (m := get) (a := db) (t := db) rfl, hwritable]
  split
  · rename_i hlimit
    exact Or.inl ⟨not_not.2 hlimit, _, rfl⟩
  · rename_i hlimit
    exact Or.inr ⟨hlimit, rfl⟩

/-- A row is written where its table takes it and the write is not refused; else nothing happens. -/
theorem upsertRow_outcome (table : String) (columns : List String) (values : List Json)
    (db : Database) :
    (¬(∃ t, db.tables[table]? = some t ∧ t.schema.Takes columns values ∧ db.Writable) ∧
        ∃ e, upsertRow table columns values db = .error e db) ∨
      ∃ t key, db.tables[table]? = some t ∧ t.schema.Takes columns values ∧ db.Writable ∧
        keyValues t.schema.primaryKey (mergeRow none (columns.zip values)) = .ok key ∧
        upsertRow table columns values db = .ok () (modifyRows table
          (·.alter (keyText key) fun old ↦ some (mergeRow old (columns.zip values)))
            db.counted) := by
  rw [upsertRow]
  dsimp only
  split
  · rename_i hlength
    exact Or.inl ⟨fun ⟨t, _, htakes, _⟩ ↦ hlength htakes.length_eq, _, rfl⟩
  · rename_i hlength
    have hlength : columns.length = values.length := not_not.1 hlength
    cases ht : db.tables[table]? with
    | none =>
      obtain ⟨e, he⟩ := tableFor_of_none ht "upsert_row"
      exact Or.inl ⟨fun ⟨t, htable, _⟩ ↦ by contradiction, e, run_bind_of_error he⟩
    | some t =>
      have hsame (u : StoredTable) (hu : some t = some u) : t = u := Option.some.inj hu
      rw [run_bind_of_ok (tableFor_of_some ht "upsert_row")]
      cases hmissing : columns.find? (!t.schema.hasColumn ·) with
      | some missing =>
        refine Or.inl ⟨fun ⟨u, hu, htakes, _⟩ ↦ ?_, _, rfl⟩
        obtain rfl := hsame u hu
        have hno := List.find?_some hmissing
        rw [Table.hasColumn_iff.2
          (htakes.declared missing (List.mem_of_find?_eq_some hmissing))] at hno
        contradiction
      | none =>
        have hdeclared : ∀ c ∈ columns, c ∈ t.schema.columnNames := fun c hc ↦
          Table.hasColumn_iff.1 (by simpa using List.find?_eq_none.1 hmissing c hc)
        have hnames : (columns.zip values).map (·.1) = columns :=
          List.map_fst_zip (le_of_eq hlength)
        cases hkey : keyValues t.schema.primaryKey (mergeRow none (columns.zip values)) with
        | error missing =>
          refine Or.inl ⟨fun ⟨u, hu, htakes, _⟩ ↦ ?_, _, rfl⟩
          obtain rfl := hsame u hu
          have hvalues := keyValues_eq_ok.2 ⟨fun c hc ↦
            isSome_mergeRow_none.2 (hnames.symm ▸ htakes.key c hc), rfl⟩
          rw [hkey] at hvalues
          contradiction
        | ok key =>
          have htakes : t.schema.Takes columns values :=
            ⟨hlength, hdeclared, fun c hc ↦
              hnames ▸ isSome_mergeRow_none.1 ((keyValues_eq_ok.1 hkey).1 c hc)⟩
          rcases recordWrite_outcome "upsert_row" db with ⟨hnot, e, he⟩ | ⟨hwritable, hcounted⟩
          · exact Or.inl ⟨fun ⟨_, _, _, hwritable⟩ ↦ hnot hwritable, e, run_bind_of_error he⟩
          · exact Or.inr ⟨t, key, rfl, htakes, hwritable, hkey, run_bind_of_ok hcounted⟩

/-- A row is deleted where the key has the length of the table's and the write is not refused; else
nothing happens. -/
theorem deleteRow_outcome (table : String) (key : List Json) (db : Database) :
    (¬(∃ t, db.tables[table]? = some t ∧ key.length = t.schema.primaryKey.length ∧ db.Writable) ∧
        ∃ e, deleteRow table key db = .error e db) ∨
      ∃ t, db.tables[table]? = some t ∧ key.length = t.schema.primaryKey.length ∧ db.Writable ∧
        deleteRow table key db = .ok () (modifyRows table (·.erase (keyText key)) db.counted) := by
  rw [deleteRow]
  cases ht : db.tables[table]? with
  | none =>
    obtain ⟨e, he⟩ := tableFor_of_none ht "delete_row"
    exact Or.inl ⟨fun ⟨t, htable, _⟩ ↦ by contradiction, e, run_bind_of_error he⟩
  | some t =>
    rw [run_bind_of_ok (tableFor_of_some ht "delete_row")]
    dsimp only
    split
    · rename_i hlength
      refine Or.inl ⟨fun ⟨u, hu, hlength', _⟩ ↦ ?_, _, rfl⟩
      obtain rfl := Option.some.inj hu
      exact hlength hlength'
    · rename_i hlength
      rcases recordWrite_outcome "delete_row" db with ⟨hnot, e, he⟩ | ⟨hwritable, hcounted⟩
      · exact Or.inl ⟨fun ⟨_, _, _, hwritable⟩ ↦ hnot hwritable, e, run_bind_of_error he⟩
      · exact Or.inr ⟨t, rfl, not_not.1 hlength, hwritable, run_bind_of_ok hcounted⟩

theorem upsertRow_cases (table : String) (columns : List String) (values : List Json)
    (db : Database) :
    (∃ e, upsertRow table columns values db = .error e db) ∨
      ∃ t key, db.tables[table]? = some t ∧
        keyValues t.schema.primaryKey (mergeRow none (columns.zip values)) = .ok key ∧
        upsertRow table columns values db = .ok () (modifyRows table
          (·.alter (keyText key) fun old ↦ some (mergeRow old (columns.zip values)))
            db.counted) := by
  rcases upsertRow_outcome table columns values db with ⟨-, he⟩ | ⟨t, key, ht, -, -, hkey, hok⟩
  · exact Or.inl he
  · exact Or.inr ⟨t, key, ht, hkey, hok⟩

theorem deleteRow_cases (table : String) (key : List Json) (db : Database) :
    (∃ e, deleteRow table key db = .error e db) ∨
      ∃ t, db.tables[table]? = some t ∧
        deleteRow table key db = .ok () (modifyRows table (·.erase (keyText key)) db.counted) := by
  rcases deleteRow_outcome table key db with ⟨-, he⟩ | ⟨t, ht, -, -, hok⟩
  · exact Or.inl he
  · exact Or.inr ⟨t, ht, hok⟩

/-- A call about a row keeps what is kept by the change of rows that it makes. -/
theorem keeps_upsertRow {p : Database → Prop} {table : String} {columns : List String}
    {values : List Json}
    (h : ∀ db t key, p db → db.tables[table]? = some t → t.schema.Takes columns values →
      keyValues t.schema.primaryKey (mergeRow none (columns.zip values)) = .ok key →
      p (modifyRows table
        (·.alter (keyText key) fun old ↦ some (mergeRow old (columns.zip values))) db.counted)) :
    Keeps p (upsertRow table columns values) := by
  intro db hdb
  rcases upsertRow_outcome table columns values db with
    ⟨-, e, he⟩ | ⟨t, key, ht, htakes, -, hkey, hok⟩
  · rwa [ending_of_error he]
  · rw [ending_of_ok hok]
    exact h db t key hdb ht htakes hkey

theorem keeps_deleteRow {p : Database → Prop} {table : String} {key : List Json}
    (h : ∀ db, p db → p (modifyRows table (·.erase (keyText key)) db.counted)) :
    Keeps p (deleteRow table key) := by
  intro db hdb
  rcases deleteRow_cases table key db with ⟨e, he⟩ | ⟨t, -, hok⟩
  · rwa [ending_of_error he]
  · rw [ending_of_ok hok]
    exact h db hdb

/-- A dump is written out exactly when all its tables are. -/
theorem schemaDdl_eq_ok {db db' : Database} {statements : List String} :
    schemaDdl db = .ok statements db' ↔ dumpStatements db.schema = .ok statements ∧ db' = db := by
  rw [schemaDdl, run_bind_of_ok (m := get) (a := db) (t := db) rfl]
  cases dumpStatements db.schema with
  | ok ss =>
    constructor
    · rintro ⟨⟩
      exact ⟨rfl, rfl⟩
    · rintro ⟨⟨⟩, rfl⟩
      rfl
  | error e =>
    constructor
    · rintro ⟨⟩
    · rintro ⟨⟨⟩, -⟩

end Database

/-! ## Calls -/

theorem StoredTable.Sound.upsert {t : StoredTable} (h : t.Sound) {fields : List (String × Json)}
    {key : List Json}
    (hkey : Database.keyValues t.schema.primaryKey (Database.mergeRow none fields) = .ok key) :
    StoredTable.Sound { t with
      rows := t.rows.alter (Database.keyText key) fun old ↦
        some (Database.mergeRow old fields) } := by
  refine ⟨h.schema, fun k row hrow ↦ ?_⟩
  dsimp only at hrow ⊢
  rw [Std.ExtTreeMap.getElem?_alter] at hrow
  split at hrow
  · rename_i hk
    obtain rfl := Option.some.inj hrow
    exact ⟨key, Database.keyValues_mergeRow hkey _, (Std.LawfulEqOrd.compare_eq_iff_eq.1 hk).symm⟩
  · exact h.keyed k row hrow

theorem StoredTable.Sound.erase {t : StoredTable} (h : t.Sound) (key : String) :
    StoredTable.Sound { t with rows := t.rows.erase key } := by
  refine ⟨h.schema, fun k row hrow ↦ h.keyed k row ?_⟩
  dsimp only at hrow
  rw [Std.ExtTreeMap.getElem?_erase] at hrow
  split at hrow
  · contradiction
  · exact hrow

namespace Database

theorem Sound.modifyRows {db : Database} (h : db.Sound) {n : String}
    {f : Std.ExtTreeMap String Row → Std.ExtTreeMap String Row}
    (hf : ∀ t, db.tables[n]? = some t → StoredTable.Sound { t with rows := f t.rows }) :
    (Database.modifyRows n f db).Sound := by
  refine ⟨fun k u hu ↦ ?_, fun k u hu ↦ ?_⟩
  all_goals
    rw [getElem?_modifyRows] at hu
    split at hu
  · obtain ⟨t, ht, rfl⟩ := Option.map_eq_some_iff.1 hu
    rename_i hn
    exact hn ▸ h.named n t ht
  · exact h.named k u hu
  · obtain ⟨t, ht, rfl⟩ := Option.map_eq_some_iff.1 hu
    exact hf t ht
  · exact h.tables k u hu

theorem Sound.counted {db : Database} (h : db.Sound) : db.counted.Sound := ⟨h.named, h.tables⟩

theorem keeps_sound_execute (statement : String) : Keeps Sound (execute statement) := by
  intro db h
  rcases execute_cases statement db with ⟨e, he⟩ | ⟨db', hrun, hok⟩
  · rw [ending_of_error he]
    exact h
  · rw [ending_of_ok hok]
    exact ⟨(h.run hrun).named, (h.run hrun).tables⟩

theorem keeps_sound_upsertRow (table : String) (columns : List String) (values : List Json) :
    Keeps Sound (upsertRow table columns values) := by
  refine keeps_upsertRow fun db t key h ht _ hkey ↦ h.counted.modifyRows fun u hu ↦ ?_
  obtain rfl : t = u := Option.some.inj (ht.symm.trans hu)
  exact (h.tables table t ht).upsert hkey

theorem keeps_sound_deleteRow (table : String) (key : List Json) :
    Keeps Sound (deleteRow table key) :=
  keeps_deleteRow fun _ h ↦ h.counted.modifyRows fun u hu ↦ (h.tables table u hu).erase _

/-- What commands keep in sound databases, and what does not depend on the statements that are
remembered, is kept by statements. -/
theorem keeps_updateDdl {p : Database → Prop}
    (hlog : ∀ {db : Database} (sql : List String), p db → p (db.log sql))
    (hrun : ∀ {db db' : Database} {statement : String}, db.Sound → p db →
      db.run statement = .ok db' → p db')
    (statements : List String) : Keeps (fun db ↦ db.Sound ∧ p db) (updateDdl statements) := by
  refine .forM fun x _ db ⟨hsound, h⟩ ↦ ⟨keeps_sound_execute x db hsound, ?_⟩
  rcases execute_cases x db with ⟨e, he⟩ | ⟨m, hm, hok⟩
  · rw [ending_of_error he]
    exact h
  · rw [ending_of_ok hok]
    exact hlog [x] (hrun hsound h hm)

theorem keeps_sound_updateDdl (statements : List String) : Keeps Sound (updateDdl statements) :=
  .forM fun s _ ↦ keeps_sound_execute s

/-- A call that may change a database. -/
inductive Call where
  | updateDdl (statements : List String)
  | upsertRow (table : String) (columns : List String) (values : List Json)
  | deleteRow (table : String) (key : List Json)
  | refuseAfter (n : Nat)
  | refuseNone

/-- The database after a call, whatever comes of it. -/
def Call.apply : Call → Database → Database
  | updateDdl statements => ending (Database.updateDdl statements)
  | upsertRow table columns values => ending (Database.upsertRow table columns values)
  | deleteRow table key => ending (Database.deleteRow table key)
  | refuseAfter n => (Database.refuseAfter · n)
  | refuseNone => Database.refuseNone

/-- A database that comes about by calls, from nothing or from a dump. -/
inductive Reachable : Database → Prop
  | empty : Reachable {}
  | ofDump {dump : String} {db : Database} : ofDump dump = .ok db → Reachable db
  | call {db : Database} (c : Call) : Reachable db → Reachable (c.apply db)

theorem schema_apply {c : Call} (hc : ∀ sql, c ≠ .updateDdl sql) (db : Database) :
    (c.apply db).schema = db.schema := by
  cases c with
  | updateDdl sql => exact absurd rfl (hc sql)
  | upsertRow table columns values =>
    exact keeps_upsertRow (p := (·.schema = db.schema))
      (fun m _ _ hm _ _ _ ↦ (schema_modifyRows m.counted _ _).trans hm) db rfl
  | deleteRow table key =>
    exact keeps_deleteRow (p := (·.schema = db.schema))
      (fun m hm ↦ (schema_modifyRows m.counted _ _).trans hm) db rfl
  | refuseAfter n => rfl
  | refuseNone => rfl

/-- What commands keep in sound databases, and what depends on the tables without their rows only,
is kept by any call. -/
theorem of_call {p : Database → Prop}
    (hschema : ∀ {db db' : Database}, db'.schema = db.schema → p db → p db')
    (hrun : ∀ {db db' : Database} {statement : String}, db.Sound → p db →
      db.run statement = .ok db' → p db')
    {db : Database} (hsound : db.Sound) (h : p db) (c : Call) : p (c.apply db) := by
  by_cases hc : ∃ sql, c = .updateDdl sql
  · obtain ⟨sql, rfl⟩ := hc
    have hkeeps := keeps_updateDdl (p := p) (fun _ ↦ hschema rfl) hrun sql
    exact (hkeeps db ⟨hsound, h⟩).2
  · exact hschema (schema_apply (fun sql hsql ↦ hc ⟨sql, hsql⟩) db) h

theorem sound_empty : Sound {} := by
  refine ⟨fun n t ht ↦ ?_, fun n t ht ↦ ?_⟩
  all_goals
    rw [getElem?_empty] at ht
    contradiction

theorem sound_ofSchema {statements : List String} {s : Schema} (h : Dump.parse statements = .ok s) :
    (ofSchema s).Sound := by
  refine ⟨fun n t ht ↦ ?_, fun n t ht ↦ ?_⟩
  · obtain ⟨u, hu, rfl⟩ := exists_of_ofSchema ht
    exact (Dump.sound_of_parse h hu).2
  · obtain ⟨u, hu, rfl⟩ := exists_of_ofSchema ht
    exact (Dump.sound_of_parse h hu).1.stored

theorem sound_ofDump {dump : String} {db : Database} (h : ofDump dump = .ok db) : db.Sound := by
  obtain ⟨s, hs, rfl⟩ := map_eq_ok h
  exact sound_ofSchema hs

theorem Sound.call {db : Database} (h : db.Sound) (c : Call) : (c.apply db).Sound := by
  cases c with
  | updateDdl statements => exact keeps_sound_updateDdl statements db h
  | upsertRow table columns values => exact keeps_sound_upsertRow table columns values db h
  | deleteRow table key => exact keeps_sound_deleteRow table key db h
  | refuseAfter n => exact ⟨h.named, h.tables⟩
  | refuseNone => exact ⟨h.named, h.tables⟩

theorem Reachable.sound {db : Database} (h : db.Reachable) : db.Sound := by
  induction h with
  | empty => exact sound_empty
  | ofDump h => exact sound_ofDump h
  | call c _ ih => exact ih.call c

end Database

end SchemaLedger
