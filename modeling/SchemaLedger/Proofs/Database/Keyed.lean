import Mathlib
import SchemaLedger.Proofs.Database.Rows
import SchemaLedger.Proofs.FiniteMap
import SchemaLedger.Proofs.Json

/-!
# Rows as a map of keys

As long as the tables stay as they are, what is read of a table is told by the writes that have been
accepted, in their order: a key has a row if it has been written since it was last deleted, and a
column has the value of the last of these writes that named it. Which calls are accepted is told by
the tables and by how many more writes there is room for. Calls that are not accepted leave no
trace.
-/

namespace SchemaLedger

/-- Two lists of values are one key: they are equal once the fields of objects are in order. -/
def SameKey (a b : List Json) : Prop := Json.canonicalItems a = Json.canonicalItems b

/-- A key has a row of its own. -/
theorem sameKey_iff {a b : List Json} : SameKey a b ↔ Database.keyText a = Database.keyText b :=
  Database.keyText_eq_iff.symm

instance : DecidableRel SameKey := fun _ _ ↦ decidable_of_iff _ sameKey_iff.symm

instance (t : Table) (columns : List String) (values : List Json) :
    Decidable (t.Takes columns values) :=
  decidable_of_iff (columns.length = values.length ∧ (∀ c ∈ columns, c ∈ t.columnNames) ∧
      ∀ c ∈ t.primaryKey, c ∈ columns)
    ⟨fun h ↦ ⟨h.1, h.2.1, h.2.2⟩, fun h ↦ ⟨h.length_eq, h.declared, h.key⟩⟩

/-! ## Writes -/

/-- The fields of a row in the order in which they are written. -/
abbrev Fields := List (String × Json)

/-- A write that a table takes: fields are put over the row of a key, or the row is deleted. -/
inductive RowWrite where
  | upsert (table : String) (key : List Json) (fields : Fields)
  | delete (table : String) (key : List Json)

namespace RowWrite

/-- The upserts of a key since it was last deleted, after one more write. -/
def onto (table : String) (key : List Json) (done : List Fields) : RowWrite → List Fields
  | upsert t k fields => if t = table ∧ SameKey k key then done ++ [fields] else done
  | delete t k => if t = table ∧ SameKey k key then [] else done

end RowWrite

/-- The upserts of a key since it was last deleted, in order. -/
def upsertsSince (table : String) (key : List Json) (ws : List RowWrite) : List Fields :=
  ws.foldl (RowWrite.onto table key) []

/-- The value of a column after upserts: the one of the last that names the column. -/
def lastValue (us : List Fields) (column : String) : Json :=
  (us.reverse.findSome? fun fields ↦ fields.reverse.lookup column).getD .null

/-! ## Calls about rows -/

/-- A call that leaves the tables as they are. -/
inductive RowCall where
  | upsert (table : String) (columns : List String) (values : List Json)
  | delete (table : String) (key : List Json)
  | refuseAfter (n : Nat)
  | refuseNone

namespace RowCall

/-- The program of a call. -/
def program : RowCall → DatabaseM Unit
  | upsert table columns values => Database.upsertRow table columns values
  | delete table key => Database.deleteRow table key
  | refuseAfter n => modify (Database.refuseAfter · n)
  | refuseNone => modify Database.refuseNone

/-- The database after calls, whatever comes of each. -/
def runAll (db : Database) (calls : List RowCall) : Database :=
  calls.foldl (fun db c ↦ ending c.program db) db

/-- The write that a call asks for, if its table takes it. -/
def write? (s : Schema) : RowCall → Option RowWrite
  | upsert table columns values => (s[table]?).bind fun t ↦
      if t.Takes columns values then
        some (.upsert table
          (t.primaryKey.map fun c ↦ ((columns.zip values).reverse.lookup c).getD .null)
          (columns.zip values))
      else none
  | delete table key => (s[table]?).bind fun t ↦
      if key.length = t.primaryKey.length then some (.delete table key) else none
  | refuseAfter _ => none
  | refuseNone => none

end RowCall

/-- What has come of calls: the accepted writes in order, and how many more there is room for. -/
structure History where
  writes : List RowWrite
  room : Option Nat

namespace History

/-- A call is accepted: it does not write, or its table takes what it writes and there is room. -/
def accepts (s : Schema) (h : History) : RowCall → Bool
  | .refuseAfter _ => true
  | .refuseNone => true
  | c => (c.write? s).isSome && h.room != some 0

/-- The history with one more write. -/
def add (h : History) (w : RowWrite) : History := ⟨h.writes ++ [w], h.room.map (· - 1)⟩

/-- The history after one more call. -/
def after (s : Schema) (h : History) : RowCall → History
  | .refuseAfter n => { h with room := some n }
  | .refuseNone => { h with room := none }
  | c =>
    match c.write? s with
    | some w => if h.room = some 0 then h else h.add w
    | none => h

/-- The history of calls to a database. -/
def ofCalls (db : Database) (calls : List RowCall) : History :=
  calls.foldl (after db.schema) ⟨[], db.writeLimit.map (· - db.writes)⟩

variable {s : Schema} {h : History} {c : RowCall}

theorem after_of_write? {w : RowWrite} (hw : c.write? s = some w) (hroom : h.room ≠ some 0) :
    h.after s c = h.add w := by
  have hwrite : (match c.write? s with
      | some w => if h.room = some 0 then h else h.add w
      | none => h) = h.add w := by
    rw [hw]
    exact if_neg hroom
  cases c with
  | upsert table columns values => exact hwrite
  | delete table key => exact hwrite
  | refuseAfter n => contradiction
  | refuseNone => contradiction

/-- What is not accepted leaves no trace. -/
theorem after_of_accepts_eq_false (hnot : h.accepts s c = false) : h.after s c = h := by
  have hwrite (hc : ((c.write? s).isSome && h.room != some 0) = false) :
      (match c.write? s with
        | some w => if h.room = some 0 then h else h.add w
        | none => h) = h := by
    cases hw : c.write? s with
    | none => rfl
    | some w =>
      rw [hw, Option.isSome_some, Bool.true_and, bne_eq_false_iff_eq] at hc
      exact if_pos hc
  cases c with
  | upsert table columns values => exact hwrite hnot
  | delete table key => exact hwrite hnot
  | refuseAfter n => contradiction
  | refuseNone => contradiction

end History

/-! ## Rows after writes -/

/-- The row of a key after upserts. -/
def rowAfter : List Fields → Option Row
  | [] => none
  | us => some (Database.mergeRow none us.flatten)

theorem getD_rowAfter (us : List Fields) :
    (rowAfter us).getD ∅ = Database.mergeRow none us.flatten := by
  cases us <;> rfl

theorem rowAfter_append (us : List Fields) (fields : Fields) :
    rowAfter (us ++ [fields]) = some (Database.mergeRow (rowAfter us) fields) := by
  have hsome :
      rowAfter (us ++ [fields]) = some (Database.mergeRow none (us ++ [fields]).flatten) := by
    cases us <;> rfl
  rw [hsome, Database.mergeRow, Database.mergeRow, getD_rowAfter, Database.mergeRow,
    List.flatten_append, List.foldl_append, List.flatten_singleton]

theorem getElem?_mergeRow_flatten (us : List Fields) (c : String) :
    ((Database.mergeRow none us.flatten)[c]?).getD .null = lastValue us c := by
  have hlookup (us : List Fields) :
      us.flatten.reverse.lookup c = us.reverse.findSome? fun fields ↦ fields.reverse.lookup c := by
    induction us with
    | nil => rfl
    | cons fields us ih =>
      rw [List.flatten_cons, List.reverse_append, List.lookup_append, ih, List.reverse_cons,
        List.findSome?_append]
      simp only [List.findSome?_cons, List.findSome?_nil]
      cases fields.reverse.lookup c <;> rfl
  rw [Database.getElem?_mergeRow_none, hlookup, lastValue]

theorem upsertsSince_append (table : String) (key : List Json) (ws : List RowWrite) (w : RowWrite) :
    upsertsSince table key (ws ++ [w]) = w.onto table key (upsertsSince table key ws) := by
  rw [upsertsSince, List.foldl_append, List.foldl_cons, List.foldl_nil, upsertsSince]

/-- Rows are those of the keys that have been written, each under the text of its key. -/
structure RowsFollow (table : String) (ws : List RowWrite) (rows : Std.ExtTreeMap String Row) :
    Prop where
  row : ∀ key : List Json, rows[Database.keyText key]? = rowAfter (upsertsSince table key ws)
  keyed : ∀ (k : String) (row : Row), rows[k]? = some row → ∃ key, k = Database.keyText key

namespace RowsFollow

variable {table : String} {ws : List RowWrite} {rows : Std.ExtTreeMap String Row}

theorem empty (table : String) : RowsFollow table [] ∅ :=
  ⟨fun _ ↦ Std.ExtTreeMap.getElem?_empty, fun k row h ↦ by
    rw [Std.ExtTreeMap.getElem?_empty] at h
    contradiction⟩

variable (h : RowsFollow table ws rows)

include h

theorem upsert (key : List Json) (fields : Fields) :
    RowsFollow table (ws ++ [.upsert table key fields])
      (rows.alter (Database.keyText key) fun old ↦ some (Database.mergeRow old fields)) := by
  refine ⟨fun key' ↦ ?_, fun k row hrow ↦ ?_⟩
  · rw [Std.ExtTreeMap.getElem?_alter, upsertsSince_append, RowWrite.onto]
    simp only [Std.LawfulEqOrd.compare_eq_iff_eq, true_and]
    by_cases hkey : Database.keyText key = Database.keyText key'
    · rw [if_pos hkey, if_pos (sameKey_iff.2 hkey), hkey, h.row, rowAfter_append]
    · rw [if_neg hkey, if_neg (mt sameKey_iff.1 hkey), h.row]
  · rw [Std.ExtTreeMap.getElem?_alter] at hrow
    split at hrow
    · rename_i hk
      exact ⟨key, (Std.LawfulEqOrd.compare_eq_iff_eq.1 hk).symm⟩
    · exact h.keyed k row hrow

theorem delete (key : List Json) :
    RowsFollow table (ws ++ [.delete table key]) (rows.erase (Database.keyText key)) := by
  refine ⟨fun key' ↦ ?_, fun k row hrow ↦ ?_⟩
  · rw [Std.ExtTreeMap.getElem?_erase, upsertsSince_append, RowWrite.onto]
    simp only [Std.LawfulEqOrd.compare_eq_iff_eq, true_and]
    by_cases hkey : Database.keyText key = Database.keyText key'
    · rw [if_pos hkey, if_pos (sameKey_iff.2 hkey)]
      rfl
    · rw [if_neg hkey, if_neg (mt sameKey_iff.1 hkey), h.row]
  · rw [Std.ExtTreeMap.getElem?_erase] at hrow
    split at hrow
    · contradiction
    · exact h.keyed k row hrow

/-- A write to another table changes nothing here. -/
theorem elsewhere {w : RowWrite} (hw : ∀ key done, w.onto table key done = done) :
    RowsFollow table (ws ++ [w]) rows :=
  ⟨fun key ↦ by rw [upsertsSince_append, hw, h.row], h.keyed⟩

/-- The rows in the order of their keys, each with what has been written to it. -/
theorem exists_keys : ∃ keys : List (List Json),
    keys.Pairwise (fun a b ↦ ¬SameKey a b) ∧
      (∀ key, (∃ k ∈ keys, SameKey k key) ↔ upsertsSince table key ws ≠ []) ∧
      rows.values = keys.map fun key ↦
        Database.mergeRow none (upsertsSince table key ws).flatten := by
  have hmem {p : String × Row} (hp : p ∈ rows.toList) : rows[p.1]? = some p.2 :=
    Std.ExtTreeMap.mem_toList_iff_getElem?_eq_some.1 hp
  obtain ⟨keys, hkeys⟩ : ∃ keys : List (List Json),
      keys.map Database.keyText = rows.toList.map Prod.fst := by
    have hrange : rows.toList.map Prod.fst ∈ Set.range (List.map Database.keyText) := by
      rw [Set.range_list_map]
      rintro k hk
      obtain ⟨p, hp, rfl⟩ := List.mem_map.1 hk
      obtain ⟨key, hkey⟩ := h.keyed p.1 p.2 (hmem hp)
      exact ⟨key, hkey.symm⟩
    exact hrange
  refine ⟨keys, ?_, fun key ↦ ?_, ?_⟩
  · have hdistinct : (rows.toList.map Prod.fst).Pairwise fun a b ↦ ¬compare a b = .eq :=
      List.pairwise_map.2 Std.ExtTreeMap.distinct_keys_toList
    rw [← hkeys] at hdistinct
    refine (List.pairwise_map.1 hdistinct).imp fun hne hsame ↦ hne ?_
    rw [sameKey_iff.1 hsame, Std.ReflOrd.compare_self]
  · constructor
    · rintro ⟨k, hk, hsame⟩ hnone
      obtain ⟨p, hp, hpk⟩ := List.mem_map.1 (hkeys ▸ List.mem_map_of_mem hk)
      have hrow := h.row key
      rw [hnone, ← sameKey_iff.1 hsame, ← hpk, hmem hp] at hrow
      contradiction
    · intro hsome
      cases hus : upsertsSince table key ws with
      | nil => exact absurd hus hsome
      | cons fields us =>
        have hrow := h.row key
        rw [hus] at hrow
        have hk : Database.keyText key ∈ keys.map Database.keyText := by
          rw [hkeys]
          exact List.mem_map_of_mem (Std.ExtTreeMap.mem_toList_iff_getElem?_eq_some.2 hrow)
        obtain ⟨k, hk, hsame⟩ := List.mem_map.1 hk
        exact ⟨k, hk, sameKey_iff.2 hsame⟩
  · have hvalues : rows.toList.map Prod.snd
        = (rows.toList.map Prod.fst).map fun k ↦ (rows[k]?).getD ∅ := by
      rw [List.map_map]
      exact List.map_congr_left fun p hp ↦ by rw [Function.comp_apply, hmem hp, Option.getD_some]
    rw [values_eq, hvalues, ← hkeys, List.map_map]
    exact List.map_congr_left fun key _ ↦ by rw [Function.comp_apply, h.row, getD_rowAfter]

end RowsFollow

/-! ## Databases after calls -/

namespace Database

variable {start db : Database} {h : History}

section

variable {table : String} {columns : List String} {values key : List Json} {t : StoredTable}

theorem write?_upsert (ht : db.tables[table]? = some t) (htakes : t.schema.Takes columns values)
    (hkey : keyValues t.schema.primaryKey (mergeRow none (columns.zip values)) = .ok key) :
    (RowCall.upsert table columns values).write? db.schema
      = some (.upsert table key (columns.zip values)) := by
  rw [RowCall.write?, getElem?_schema, ht, Option.map_some, Option.bind_some, if_pos htakes,
    (keyValues_eq_ok.1 hkey).2]
  simp only [getElem?_mergeRow_none]

theorem isSome_write?_upsert :
    ((RowCall.upsert table columns values).write? db.schema).isSome = true ↔
    ∃ t, db.tables[table]? = some t ∧ t.schema.Takes columns values := by
  rw [RowCall.write?, getElem?_schema]
  cases db.tables[table]? with
  | none => simp
  | some t => simp

theorem write?_delete (ht : db.tables[table]? = some t)
    (hlength : key.length = t.schema.primaryKey.length) :
    (RowCall.delete table key).write? db.schema = some (.delete table key) := by
  rw [RowCall.write?, getElem?_schema, ht, Option.map_some, Option.bind_some, if_pos hlength]

theorem isSome_write?_delete : ((RowCall.delete table key).write? db.schema).isSome = true ↔
    ∃ t, db.tables[table]? = some t ∧ key.length = t.schema.primaryKey.length := by
  rw [RowCall.write?, getElem?_schema]
  cases db.tables[table]? with
  | none => simp
  | some t => simp

end

/-- A database is one that a history leads to from another. -/
structure Follows (start : Database) (h : History) (db : Database) : Prop where
  schema : db.schema = start.schema
  room : h.room = db.writeLimit.map (· - db.writes)
  writes : db.writes = start.writes + h.writes.length
  rows : ∀ (n : String) (t u : StoredTable), start.tables[n]? = some t → t.rows = ∅ →
    db.tables[n]? = some u → RowsFollow n h.writes u.rows

theorem writable_iff : db.Writable ↔ db.writeLimit.map (· - db.writes) ≠ some 0 := by
  rw [Writable]
  cases db.writeLimit with
  | none => simp
  | some limit =>
    simp only [Option.mem_some_iff, forall_eq', Option.map_some, ne_eq, Option.some.injEq]
    omega

namespace Follows

theorem refl (start : Database) :
    Follows start ⟨[], start.writeLimit.map (· - start.writes)⟩ start := by
  refine ⟨rfl, rfl, rfl, fun n t u ht hempty hu ↦ ?_⟩
  obtain rfl := Option.some.inj (ht.symm.trans hu)
  exact hempty ▸ .empty n

variable (hdb : Follows start h db)

include hdb

/-- An accepted write changes the rows of one table and counts. -/
theorem add {w : RowWrite} {n : String}
    {f : Std.ExtTreeMap String Row → Std.ExtTreeMap String Row}
    (hf : ∀ rows, RowsFollow n h.writes rows → RowsFollow n (h.writes ++ [w]) (f rows))
    (hw : ∀ m, m ≠ n → ∀ key done, w.onto m key done = done) :
    Follows start (h.add w) (Database.modifyRows n f db.counted) := by
  refine ⟨?_, ?_, ?_, fun m t u ht hempty hu ↦ ?_⟩
  · rw [schema_modifyRows]
    exact hdb.schema
  · change h.room.map (· - 1) = db.writeLimit.map (· - (db.writes + 1))
    rw [hdb.room, Option.map_map]
    rfl
  · change db.writes + 1 = start.writes + (h.writes ++ [w]).length
    rw [hdb.writes, List.length_append, List.length_singleton, Nat.add_assoc]
  · rw [getElem?_modifyRows] at hu
    split at hu
    · rename_i hm
      obtain ⟨v, hv, rfl⟩ := Option.map_eq_some_iff.1 hu
      subst hm
      exact hf _ (hdb.rows n t v ht hempty hv)
    · rename_i hm
      exact (hdb.rows m t u ht hempty hu).elsewhere (hw m (Ne.symm hm))

/-- Whether a call that writes is accepted can be told from the database. -/
theorem accepts_iff {c : RowCall}
    (hc : h.accepts start.schema c = ((c.write? start.schema).isSome && h.room != some 0)) :
    h.accepts start.schema c = true ↔ (c.write? db.schema).isSome = true ∧ db.Writable := by
  rw [hc, Bool.and_eq_true, bne_iff_ne, hdb.schema, writable_iff, hdb.room]

/-- What has been accepted is done to the rows of its table, and added to the history. -/
theorem accepted {c : RowCall} {w : RowWrite} {n : String}
    {f : Std.ExtTreeMap String Row → Std.ExtTreeMap String Row}
    (hw : c.write? db.schema = some w) (hwritable : db.Writable)
    (hok : c.program db = .ok () (Database.modifyRows n f db.counted))
    (hf : ∀ rows, RowsFollow n h.writes rows → RowsFollow n (h.writes ++ [w]) (f rows))
    (helsewhere : ∀ m, m ≠ n → ∀ key done, w.onto m key done = done) :
    ∃ db', c.program db = .ok () db' ∧ Follows start (h.after start.schema c) db' := by
  refine ⟨_, hok, ?_⟩
  rw [hdb.schema] at hw
  rw [History.after_of_write? hw (hdb.room ▸ writable_iff.1 hwritable)]
  exact hdb.add hf helsewhere

/-- A call succeeds exactly when the history accepts it; else it leaves the database as it is. -/
theorem step (c : RowCall) :
    (h.accepts start.schema c = true ∧ ∃ db', c.program db = .ok () db' ∧
        Follows start (h.after start.schema c) db') ∨
      (h.accepts start.schema c = false ∧ ∃ e, c.program db = .error e db) := by
  have hrefused {c : RowCall}
      (hc : h.accepts start.schema c = ((c.write? start.schema).isSome && h.room != some 0))
      (hnot : ¬((c.write? db.schema).isSome = true ∧ db.Writable)) :
          h.accepts start.schema c = false :=
    Bool.eq_false_iff.2 fun h ↦ hnot ((hdb.accepts_iff hc).1 h)
  cases c with
  | upsert table columns values =>
    rcases upsertRow_outcome table columns values db with
      ⟨hnot, he⟩ | ⟨t, key, ht, htakes, hwritable, hkey, hok⟩
    · refine Or.inr ⟨hrefused rfl fun ⟨hwrite, hwritable⟩ ↦ ?_, he⟩
      obtain ⟨t, ht, htakes⟩ := isSome_write?_upsert.1 hwrite
      exact hnot ⟨t, ht, htakes, hwritable⟩
    · have hwrite := isSome_write?_upsert.2 ⟨t, ht, htakes⟩
      refine Or.inl ⟨(hdb.accepts_iff rfl).2 ⟨hwrite, hwritable⟩,
        hdb.accepted (write?_upsert ht htakes hkey) hwritable hok (fun _ hrows ↦ hrows.upsert key _)
          ?_⟩
      exact fun m hm key done ↦ if_neg fun h ↦ hm h.1.symm
  | delete table key =>
    rcases deleteRow_outcome table key db with ⟨hnot, he⟩ | ⟨t, ht, hlength, hwritable, hok⟩
    · refine Or.inr ⟨hrefused rfl fun ⟨hwrite, hwritable⟩ ↦ ?_, he⟩
      obtain ⟨t, ht, hlength⟩ := isSome_write?_delete.1 hwrite
      exact hnot ⟨t, ht, hlength, hwritable⟩
    · have hwrite := isSome_write?_delete.2 ⟨t, ht, hlength⟩
      refine Or.inl ⟨(hdb.accepts_iff rfl).2 ⟨hwrite, hwritable⟩,
        hdb.accepted (write?_delete ht hlength) hwritable hok (fun _ hrows ↦ hrows.delete key) ?_⟩
      exact fun m hm key done ↦ if_neg fun h ↦ hm h.1.symm
  | refuseAfter n =>
    refine Or.inl ⟨rfl, db.refuseAfter n, rfl, hdb.schema, ?_, hdb.writes, hdb.rows⟩
    change some n = some (db.writes + n - db.writes)
    rw [Nat.add_sub_cancel_left]
  | refuseNone => exact Or.inl ⟨rfl, db.refuseNone, rfl, hdb.schema, rfl, hdb.writes, hdb.rows⟩

theorem ending (c : RowCall) :
    Follows start (h.after start.schema c) (SchemaLedger.ending c.program db) := by
  rcases hdb.step c with ⟨-, db', hok, hfollows⟩ | ⟨hnot, e, he⟩
  · rwa [ending_of_ok hok]
  · rwa [ending_of_error he, History.after_of_accepts_eq_false hnot]

end Follows

theorem follows_ofCalls (start : Database) (calls : List RowCall) :
    Follows start (.ofCalls start calls) (RowCall.runAll start calls) := by
  have hrun : ∀ {h db}, Follows start h db →
      Follows start (calls.foldl (History.after start.schema) h)
      (RowCall.runAll db calls) := by
    induction calls with
    | nil => exact fun h ↦ h
    | cons c calls ih => exact fun h ↦ ih (h.ending c)
  exact hrun (.refl start)

/-- What is read of a table after calls. -/
structure ReadsKeyed (start : Database) (table : String) (t : Table) (calls : List RowCall) :
    Prop where
  /-- Exactly the accepted calls succeed; the others change nothing. -/
  outcome : ∀ c : RowCall,
    if (History.ofCalls start calls).accepts start.schema c then
      ∃ db, c.program (RowCall.runAll start calls) = .ok () db
    else ∃ e, c.program (RowCall.runAll start calls) = .error e (RowCall.runAll start calls)
  /-- Exactly the accepted writes are counted. -/
  writes : (RowCall.runAll start calls).writes
    = start.writes + (History.ofCalls start calls).writes.length
  /-- There is a row for each key that has been written since it was last deleted. -/
  rows : ∀ columns : List String, (∀ c ∈ columns, c ∈ t.columnNames) →
    ∃ keys : List (List Json), keys.Pairwise (fun a b ↦ ¬SameKey a b) ∧
      (∀ key, (∃ k ∈ keys, SameKey k key) ↔
        upsertsSince table key (History.ofCalls start calls).writes ≠ []) ∧
      readRows table columns (RowCall.runAll start calls) = .ok
        (keys.map fun key ↦ columns.map
          (lastValue (upsertsSince table key (History.ofCalls start calls).writes)))
        (RowCall.runAll start calls)
  /-- Two keys have one row exactly when they are the same. -/
  address : ∀ a b : List Json, keyText a = keyText b ↔ SameKey a b

/-- Whatever is called about rows, a table without rows comes to have those of a map of keys. -/
theorem readsKeyed_of_empty {start : Database} {table : String} {t : StoredTable}
    (ht : start.tables[table]? = some t) (hempty : t.rows = ∅) (calls : List RowCall) :
    start.ReadsKeyed table t.schema calls := by
  have hdb := follows_ofCalls start calls
  refine ⟨fun c ↦ ?_, hdb.writes, fun columns hcolumns ↦ ?_, fun a b ↦ sameKey_iff.symm⟩
  · rcases hdb.step c with ⟨haccepts, db', hok, -⟩ | ⟨hnot, he⟩
    · rw [if_pos haccepts]
      exact ⟨db', hok⟩
    · rw [if_neg (Bool.eq_false_iff.1 hnot)]
      exact he
  · have hschema : (RowCall.runAll start calls).schema[table]? = some t.schema := by
      rw [hdb.schema, getElem?_schema, ht, Option.map_some]
    rw [getElem?_schema] at hschema
    obtain ⟨u, hu, hsame⟩ := Option.map_eq_some_iff.1 hschema
    obtain ⟨keys, hdistinct, hmem, hvalues⟩ := (hdb.rows table t u ht hempty hu).exists_keys
    have hnone : columns.find? (!u.schema.hasColumn ·) = none := by
      refine List.find?_eq_none.2 fun c hc ↦ ?_
      rw [hsame, Table.hasColumn_iff.2 (hcolumns c hc)]
      exact Bool.false_ne_true
    refine ⟨keys, hdistinct, hmem, ?_⟩
    rw [readRows, run_bind_of_ok (tableFor_of_some hu "read_rows"), hnone]
    change EStateM.Result.ok _ _ = _
    rw [hvalues, List.map_map]
    refine congrArg (EStateM.Result.ok · _) (List.map_congr_left fun key _ ↦ ?_)
    exact List.map_congr_left fun c _ ↦ getElem?_mergeRow_flatten _ c

/-- A table of measurements, none of which has been taken. -/
def samples : Database :=
  Call.apply
    (.updateDdl ["CREATE TABLE samples (place string(9), level float64, note string(40), " ++
    "PRIMARY KEY (level, place))"]) {}

/-- Of seven calls one is refused and one is not about a row that is there. -/
def measure : List RowCall :=
  [.upsert "samples" ["level", "place", "note"] [.ofNat 3, .string "\"a\"", .string "dry"],
    .upsert "samples" ["place", "level"] [.string "b", .null], .refuseAfter 1,
    .upsert "samples" ["place", "note", "level"] [.string "\"a\"", .string "wet", .ofNat 3],
    .upsert "samples" ["place", "level"] [.string "c", .ofNat 3], .refuseNone,
    .delete "samples" [.null, .string "b"]]

theorem samples_readsKeyed :
    ∃ t, samples.tables["samples"]? = some t ∧ t.rows = ∅ ∧
      samples.ReadsKeyed "samples" t.schema measure ∧
      ((readRows "samples" ["note", "level"]).run' (RowCall.runAll samples measure)).map
        (·.map fun row ↦ (Json.array row).toText) = some ["[\"wet\",3]"] := by
  have hempty : samples.tables["samples"]?.map (·.rows.isEmpty) = some true := by decide +kernel
  obtain ⟨t, ht, hrows⟩ := Option.map_eq_some_iff.1 hempty
  have hnone := Std.ExtTreeMap.isEmpty_iff.1 hrows
  exact ⟨t, ht, hnone, readsKeyed_of_empty ht hnone measure, by decide +kernel⟩

end Database

/-! ## Zeros -/

namespace Json

mutual
/-- A value as values compare: zero has no sign. -/
def unsigned : Json → Json
  | .number (.decimal d) => .number (.decimal { d with negative := d.negative && d.digits != 0 })
  | .array items => .array (unsignedItems items)
  | .object fields => .object (unsignedFields fields)
  | j => j
/-- `unsigned` on the items of an array. -/
def unsignedItems : List Json → List Json
  | [] => []
  | j :: rest => unsigned j :: unsignedItems rest
/-- `unsigned` on the values of the fields of an object. -/
def unsignedFields : List (String × Json) → List (String × Json)
  | [] => []
  | (n, j) :: rest => (n, unsigned j) :: unsignedFields rest
end

theorem normal_zero : 0 % 10 ≠ 0 ∨ 0 = 0 ∧ (0 : Int) = 0 := .inr ⟨rfl, rfl⟩

/-- A decimal zero with a sign or without. -/
def zero (negative : Bool) : Json := .number (.decimal ⟨negative, 0, 0, normal_zero⟩)

end Json

/-- Lists of values are equal as values compare. -/
def EqualValues (a b : List Json) : Prop :=
  Json.unsignedItems (Json.canonicalItems a) = Json.unsignedItems (Json.canonicalItems b)

/-- One row has equal keys, but not the other way round: zeros compare equal and are written
differently, so a key of zero has a row beside the one of negative zero. -/
theorem zeros_have_two_rows :
    EqualValues [.zero true, .null] [.zero false, .null] ∧
      Database.keyText [.zero true, .null] ≠ Database.keyText [.zero false, .null] ∧
      ((Database.readRows "samples" ["level"]).run' (RowCall.runAll Database.samples
        [.upsert "samples" ["level", "place"] [.zero false, .null],
          .upsert "samples" ["level", "place"] [.zero true, .null]])).map
        (·.map fun row ↦ (Json.array row).toText) = some ["[-0.0]", "[0.0]"] := by
  exact ⟨rfl, by decide +kernel, by decide +kernel⟩

end SchemaLedger
