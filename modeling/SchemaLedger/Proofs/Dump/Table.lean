import Mathlib
import SchemaLedger.Dump
import SchemaLedger.Proofs.Dump.Column
import SchemaLedger.Proofs.Dump.Key

/-!
# Tables are read back

The statement that creates a table is cut into name, body and key clause, its columns are told from
keys and foreign keys, and what comes out is the table that the statement declares. A column may be
called like the words that begin the other members of a body, since a type follows its name.
-/

namespace SchemaLedger

open Text Text.Scanner Identifier

namespace Dump

/-! ## The head -/

theorem run_ifNotExists (r : List Char) {u : List Char} (h : u.head?.any (!isBlank ·) = true) :
    ifNotExists.run ("IF NOT EXISTS ".toList ++ (u ++ r)) = some ((), u ++ r) := by
  have htext : "IF NOT EXISTS ".toList ++ (u ++ r)
      = "IF".toList ++ ' ' :: ("NOT".toList ++ ' ' :: ("EXISTS".toList ++ ' ' :: (u ++ r))) := by
    simp
  have hphrase (cs : List Char) : (phrase ["if", "not", "exists"]).run
      ("IF".toList ++ ' ' :: ("NOT".toList ++ ' ' :: ("EXISTS".toList ++ cs))) = some ((), cs) := by
    rw [run_phrase_cons (by decide) (by decide) (stops_append (by decide) _),
      run_phrase_cons (by decide) (by decide) (stops_append (by decide) _), phrase,
      run_keyword_append (by decide)]
  rw [htext, ifNotExists, run_bind_of_run (hphrase _),
    run_gap_of_stops (by decide) (stops_append h r)]

/-- `IF` is no bare name, so no written name is taken for the words. -/
theorem run_ifNotExists_quote (n : String) {r : List Char} (hr : Stops isNameChar r) :
    ifNotExists.run ((quote n).toList ++ r) = none := by
  refine Option.eq_none_iff_forall_ne_some.2 fun p h ↦ ?_
  rw [ifNotExists, phrase] at h
  · obtain ⟨_, m, hphrase, -⟩ := exists_of_run_bind h
    obtain ⟨hp, hfold, -⟩ := exists_of_run_keyword_gap_quote (by decide) hr hphrase
    rw [not_isPlain_of_fold hfold] at hp
    contradiction
  · exact List.cons_ne_nil _ _

/-- The head of a table as it is written. -/
def headText (table : String) (ifNotExists : Bool) : List Char :=
  "CREATE TABLE ".toList ++ ((if ifNotExists then "IF NOT EXISTS ".toList else [])
    ++ ((quote table).toList ++ " (".toList))

theorem headText_append (table : String) (ine : Bool) (r : List Char) :
    headText table ine ++ r = "CREATE".toList ++ ' ' :: ("TABLE".toList ++ ' ' ::
      ((if ine then "IF NOT EXISTS ".toList else [])
        ++ ((quote table).toList ++ ' ' :: '(' :: r))) := by
  have hlit : "CREATE TABLE ".toList = "CREATE".toList ++ ' ' :: ("TABLE".toList ++ [' ']) := by
    decide
  have hopen : " (".toList = [' ', '('] := by decide
  unfold headText
  rw [hlit, hopen]
  simp only [List.append_assoc, List.cons_append, List.nil_append]

theorem run_tableHead {table : String} (h : Legible table) (ine : Bool) (r : List Char) :
    tableHead.run (headText table ine ++ r) = some (table, r) := by
  have hstops : Stops isBlank ((if ine then "IF NOT EXISTS ".toList else [])
      ++ ((quote table).toList ++ ' ' :: '(' :: r)) := by
    cases ine with
    | false => exact stops_quote_append _ _
    | true => exact stops_append (u := "IF NOT EXISTS ".toList) (by decide) _
  have hoption : (attempt ifNotExists).run ((if ine then "IF NOT EXISTS ".toList else [])
      ++ ((quote table).toList ++ ' ' :: '(' :: r))
        = some (if ine then some () else none, (quote table).toList ++ ' ' :: '(' :: r) := by
    cases ine with
    | false =>
      exact run_attempt_of_none (run_ifNotExists_quote table (stops_cons.2 (by decide)))
    | true =>
      refine run_attempt_of_run (run_ifNotExists _ ?_)
      obtain ⟨c, cs, hcs⟩ := List.exists_cons_of_ne_nil (toList_quote_ne_nil table)
      have hstop := stops_quote table
      rw [hcs, stops_cons] at hstop
      rw [hcs, List.head?_cons, Option.any_some, hstop]
      rfl
  rw [headText_append, tableHead,
    run_bind_of_run (run_blanks_of_stops (stops_append (by decide) _)),
    run_bind_of_run (run_phrase_pair (by decide) (by decide) (by decide) _),
    run_bind_of_run (run_gap_of_stops (by decide) hstops), run_bind_of_run hoption,
    run_bind_of_run (run_name_quote h (stops_cons.2 (by decide))),
    run_bind_of_run (run_blanks_cons (by decide) (stops_cons.2 (by decide))),
    run_bind_of_run (run_symbol _ _)]
  rfl

/-! ## The body -/

/-- The columns as they are written. -/
def bodyText (columns : List ColumnClause) : List Char :=
  "\n  ".toList ++ (",\n  ".toList.intercalate (columns.map (·.text.toList)) ++ ['\n'])

/-- The end of a body is found behind a list of sealed members. -/
theorem enclosedFrom_intercalate {b : List Char} (hb : Sealed b) {ps : List (List Char)}
    (hps : ∀ p ∈ ps, Sealed p) (depth : Nat) (r : List Char) :
    enclosedFrom .outside depth ((',' :: b).intercalate ps ++ r)
      = (enclosedFrom .outside depth r).map fun x ↦ ((',' :: b).intercalate ps ++ x.1, x.2) := by
  induction ps with
  | nil => exact Option.map_id'.symm
  | cons p ps ih =>
    have hp := hps p List.mem_cons_self
    have ih := ih fun y hy ↦ hps y (List.mem_cons_of_mem p hy)
    cases ps with
    | nil => rw [List.intercalate_singleton, hp.enclosedFrom_append]
    | cons x ps =>
      rw [List.intercalate_cons_cons, List.append_assoc, List.append_assoc, hp.enclosedFrom_append,
        List.cons_append, enclosedFrom_of_isInert (Or.inr rfl), hb.enclosedFrom_append, ih,
        Option.map_map, Option.map_map, Option.map_map]
      simp only [Function.comp_def, List.append_assoc, List.cons_append]

theorem sealed_columns {columns : List ColumnClause}
    (h : ∀ c ∈ columns, Sealed (quote c.name).toList) :
    ∀ p ∈ columns.map (·.text.toList), Sealed p := by
  intro p hp
  obtain ⟨c, hc, rfl⟩ := List.mem_map.1 hp
  exact ColumnClause.sealed_text (h c hc)

theorem enclosed_bodyText {columns : List ColumnClause}
    (h : ∀ c ∈ columns, Sealed (quote c.name).toList)
    (r : List Char) : enclosed (bodyText columns ++ ')' :: r) = some (bodyText columns, r) := by
  have hcomma : ",\n  ".toList = ',' :: "\n  ".toList := by decide
  have hline : Sealed "\n  ".toList := Sealed.of_all (by decide)
  rw [enclosed, bodyText, List.append_assoc, List.append_assoc, hline.enclosedFrom_append, hcomma,
    enclosedFrom_intercalate hline (sealed_columns h), List.singleton_append,
    enclosedFrom_of_isInert (Or.inl (by decide)), enclosedFrom_close]
  rfl

theorem members_bodyText {columns : List ColumnClause}
    (h : ∀ c ∈ columns, Sealed (quote c.name).toList) :
    ((splitCommas (bodyText columns)).map strip).filter (!·.isEmpty)
      = columns.map (·.text.toList) := by
  have hcomma : ",\n  ".toList = ',' :: "\n  ".toList := by decide
  have hline : Sealed "\n  ".toList := Sealed.of_all (by decide)
  rw [bodyText, hcomma]
  refine filter_strip_splitCommas hline hline (Sealed.of_all (by decide))
    (List.all_eq_true.1 (by decide)) (List.all_eq_true.1 (by decide))
    (List.all_eq_true.1 (by decide)) fun p hp ↦ ?_
  obtain ⟨c, hc, rfl⟩ := List.mem_map.1 hp
  exact ⟨ColumnClause.sealed_text (h c hc), c.toList_text_ne_nil, c.stops_text,
    c.stops_reverse_text⟩

/-! ## Columns are no keys -/

/-- No type begins like the word that makes a key of a name. -/
private theorem run_key_eq_none (t : ColumnType) (length : Option ColumnLength) (array : Bool)
    (r : List Char) : (keyword "key").run ((t.sql length array).toList ++ r) = none := by
  have hkey : "key".toList = 'k' :: "ey".toList := by decide
  rw [ColumnType.toList_sql]
  cases array with
  | false => cases t <;> exact run_keyword_cons_of_ne hkey (by decide)
  | true => exact run_keyword_cons_of_ne hkey (by decide)

/-- A word and `KEY` do not begin a column. -/
private theorem run_phrase_key_eq_none {w : String} (hw : w.toList.all isNameChar = true)
    (c : ColumnClause) : (phrase [w, "key"]).run c.text.toList = none := by
  refine Option.eq_none_iff_forall_ne_some.2 fun p h ↦ ?_
  rw [ColumnClause.toList_text, phrase] at h
  · obtain ⟨-, -, m, hgap, hkey⟩ := exists_of_run_keyword_gap_quote hw (stops_cons.2 (by decide)) h
    rw [run_gap_of_stops (by decide) ((ColumnType.stops_sql _ _ _).append
      (ColumnType.toList_sql_ne_nil _ _ _))] at hgap
    obtain rfl := (Prod.mk.inj (Option.some.inj hgap)).2
    rw [phrase, run_key_eq_none] at hkey
    contradiction
  · exact List.cons_ne_nil _ _

theorem isKeyClause_text (c : ColumnClause) : isKeyClause c.text.toList = false := by
  have hnone : (do blanks; phrase ["primary", "key"]; wordEnd : Scanner Unit).value? c.text.toList
      = none := by
    rw [value?, run_bind_of_run (run_blanks_of_stops c.stops_text),
      run_bind_of_none (run_phrase_key_eq_none (by decide) c)]
    rfl
  unfold isKeyClause
  dsimp only
  rw [hnone]
  rfl

/-- What a name, behind which a type is taken for the name of a constraint, leaves is no foreign
key. -/
private theorem run_foreign_eq_none (notNull commitTimestamp : Bool) {m : List Char}
    (h : gap.run (attributeText notNull commitTimestamp) = some ((), m)) :
    (phrase ["foreign", "key"]).run m = none := by
  have hforeign : "foreign".toList = 'f' :: "oreign".toList := by decide
  rw [phrase]
  · refine run_bind_of_none ?_
    cases notNull <;> cases commitTimestamp
    · contradiction
    all_goals
      obtain rfl := (Prod.mk.inj (Option.some.inj
        ((run_gap_of_stops (by decide) (stops_cons.2 (by decide))).symm.trans h))).2
      exact run_keyword_cons_of_ne hforeign (by decide)
  · exact List.cons_ne_nil _ _

theorem isForeignKey_text (c : ColumnClause) : isForeignKey c.text.toList = false := by
  have hphrase := run_phrase_key_eq_none (w := "foreign") (by decide) c
  have hconstraint : ∀ p, (do keyword "constraint"; gap; let _ ← chars (!isBlank ·); gap :
      Scanner Unit).run c.text.toList = some p →
        gap.run (attributeText c.notNull c.commitTimestamp) = some p := by
    intro p h
    rw [ColumnClause.toList_text] at h
    obtain ⟨-, -, m, hgap, hrest⟩ :=
      exists_of_run_keyword_gap_quote (by decide) (stops_cons.2 (by decide)) h
    rw [run_gap_of_stops (by decide) ((ColumnType.stops_sql _ _ _).append
      (ColumnType.toList_sql_ne_nil _ _ _))] at hgap
    obtain rfl := (Prod.mk.inj (Option.some.inj hgap)).2
    have hstops : Stops (!isBlank ·) (attributeText c.notNull c.commitTimestamp) := by
      cases c.notNull <;> cases c.commitTimestamp <;>
        first | exact stops_nil _ | exact stops_cons.2 (by decide)
    rwa [run_bind_of_run (run_chars (ColumnType.toList_sql_ne_nil _ _ _)
      (fun d hd ↦ by rw [ColumnType.isBlank_eq_false_of_mem_sql hd]; rfl) hstops)] at hrest
  have hnone : (do
      blanks
      let _ ← attempt do
        keyword "constraint"
        gap
        let _ ← chars (!isBlank ·)
        gap
      phrase ["foreign", "key"]
      wordEnd : Scanner Unit).value? c.text.toList = none := by
    rw [value?, run_bind_of_run (run_blanks_of_stops c.stops_text)]
    cases h : (do keyword "constraint"; gap; let _ ← chars (!isBlank ·); gap :
        Scanner Unit).run c.text.toList with
    | none =>
      rw [run_bind_of_run (run_attempt_of_none h), run_bind_of_none hphrase]
      rfl
    | some p =>
      rw [run_bind_of_run (run_attempt_of_run h),
        run_bind_of_none (run_foreign_eq_none _ _ (hconstraint p h))]
      rfl
  unfold isForeignKey
  dsimp only
  rw [hnone]
  rfl

end Dump

/-! ## The table of a statement -/

/-- The table that a statement declares. -/
def Table.declared (name : String) (columns : List ColumnClause) (key : List KeyPart)
    (parent : Option Interleave) : Table :=
  syncPrimary
    { name
      columns := columns.map (·.column)
      primaryKey := key.map (·.name)
      foreignKeys := (parent.map (Dump.parentKey name)).toList
      interleave := parent }

/-- The parts of a statement from which its table can be read back. -/
structure Table.Declarable (name : String) (columns : List ColumnClause) (key : List KeyPart)
    (parent : Option Interleave) : Prop where
  legible : Legible name
  closed : ∀ c ∈ columns, Closed c.name
  lengths : ∀ c ∈ columns, Dump.HasLength c.type c.length
  distinct : (columns.map (·.name)).Nodup
  listable : ∀ p ∈ key, Listable p.name
  declaresKey : ∀ p ∈ key, p.name ∈ columns.map (·.name)
  parents : ∀ i ∈ parent, Legible i.parent

namespace Table

theorem columnNames_declared (name : String) (columns : List ColumnClause) (key : List KeyPart)
    (parent : Option Interleave) :
    (declared name columns key parent).columnNames = columns.map (·.name) := by
  simp [declared, syncPrimary, columnNames, ColumnClause.column]

end Table

namespace Dump

theorem add_column {b : TableBody} {c : ColumnClause} (h : c.Readable)
    (hnew : c.name ∉ b.columns.map (·.name)) :
    b.add c.text.toList = .ok { b with columns := b.columns ++ [c.column] } := by
  have hany : b.columns.any (·.name == c.column.name) = false := by
    rw [List.any_eq_false]
    intro d hd e
    exact hnew (List.mem_map.2 ⟨d, hd, by simpa [ColumnClause.column] using e⟩)
  rw [TableBody.add, if_neg (by simp [isKeyClause_text]), if_neg (by simp [isForeignKey_text]),
    columnOfText, readColumn_text h]
  change (if b.columns.any (·.name == c.column.name) then _ else _) = _
  rw [hany]
  rfl

theorem foldlM_add {columns : List ColumnClause} (h : ∀ c ∈ columns, c.Readable) {b : TableBody}
    (hnew : (b.columns.map (·.name) ++ columns.map (·.name)).Nodup) :
    (columns.map (·.text.toList)).foldlM TableBody.add b
      = .ok { b with columns := b.columns ++ columns.map (·.column) } := by
  induction columns generalizing b with
  | nil => rw [List.map_nil, List.map_nil, List.append_nil]; rfl
  | cons c cs ih =>
    rw [List.map_cons] at hnew
    have hc : c.name ∉ b.columns.map (·.name) :=
      fun hmem ↦ (List.nodup_append.1 hnew).2.2 c.name hmem c.name List.mem_cons_self rfl
    have hrest : ((b.columns ++ [c.column]).map (·.name) ++ cs.map (·.name)).Nodup := by
      rw [List.map_append, List.append_assoc]
      exact hnew
    rw [List.map_cons, List.foldlM_cons, add_column (h c List.mem_cons_self) hc]
    change (cs.map _).foldlM TableBody.add { b with columns := b.columns ++ [c.column] } = _
    rw [ih (fun d hd ↦ h d (List.mem_cons_of_mem c hd)) hrest, List.map_cons, List.append_assoc]
    rfl

/-- A table is put together from its body and its key clause. -/
theorem build_eq {t : TableText} {body : TableBody} {key : KeyClause}
    (hbody : t.elements.foldlM TableBody.add {} = .ok body) (hkey : t.key body = .ok key)
    (hcolumns : ∀ n ∈ key.columns, n ∈ body.columns.map (·.name)) :
    t.build = .ok (Table.syncPrimary
      { name := t.name
        columns := body.columns
        primaryKey := key.columns
        foreignKeys := (key.interleave.map (parentKey t.name)).toList
        interleave := key.interleave }) := by
  have hfind : key.columns.find? (!(Table.mk t.name body.columns key.columns
      [] (key.interleave.map (parentKey t.name)).toList [] key.interleave).hasColumn ·) = none := by
    refine List.find?_eq_none.2 fun n hn ↦ ?_
    have hmem : n ∈ (Table.mk t.name body.columns key.columns
        [] (key.interleave.map (parentKey t.name)).toList [] key.interleave).columnNames :=
      hcolumns n hn
    simp [Table.hasColumn_iff.2 hmem]
  unfold TableText.build
  rw [hbody]
  dsimp only [bind, Except.bind]
  rw [hkey]
  dsimp only
  rw [hfind]
  rfl

/-- A key clause behind the body is the key. -/
theorem key_eq {t : TableText} {b : TableBody} {key : KeyClause} (hb : b.key = none)
    (hne : t.trailer ≠ []) (h : readKeyClause t.trailer = .ok key) : t.key b = .ok key := by
  rw [TableText.key, if_neg (by simpa using hne), reading, h, hb]
  rfl

theorem build_declared {name : String} {columns : List ColumnClause} {key : List KeyPart}
    {parent : Option Interleave} (h : Table.Declarable name columns key parent) :
    (TableText.mk name (columns.map (·.text.toList)) (keyClauseSql key parent.toList)).build
      = .ok (Table.declared name columns key parent) := by
  have hreadable : ∀ c ∈ columns, c.Readable :=
    fun c hc ↦ ⟨(h.closed c hc).toLegible, h.lengths c hc⟩
  have hcolumns : ∀ n ∈ key.map (·.name), n ∈ (columns.map (·.column)).map (·.name) := by
    intro n hn
    obtain ⟨p, hp, rfl⟩ := List.mem_map.1 hn
    rw [List.map_map]
    exact h.declaresKey p hp
  have hbody := foldlM_add hreadable (b := {}) (by simpa using h.distinct)
  have hkey := key_eq (b := { columns := columns.map (·.column) })
    (t := ⟨name, columns.map (·.text.toList), keyClauseSql key parent.toList⟩) rfl
    (keyClauseSql_ne_nil key _) (readKeyClause_sql h.listable h.parents)
  exact build_eq hbody hkey hcolumns

/-! ## Statements -/

theorem toList_createTable (table : String) (ine : Bool) (columns : List ColumnClause)
    (key : List KeyPart) (is : List Interleave) :
    (Ddl.createTable table ine columns key is).text.toList
      = headText table ine ++ (bodyText columns ++ ')' :: ' ' :: keyClauseSql key is) := by
  have hjoin : (String.join (is.map Interleave.sql)).toList = is.flatMap (·.sql.toList) := by
    rw [String.toList_join, List.flatMap_map]
  have hopen : " (\n  ".toList = " (".toList ++ "\n  ".toList := by decide
  have hclose : "\n) PRIMARY KEY (".toList
      = '\n' :: ')' :: ' ' :: "PRIMARY KEY (".toList := by decide
  have hoption : (if ine then "IF NOT EXISTS " else "").toList
      = if ine then "IF NOT EXISTS ".toList else [] := by
    cases ine <;> rfl
  unfold Ddl.text headText bodyText keyClauseSql
  simp only [String.toList_append, hjoin, hopen, hclose, hoption, String.toList_intercalate,
    List.map_map, List.append_assoc, List.cons_append, List.nil_append]
  rfl

theorem readItem_createTable {table : String} (h : Legible table) (ine : Bool)
    {columns : List ColumnClause} (hcolumns : ∀ c ∈ columns, Sealed (quote c.name).toList)
    (key : List KeyPart) (is : List Interleave) :
    readItem (Ddl.createTable table ine columns key is).text.toList
      = .ok (.table ⟨table, columns.map (·.text.toList), keyClauseSql key is⟩) := by
  have htrailer : strip (' ' :: keyClauseSql key is) = keyClauseSql key is :=
    strip_append (List.all_eq_true.1 (by decide : [' '].all isBlank = true))
      (stops_keyClauseSql _ _) (stops_reverse_keyClauseSql _ _)
  rw [toList_createTable, readItem, run_tableHead h]
  dsimp only
  rw [readTableText, enclosed_bodyText hcolumns]
  dsimp only
  rw [members_bodyText hcolumns, htrailer]
  rfl

/-- A statement that creates an index creates no table. -/
theorem run_createTable_index (i : Index) :
    (phrase ["create", "table"]).run i.sql.toList = none := by
  have htable : "table".toList = 't' :: "able".toList := by decide
  rw [Index.toList_sql, Index.headText_append]
  refine run_phrase_pair_of_stops (by decide) htable (stops_indexWords _ _ _) ?_
  cases i.unique <;> cases i.nullFiltered <;> exact stops_cons.2 (by decide)

theorem stops_index (i : Index) : Stops isBlank i.sql.toList := by
  rw [Index.toList_sql, Index.headText_append]
  exact stops_append (by decide) _

theorem run_tableHead_index (i : Index) : tableHead.run i.sql.toList = none := by
  rw [tableHead, run_bind_of_run (run_blanks_of_stops (stops_index i)),
    run_bind_of_none (run_createTable_index i)]

theorem isIndex_sql (i : Index) : isIndex i.sql.toList = true := by
  have hsome : (do let _ ← indexHead; wordEnd : Scanner Unit).value? i.sql.toList = some () := by
    rw [value?, Index.toList_sql, run_bind_of_run (run_indexHead _ _ _),
      run_wordEnd_of_stops (stops_cons.2 (by decide))]
    rfl
  unfold isIndex
  dsimp only
  rw [hsome]
  rfl

theorem readItem_index (i : Index) : readItem i.sql.toList = .index <$> readIndex i.sql.toList := by
  rw [readItem, run_tableHead_index]
  dsimp only
  rw [isIndex_sql, if_pos rfl]

end Dump

end SchemaLedger
