import Mathlib
import SchemaLedger.Ddl
import SchemaLedger.Dump.Key
import SchemaLedger.Proofs.Failing
import SchemaLedger.Proofs.Identifier

/-!
# Keys and indices are read back

Key parts, the key clause with the parent behind it, and index statements, all read off the text in
which they are written. A list between parentheses ends at the first closing parenthesis, so the
names in one must not contain any: `Listable` names are those that can stand in such a list.
-/

namespace SchemaLedger

open Text Text.Scanner Identifier

/-- Can be read back from a list between parentheses. -/
structure Identifier.Listable (n : String) : Prop extends Closed n where
  noParenthesis : ')' ∉ n.toList

/-- Has characters, and none that means something where names are written. -/
structure Identifier.Writable (n : String) : Prop where
  ne_empty : n ≠ ""
  noBacktick : '\x60' ∉ n.toList
  noBackslash : '\\' ∉ n.toList
  noParenthesis : ')' ∉ n.toList

instance (n : String) : Decidable (Identifier.Writable n) :=
  decidable_of_iff (n ≠ "" ∧ '\x60' ∉ n.toList ∧ '\\' ∉ n.toList ∧ ')' ∉ n.toList)
    ⟨fun h ↦ ⟨h.1, h.2.1, h.2.2.1, h.2.2.2⟩,
      fun h ↦ ⟨h.ne_empty, h.noBacktick, h.noBackslash, h.noParenthesis⟩⟩

theorem Identifier.Writable.listable {n : String} (h : Writable n) : Listable n :=
  ⟨Legible.closed ⟨h.ne_empty, h.noBacktick⟩ h.noBackslash, h.noParenthesis⟩

/-! ## Key parts -/

namespace KeyPart

theorem toList_sql (p : KeyPart) :
    p.sql.toList = (quote p.name).toList ++
      match p.order with
      | .asc => []
      | .desc => " DESC".toList := by
  rw [sql]
  cases p.order
  · exact (List.append_nil _).symm
  · exact String.toList_append

theorem toList_sql_ne_nil (p : KeyPart) : p.sql.toList ≠ [] := by
  rw [toList_sql]
  exact List.append_ne_nil_of_left_ne_nil (toList_quote_ne_nil _) _

theorem stops_sql (p : KeyPart) : Stops isBlank p.sql.toList := by
  rw [toList_sql]
  exact stops_quote_append _ _

theorem stops_reverse_sql (p : KeyPart) : Stops isBlank p.sql.toList.reverse := by
  rw [toList_sql]
  cases p.order
  · rw [List.append_nil]
    exact stops_reverse_quote _
  · exact Stops.reverse_append (stops_cons.2 (by decide)) (by decide)

theorem sealed_sql {p : KeyPart} (h : Balanced p.name) : Sealed p.sql.toList := by
  rw [toList_sql]
  refine h.sealed_quote.append ?_
  cases p.order
  · exact Sealed.nil
  · exact Sealed.of_all (by decide)

theorem notMem_sql {p : KeyPart} (h : ')' ∉ p.name.toList) : ')' ∉ p.sql.toList := by
  rw [toList_sql, List.mem_append, not_or]
  refine ⟨notMem_quote h (by decide) (by decide), ?_⟩
  cases p.order <;> decide

end KeyPart

theorem toList_keySql (parts : List KeyPart) :
    (keySql parts).toList = ", ".toList.intercalate (parts.map (·.sql.toList)) := by
  rw [keySql, String.toList_intercalate, List.map_map]
  rfl

theorem notMem_keySql {parts : List KeyPart} (h : ∀ p ∈ parts, ')' ∉ p.name.toList) :
    ')' ∉ (keySql parts).toList := by
  rw [toList_keySql]
  refine notMem_intercalate (by decide) fun x hx ↦ ?_
  obtain ⟨p, hp, rfl⟩ := List.mem_map.1 hx
  exact KeyPart.notMem_sql (h p hp)

theorem strip_keySql (parts : List KeyPart) :
    strip (keySql parts).toList = (keySql parts).toList := by
  rw [toList_keySql]
  refine strip_eq_self ?_ (stops_reverse_intercalate fun x hx ↦ ?_)
  · cases parts with
    | nil => exact stops_nil _
    | cons p ps => exact stops_intercalate p.stops_sql p.toList_sql_ne_nil
  · obtain ⟨p, -, rfl⟩ := List.mem_map.1 hx
    exact ⟨p.stops_reverse_sql, p.toList_sql_ne_nil⟩

namespace Dump

theorem run_direction {r : List Char} (hr : Stops isNameChar r) :
    direction.run ("DESC".toList ++ r) = some (.desc, r) := by
  rw [direction, run_bind_of_run (run_chars (by decide) (List.all_eq_true.1 (by decide)) hr),
    if_neg (by decide), if_pos (by decide), if_pos (by decide)]
  rfl

theorem value?_keyPart {p : KeyPart} (h : Legible p.name) {bs : List Char}
    (hbs : ∀ c ∈ bs, isBlank c = true) : keyPart.value? (bs ++ p.sql.toList) = some p := by
  have hblanks : blanks.run (bs ++ p.sql.toList) = some ((), p.sql.toList) := by
    rw [run_blanks, stripLeft_append hbs p.stops_sql]
  obtain ⟨n, order⟩ := p
  rw [value?, keyPart, run_bind_of_run hblanks, KeyPart.toList_sql]
  cases order with
  | asc =>
    have hnone : (do gap; direction : Scanner SortOrder).run [] = none :=
      run_bind_of_none (run_gap_eq_none (stops_nil _))
    rw [run_bind_of_run (run_name_quote h (stops_nil _)),
      run_bind_of_run (run_attempt_of_none hnone),
      run_bind_of_run (run_blanks_of_stops (stops_nil _)), run_bind_of_run run_finished_nil]
    rfl
  | desc =>
    have hdesc : " DESC".toList = ' ' :: ("DESC".toList ++ []) := by decide
    have hsome : (do gap; direction : Scanner SortOrder).run (' ' :: ("DESC".toList ++ []))
        = some (.desc, []) := by
      rw [run_bind_of_run (run_gap_of_stops (by decide) (stops_append (by decide) [])),
        run_direction (stops_nil _)]
    dsimp only
    rw [hdesc, run_bind_of_run (run_name_quote h (stops_cons.2 (by decide))),
      run_bind_of_run (run_attempt_of_run hsome),
      run_bind_of_run (run_blanks_of_stops (stops_nil _)), run_bind_of_run run_finished_nil]
    rfl

/-- A member of a list is read as a key part or not at all. -/
theorem keyPart_of_readKeyPart {cs : List Char} {p : KeyPart}
    (h : (match keyPart.value? cs with
      | some p => .ok p
      | none => .error .invalidKeyColumn : Except Malformation KeyPart) = .ok p) :
          keyPart.value? cs = some p := by
  split at h
  · rename_i hvalue
    rw [hvalue, Except.ok.inj h]
  · contradiction

/-- Key parts are read off a list that is cut between them. -/
theorem readKeyParts_of_apart {parts : List KeyPart} (hne : parts ≠ [])
    (h : ∀ p ∈ parts, Legible p.name) (hapart : Apart (parts.map (·.sql.toList))) :
    readKeyParts (keySql parts).toList = .ok parts := by
  obtain ⟨p, ps, rfl⟩ := List.exists_cons_of_ne_nil hne
  have hhead : keyPart.value? ([] ++ p.sql.toList) = some p :=
    value?_keyPart (h p List.mem_cons_self) (by simp)
  rw [List.map_cons] at hapart
  rw [readKeyParts, toList_keySql, List.map_cons, hapart.splitCommas_eq, List.mapM_cons,
    List.map_map, mapM_ok (g := id) fun q hq ↦ ?_]
  · rw [List.nil_append] at hhead
    rw [hhead, List.map_id]
    rfl
  · dsimp only [Function.comp_apply]
    rw [value?_keyPart (h q (List.mem_cons_of_mem p hq)) (List.all_eq_true.1 (by decide))]
    rfl

theorem apart_sql {parts : List KeyPart} (h : ∀ p ∈ parts, Balanced p.name) :
    Apart (parts.map (·.sql.toList)) := by
  refine apart_of_sealed fun x hx ↦ ?_
  obtain ⟨p, hp, rfl⟩ := List.mem_map.1 hx
  exact KeyPart.sealed_sql (h p hp)

theorem readKeyParts_keySql {parts : List KeyPart} (hne : parts ≠ [])
    (h : ∀ p ∈ parts, Closed p.name) : readKeyParts (keySql parts).toList = .ok parts :=
  readKeyParts_of_apart hne (fun p hp ↦ (h p hp).toLegible) (apart_sql fun p hp ↦ (h p hp).balanced)

/-- No list between parentheses is empty. -/
theorem readKeyParts_nil : readKeyParts [] = .error .invalidKeyColumn := by
  rfl

end Dump

/-! ## The key clause -/

namespace Interleave

theorem toList_sql (i : Interleave) :
    i.sql.toList = ',' :: ("\n  ".toList ++ ("INTERLEAVE IN PARENT".toList ++ ' ' ::
      ((quote i.parent).toList
        ++ (if i.onDeleteCascade then " ON DELETE CASCADE" else "").toList))) := by
  have hlit : ",\n  INTERLEAVE IN PARENT ".toList
      = ',' :: ("\n  ".toList ++ ("INTERLEAVE IN PARENT".toList ++ [' '])) := by
    decide
  unfold sql
  rw [String.toList_append, String.toList_append, hlit]
  simp only [List.cons_append, List.append_assoc, List.nil_append]

theorem toList_sql_ne_nil (i : Interleave) : i.sql.toList ≠ [] := by
  rw [toList_sql]
  exact List.cons_ne_nil _ _

theorem stops_reverse_sql (i : Interleave) : Stops isBlank i.sql.toList.reverse := by
  unfold sql
  rw [String.toList_append, String.toList_append]
  cases i.onDeleteCascade with
  | false =>
    rw [if_neg Bool.false_ne_true, String.toList_empty, List.append_nil]
    exact (stops_reverse_quote _).reverse_append (toList_quote_ne_nil _)
  | true => exact Stops.reverse_append (stops_cons.2 (by decide)) (by decide)

end Interleave

namespace Dump

/-- The clause of a key, with its parents behind it. -/
@[irreducible]
def keyClauseSql (key : List KeyPart) (interleaves : List Interleave) : List Char :=
  "PRIMARY KEY (".toList ++ ((keySql key).toList ++ ')' :: interleaves.flatMap (·.sql.toList))

theorem stops_interleaves {p : Char → Bool} (hp : p ',' = false) (is : List Interleave) :
    Stops p (is.flatMap (·.sql.toList)) := by
  cases is with
  | nil => exact stops_nil p
  | cons i is =>
    rw [List.flatMap_cons, Interleave.toList_sql]
    exact stops_cons.2 hp

theorem run_cascade {r : List Char} (hr : Stops isNameChar r) :
    (do gap; phrase ["on", "delete"]; gap; deleteAction : Scanner Bool).run
      (" ON DELETE CASCADE".toList ++ r) = some (true, r) := by
  have htext : " ON DELETE CASCADE".toList ++ r
      = ' ' :: ("ON".toList ++ ' ' :: ("DELETE".toList ++ ' ' :: ("CASCADE".toList ++ r))) := by
    simp
  have haction : deleteAction.run ("CASCADE".toList ++ r) = some (true, r) := by
    refine run_orElse_of_run ?_
    rw [run_bind_of_run (run_chars (by decide) (List.all_eq_true.1 (by decide)) hr),
      if_pos (by decide)]
    rfl
  rw [htext, run_bind_of_run (run_gap_of_stops (by decide) (stops_append (by decide) _))]
  have hphrase : ∀ cs, (phrase ["on", "delete"]).run
      ("ON".toList ++ ' ' :: ("DELETE".toList ++ cs)) = some ((), cs) := by
    intro cs
    rw [run_phrase_cons (by decide) (by decide) (stops_append (by decide) _), phrase,
      run_keyword_append (by decide)]
  rw [run_bind_of_run (hphrase _),
    run_bind_of_run (run_gap_of_stops (by decide) (stops_append (by decide) _)), haction]

theorem run_interleavePhrase (cs : List Char) :
    (phrase ["interleave", "in", "parent"]).run ("INTERLEAVE IN PARENT".toList ++ cs)
      = some ((), cs) := by
  have htext : "INTERLEAVE IN PARENT".toList ++ cs
      = "INTERLEAVE".toList ++ ' ' :: ("IN".toList ++ ' ' :: ("PARENT".toList ++ cs)) := by
    simp
  rw [htext, run_phrase_cons (by decide) (by decide) (stops_append (by decide) _),
    run_phrase_cons (by decide) (by decide) (stops_append (by decide) _), phrase,
    run_keyword_append (by decide)]

/-- The parent of a table is read off its clause. -/
theorem run_parentClause {i : Interleave} (h : Legible i.parent) {r : List Char}
    (hr : Stops isNameChar r) (hr' : Stops isBlank r) :
    parentClause.run (i.sql.toList ++ r) = some (i, r) := by
  obtain ⟨parent, cascade⟩ := i
  have hblanks : blanks.run ("\n  ".toList ++ ("INTERLEAVE IN PARENT".toList ++ ' ' ::
      ((quote parent).toList ++ ((if cascade then " ON DELETE CASCADE" else "").toList ++ r))))
      = some ((), "INTERLEAVE IN PARENT".toList ++ ' ' :: ((quote parent).toList
        ++ ((if cascade then " ON DELETE CASCADE" else "").toList ++ r))) := by
    rw [run_blanks, stripLeft_append (List.all_eq_true.1 (by decide))
      (stops_append (by decide) _)]
  rw [Interleave.toList_sql, parentClause]
  simp only [List.cons_append, List.append_assoc]
  rw [run_bind_of_run (run_blanks_of_stops (stops_cons.2 (by decide))),
    run_bind_of_run (run_symbol _ _), run_bind_of_run hblanks,
    run_bind_of_run (run_interleavePhrase _),
    run_bind_of_run (run_gap_of_stops (by decide) (stops_quote_append _ _))]
  -- Without a cascade the reading of one is tried and taken back.
  cases cascade with
  | false =>
    have hnone := run_attempt_of_none (run_bind_of_none (run_gap_eq_none hr')
      (f := fun _ : Unit ↦ (do phrase ["on", "delete"]; gap; deleteAction : Scanner Bool)))
    rw [if_neg Bool.false_ne_true, String.toList_empty, List.nil_append,
      run_bind_of_run (run_name_quote h hr), run_bind_of_run hnone]
    rfl
  | true =>
    rw [if_pos rfl, run_bind_of_run (run_name_quote h (stops_append (by decide) r)),
      run_bind_of_run (run_attempt_of_run (run_cascade hr))]
    rfl

theorem run_primaryKey (cs : List Char) :
    (phrase ["primary", "key"]).run ("PRIMARY KEY".toList ++ cs) = some ((), cs) := by
  have htext : "PRIMARY KEY".toList ++ cs = "PRIMARY".toList ++ ' ' :: ("KEY".toList ++ cs) := by
    simp
  rw [htext, run_phrase_cons (by decide) (by decide) (stops_append (by decide) _), phrase,
    run_keyword_append (by decide)]

/-- A list between parentheses, up to the first that closes. -/
theorem run_parenthesised_eq (cs : List Char) :
    parenthesised.run (" (".toList ++ cs) = (upTo ')').run cs := by
  have htext : " (".toList ++ cs = ' ' :: '(' :: cs := by
    simp
  rw [htext, parenthesised,
    run_bind_of_run (run_blanks_cons (by decide) (stops_cons.2 (by decide))),
    run_bind_of_run (run_symbol _ _)]

theorem run_parenthesised {u : List Char} (h : ')' ∉ u) (r : List Char) :
    parenthesised.run (" (".toList ++ (u ++ ')' :: r)) = some (u, r) := by
  rw [run_parenthesised_eq, run_upTo h]

theorem keyClauseSql_ne_nil (key : List KeyPart) (is : List Interleave) :
    keyClauseSql key is ≠ [] := by
  unfold keyClauseSql
  exact List.append_ne_nil_of_left_ne_nil (by decide) _

theorem stops_keyClauseSql (key : List KeyPart) (is : List Interleave) :
    Stops isBlank (keyClauseSql key is) := by
  unfold keyClauseSql
  exact stops_append (by decide) _

theorem stops_reverse_interleaves (is : List Interleave) :
    Stops isBlank (is.flatMap (·.sql.toList)).reverse := by
  induction is with
  | nil => exact stops_nil _
  | cons i is ih =>
    rw [List.flatMap_cons]
    cases is with
    | nil => rw [List.flatMap_nil, List.append_nil]; exact i.stops_reverse_sql
    | cons j is =>
      exact ih.reverse_append (List.append_ne_nil_of_left_ne_nil j.toList_sql_ne_nil _)

theorem stops_reverse_keyClauseSql (key : List KeyPart) (is : List Interleave) :
    Stops isBlank (keyClauseSql key is).reverse := by
  unfold keyClauseSql
  cases is with
  | nil => exact Stops.reverse_append (Stops.reverse_append (stops_cons.2 (by decide))
      (List.cons_ne_nil _ _)) (List.append_ne_nil_of_right_ne_nil _ (List.cons_ne_nil _ _))
  | cons i is =>
    rw [← List.append_assoc, List.append_cons]
    exact (stops_reverse_interleaves (i :: is)).reverse_append
      (List.append_ne_nil_of_left_ne_nil i.toList_sql_ne_nil _)

theorem keyClauseSql_eq (key : List KeyPart) (is : List Interleave) :
    keyClauseSql key is = "PRIMARY KEY".toList ++ (" (".toList
      ++ ((keySql key).toList ++ ')' :: is.flatMap (·.sql.toList))) := by
  have hlit : "PRIMARY KEY (".toList = "PRIMARY KEY".toList ++ " (".toList := by decide
  unfold keyClauseSql
  rw [hlit, List.append_assoc]

/-- A key and its parent are read off the clause; directions are not kept. -/
theorem readKeyClause_sql {key : List KeyPart} {parent : Option Interleave}
    (hkey : ∀ p ∈ key, Listable p.name) (hparent : ∀ i ∈ parent, Legible i.parent) :
    readKeyClause (keyClauseSql key parent.toList) = .ok ⟨key.map (·.name), parent⟩ := by
  have hparents : (attempt parentClause).run (parent.toList.flatMap (·.sql.toList))
      = some (parent, []) := by
    cases parent with
    | none => exact run_attempt_of_none (run_bind_of_run (run_blanks_of_stops (stops_nil _)))
    | some i =>
      have := run_parentClause (hparent i rfl) (stops_nil _) (stops_nil _)
      rw [Option.toList_some, List.flatMap_cons, List.flatMap_nil]
      exact run_attempt_of_run this
  have hvalue : keyClauseText.value? (keyClauseSql key parent.toList)
      = some ((keySql key).toList, parent) := by
    rw [value?, keyClauseText, keyClauseSql_eq,
      run_bind_of_run (run_blanks_of_stops (stops_append (by decide) _)),
      run_bind_of_run (run_primaryKey _),
      run_bind_of_run (run_parenthesised (notMem_keySql fun p hp ↦ (hkey p hp).noParenthesis) _),
      run_bind_of_run hparents, run_bind_of_run (run_blanks_of_stops (stops_nil _)),
      run_bind_of_run run_finished_nil]
    rfl
  -- An empty list is read apart, since no part of it would be read as a column.
  rw [readKeyClause, hvalue]
  dsimp only
  rw [strip_keySql]
  cases key with
  | nil => rfl
  | cons p ps =>
    have hne : (keySql (p :: ps)).toList ≠ [] := by
      rw [toList_keySql, List.map_cons]
      exact intercalate_ne_nil p.toList_sql_ne_nil
    rw [if_neg (by simpa using hne), readKeyParts_keySql (List.cons_ne_nil _ _) fun q hq ↦
      (hkey q hq).toClosed]
    rfl

end Dump

/-! ## Index statements -/

namespace Index

/-- What comes before the name. -/
def headText (unique nullFiltered : Bool) : List Char :=
  "CREATE ".toList ++ ((if unique then "UNIQUE ".toList else [])
    ++ ((if nullFiltered then "NULL_FILTERED ".toList else []) ++ "INDEX".toList))

/-- Behind `CREATE` comes a word that no other statement has there. -/
theorem exists_headText (unique nullFiltered : Bool) :
    ∃ u, headText unique nullFiltered = "CREATE".toList ++ ' ' :: u ∧
      u.head?.any (!isBlank ·) = true ∧ u.head?.any (!fold · == 't') = true := by
  unfold headText
  cases unique <;> cases nullFiltered
  · exact ⟨"INDEX".toList, by decide, by decide, by decide⟩
  · exact ⟨"NULL_FILTERED INDEX".toList, by decide, by decide, by decide⟩
  · exact ⟨"UNIQUE INDEX".toList, by decide, by decide, by decide⟩
  · exact ⟨"UNIQUE NULL_FILTERED INDEX".toList, by decide, by decide, by decide⟩

theorem headText_append (unique nullFiltered : Bool) (r : List Char) :
    headText unique nullFiltered ++ r = "CREATE".toList ++ ' ' ::
      ((if unique then "UNIQUE".toList ++ [' '] else [])
        ++ ((if nullFiltered then "NULL_FILTERED".toList ++ [' '] else [])
          ++ ("INDEX".toList ++ r))) := by
  unfold headText
  cases unique <;> cases nullFiltered <;> simp

/-- The list of the stored columns. -/
def storedText (names : List String) : List Char :=
  ", ".toList.intercalate (names.map fun c ↦ (quote c).toList)

/-- The clause of the stored columns. -/
def storingText (storing : List String) : List Char :=
  if storing.isEmpty then [] else " STORING (".toList ++ (storedText storing ++ [')'])

/-- The clause of the table that the index is interleaved in. -/
def parentText (parent : Option String) : List Char :=
  parent.elim [] fun p ↦ ", INTERLEAVE IN ".toList ++ (quote p).toList

theorem toList_sql (i : Index) :
    i.sql.toList = headText i.unique i.nullFiltered ++ ' ' :: ((quote i.name).toList
      ++ (" ON ".toList ++ ((quote i.table).toList ++ (" (".toList ++ ((keySql i.columns).toList
        ++ ')' :: (storingText i.storing ++ parentText i.interleaveIn)))))) := by
  have hindex : "INDEX ".toList = "INDEX".toList ++ [' '] := by decide
  have hstoring : (if i.storing.isEmpty then "" else
      " STORING (" ++ ", ".intercalate (i.storing.map quote) ++ ")").toList
        = storingText i.storing := by
    rw [storingText]
    split
    · rfl
    · rw [String.toList_append, String.toList_append, String.toList_intercalate, List.map_map,
        List.append_assoc]
      rfl
  have hhead : ("CREATE " ++ (if i.unique then "UNIQUE " else "") ++
      (if i.nullFiltered then "NULL_FILTERED " else "") ++ "INDEX ").toList
        = headText i.unique i.nullFiltered ++ [' '] := by
    unfold headText
    cases i.unique <;> cases i.nullFiltered <;> decide
  unfold sql
  rw [String.toList_append, String.toList_append, hstoring]
  simp only [String.toList_append] at hhead ⊢
  rw [hhead]
  simp only [List.append_assoc, List.cons_append, List.nil_append]
  unfold parentText
  cases i.interleaveIn with
  | none => rfl
  | some p => dsimp only [Option.elim_some]; rw [String.toList_append]; rfl

/-- Can be read back. -/
structure Readable (i : Index) : Prop where
  name : Legible i.name
  table : Legible i.table
  columns_ne_nil : i.columns ≠ []
  referenced : ∀ c ∈ i.referenced, Listable c
  interleaveIn : ∀ p ∈ i.interleaveIn, Legible p

end Index

namespace Dump

/-- A keyword that may be left out is read where it stands, and passed over where the text begins
with another letter. -/
theorem run_optional {w : String} {a : Char} {ws u cs : List Char} (written : Bool)
    (hu : u.map fold = w.toList) (hw : w.toList = a :: ws) (hcs : Stops isBlank cs)
    (hne : Stops (fold · == a) cs) :
    (attempt (do keyword w; gap)).run ((if written then u ++ [' '] else []) ++ cs)
      = some (if written then some () else none, cs) := by
  cases written with
  | false =>
    rw [if_neg Bool.false_ne_true, if_neg Bool.false_ne_true, List.nil_append]
    refine run_attempt_of_none (run_bind_of_none ?_)
    cases cs with
    | nil => rw [run_keyword, hw]; rfl
    | cons c cs => exact run_keyword_cons_of_ne hw (by simpa using stops_cons.1 hne)
  | true =>
    rw [if_pos rfl, if_pos rfl, List.append_assoc, List.singleton_append]
    refine run_attempt_of_run ?_
    rw [run_bind_of_run (run_keyword_append hu _), run_gap_of_stops (by decide) hcs]

/-- The words between `CREATE` and the name of an index. -/
theorem run_indexWords (unique nullFiltered : Bool) (r : List Char) {α : Type}
    (f : Option Unit → Option Unit → Scanner α) :
    (do
      let unique ← attempt do
        keyword "unique"
        gap
      let nullFiltered ← attempt do
        keyword "null_filtered"
        gap
      keyword "index"
      f unique nullFiltered : Scanner α).run
        ((if unique then "UNIQUE".toList ++ [' '] else [])
          ++ ((if nullFiltered then "NULL_FILTERED".toList ++ [' '] else [])
            ++ ("INDEX".toList ++ r)))
      = (f (if unique then some () else none) (if nullFiltered then some () else none)).run r := by
  have hfiltered {p : Char → Bool} (hi : p 'I' = false) (hn : p 'N' = false) :
      Stops p ((if nullFiltered then "NULL_FILTERED".toList ++ [' '] else [])
        ++ ("INDEX".toList ++ r)) := by
    cases nullFiltered
    · exact stops_cons.2 hi
    · exact stops_cons.2 hn
  -- Neither word can be taken for the next, they begin with different letters.
  rw [run_bind_of_run (run_optional unique (by decide : "UNIQUE".toList.map fold = "unique".toList)
      (by decide : "unique".toList = 'u' :: "nique".toList) (hfiltered (by decide) (by decide))
      (hfiltered (by decide) (by decide))),
    run_bind_of_run (run_optional nullFiltered
      (by decide : "NULL_FILTERED".toList.map fold = "null_filtered".toList)
      (by decide : "null_filtered".toList = 'n' :: "ull_filtered".toList)
      (stops_append (by decide) r) (stops_append (by decide) r)),
    run_bind_of_run (run_keyword_append (by decide : "INDEX".toList.map fold = "index".toList) r)]

theorem stops_indexWords (unique nullFiltered : Bool) (r : List Char) :
    Stops isBlank ((if unique then "UNIQUE".toList ++ [' '] else [])
      ++ ((if nullFiltered then "NULL_FILTERED".toList ++ [' '] else [])
        ++ ("INDEX".toList ++ r))) := by
  cases unique <;> cases nullFiltered <;> exact stops_cons.2 (by decide)

theorem run_indexHead (unique nullFiltered : Bool) (r : List Char) :
    indexHead.run (Index.headText unique nullFiltered ++ r) = some ((unique, nullFiltered), r) := by
  have hcreate (cs : List Char) : (do keyword "create"; gap : Scanner Unit).run
      ("CREATE".toList ++ ' ' :: cs) = some ((), stripLeft cs) := by
    rw [run_bind_of_run (run_keyword_append (by decide) _)]
    rfl
  rw [Index.headText_append, indexHead,
    run_bind_of_run (run_blanks_of_stops (stops_append (by decide) _)),
    run_bind_of_run (run_attempt_of_run (hcreate _)), stripLeft_eq_self (stops_indexWords _ _ _),
    run_indexWords]
  cases unique <;> cases nullFiltered <;> rfl

/-! ### The clauses behind the key -/

/-- The list of the columns that an index stores. -/
def storingClause : Scanner (List Char) := do
  blanks
  keyword "storing"
  parenthesised

/-- The table in whose rows an index is kept. -/
def interleaveInClause : Scanner String := do
  blanks
  symbol ','
  blanks
  phrase ["interleave", "in"]
  gap
  name

/-- What may stand behind the stored columns, up to the end of the statement. -/
def indexEnd {α : Type} (f : Option String → α) : Scanner α := do
  let parent ← attempt interleaveInClause
  blanks
  finished
  return f parent

/-- What may stand behind the key of an index, up to the end of the statement. -/
def indexOptions {α : Type} (f : Option (List Char) → Option String → α) : Scanner α := do
  let storing ← attempt storingClause
  indexEnd (f storing)

theorem indexText_eq : indexText = (do
    let (unique, nullFiltered) ← indexHead
    gap
    let n ← name
    gap
    keyword "on"
    gap
    let table ← name
    let columns ← parenthesised
    indexOptions (IndexText.mk n table unique nullFiltered columns)) := rfl

/-- The stored columns are what stands up to the next parenthesis. -/
theorem run_storingClause_eq {storing : List String} (hne : storing ≠ []) (r : List Char) :
    storingClause.run (Index.storingText storing ++ r)
      = (upTo ')').run (Index.storedText storing ++ ')' :: r) := by
  have htext : Index.storingText storing ++ r = ' ' :: ("STORING".toList ++ (" (".toList
      ++ (Index.storedText storing ++ ')' :: r))) := by
    have hlit : " STORING (".toList = ' ' :: ("STORING".toList ++ " (".toList) := by decide
    rw [Index.storingText, if_neg (by simpa using hne), hlit]
    simp only [List.cons_append, List.append_assoc, List.nil_append]
  rw [htext, storingClause,
    run_bind_of_run (run_blanks_cons (by decide) (stops_append (by decide) _)),
    run_bind_of_run (run_keyword_append (by decide) _), run_parenthesised_eq]

theorem stops_parentText (parent : Option String) : Stops isBlank (Index.parentText parent) := by
  cases parent with
  | none => exact stops_nil _
  | some p => exact stops_append (u := ", INTERLEAVE IN ".toList) (by decide) _

/-- What follows is not taken for stored columns. -/
theorem run_storingClause_parentText (parent : Option String) :
    storingClause.run (Index.parentText parent) = none := by
  rw [storingClause, run_bind_of_run (run_blanks_of_stops (stops_parentText parent))]
  cases parent <;> rfl

theorem parentText_some (parent : String) : Index.parentText (some parent)
    = ',' :: ' ' :: ("INTERLEAVE".toList
      ++ ' ' :: ("IN".toList ++ ' ' :: ((quote parent).toList ++ []))) := by
  have hlit : ", INTERLEAVE IN ".toList
      = ',' :: ' ' :: ("INTERLEAVE".toList ++ ' ' :: ("IN".toList ++ [' '])) := by
    decide
  unfold Index.parentText
  rw [Option.elim_some, hlit, List.append_nil]
  simp only [List.cons_append, List.append_assoc, List.nil_append]

theorem run_interleaveInClause_eq (parent : String) :
    interleaveInClause.run (Index.parentText (some parent)) =
      name.run ((quote parent).toList ++ []) := by
  have hphrase (cs : List Char) : (phrase ["interleave", "in"]).run
      ("INTERLEAVE".toList ++ ' ' :: ("IN".toList ++ cs)) = some ((), cs) := by
    rw [run_phrase_cons (by decide) (by decide) (stops_append (by decide) _), phrase,
      run_keyword_append (by decide)]
  rw [parentText_some, interleaveInClause,
    run_bind_of_run (run_blanks_of_stops (stops_cons.2 (by decide))),
    run_bind_of_run (run_symbol _ _),
    run_bind_of_run (run_blanks_cons (by decide) (stops_append (by decide) _)),
    run_bind_of_run (hphrase _),
    run_bind_of_run (run_gap_of_stops (by decide) (stops_quote_append _ _))]

theorem run_indexEnd {α : Type} {f : Option String → α} {parent : Option String}
    (h : ∀ p ∈ parent, Legible p) :
    (indexEnd f).run (Index.parentText parent) = some (f parent, []) := by
  have hparent : (attempt interleaveInClause).run (Index.parentText parent) =
      some (parent, []) := by
    cases parent with
    | none => exact run_attempt_of_none (run_bind_of_run (run_blanks_of_stops (stops_nil _)))
    | some p =>
      refine run_attempt_of_run ?_
      rw [run_interleaveInClause_eq, run_name_quote (h p rfl) (stops_nil _)]
  rw [indexEnd, run_bind_of_run hparent, run_bind_of_run (run_blanks_of_stops (stops_nil _)),
    run_bind_of_run run_finished_nil]
  rfl

/-- Both clauses may be missing, and then what follows is not taken for them. -/
theorem run_indexOptions {α : Type} {f : Option (List Char) → Option String → α}
    {storing : List String} (hclose : ')' ∉ Index.storedText storing) {parent : Option String}
    (h : ∀ p ∈ parent, Legible p) :
    (indexOptions f).run (Index.storingText storing ++ Index.parentText parent)
      = some (f (if storing.isEmpty then none else some (Index.storedText storing)) parent,
        []) := by
  have hstoring : (attempt storingClause).run (Index.storingText storing ++ Index.parentText parent)
      = some (if storing.isEmpty then none else some (Index.storedText storing),
        Index.parentText parent) := by
    by_cases hs : storing = []
    · rw [hs]
      exact run_attempt_of_none (run_storingClause_parentText parent)
    · rw [if_neg (by simpa using hs)]
      refine run_attempt_of_run ?_
      rw [run_storingClause_eq hs, run_upTo hclose]
  rw [indexOptions, run_bind_of_run hstoring, run_indexEnd h]

/-! ### Index statements that are read -/

/-- Stored columns are read off a list that is cut between them, and empty names are left out. -/
theorem storedColumns_of_apart {names : List String}
    (h : Apart (names.map fun c ↦ (quote c).toList)) :
    storedColumns (Index.storedText names) = names.filter (· != "") := by
  rw [storedColumns, Index.storedText]
  cases names with
  | nil => decide
  | cons c cs =>
    have hhead : unquote (String.ofList ([] ++ (quote c).toList)) = c :=
      unquote_quote c fun d hd ↦ absurd hd List.not_mem_nil
    have htail : cs.map (((fun part ↦ unquote (String.ofList part)) ∘ ([' '] ++ ·))
        ∘ fun d ↦ (quote d).toList) = cs := by
      refine (List.map_congr_left (g := id) fun d _ ↦ ?_).trans (List.map_id cs)
      dsimp only [Function.comp_apply, id]
      rw [unquote_quote d (List.all_eq_true.1 (by decide))]
    rw [List.nil_append] at hhead
    rw [List.map_cons] at h
    rw [List.map_cons, h.splitCommas_eq, List.map_cons, List.map_map, List.map_map, hhead, htail]

theorem apart_quote {names : List String} (h : ∀ c ∈ names, Balanced c) :
    Apart (names.map fun c ↦ (quote c).toList) := by
  refine apart_of_sealed fun x hx ↦ ?_
  obtain ⟨c, hc, rfl⟩ := List.mem_map.1 hx
  exact (h c hc).sealed_quote

theorem filter_ne_empty {names : List String} (h : ∀ c ∈ names, c ≠ "") :
    names.filter (· != "") = names :=
  List.filter_eq_self.2 fun c hc ↦ by simpa using h c hc

/-- An index statement is cut into its parts. -/
theorem value?_indexText {i : Index} (hname : Legible i.name) (htable : Legible i.table)
    (hcolumns : ')' ∉ (keySql i.columns).toList)
    (hstoring : ')' ∉ Index.storedText i.storing)
    (hparent : ∀ p ∈ i.interleaveIn, Legible p) :
    indexText.value? i.sql.toList
      = some ⟨i.name, i.table, i.unique, i.nullFiltered, (keySql i.columns).toList,
          if i.storing.isEmpty then none else some (Index.storedText i.storing),
          i.interleaveIn⟩ := by
  have hon (cs : List Char) : " ON ".toList ++ cs = ' ' :: ("ON".toList ++ ' ' :: cs) := by
    simp
  have hopen {p : Char → Bool} (hp : p ' ' = false) (cs : List Char) :
      Stops p (" (".toList ++ cs) := stops_cons.2 hp
  rw [value?, Index.toList_sql, hon, indexText_eq, run_bind_of_run (run_indexHead _ _ _),
    run_bind_of_run (run_gap_of_stops (by decide) (stops_quote_append _ _)),
    run_bind_of_run (run_name_quote hname (stops_cons.2 (by decide))),
    run_bind_of_run (run_gap_of_stops (by decide) (stops_append (by decide) _)),
    run_bind_of_run (run_keyword_append (by decide) _),
    run_bind_of_run (run_gap_of_stops (by decide) (stops_quote_append _ _)),
    run_bind_of_run (run_name_quote htable (hopen (by decide) _)),
    run_bind_of_run (run_parenthesised hcolumns _), run_indexOptions hstoring hparent]
  rfl

/-- The clause of the stored columns may be missing, which means that there are none. -/
theorem getD_storedColumns (names : List String) :
    ((if names.isEmpty then none else some (Index.storedText names)).map storedColumns).getD []
      = storedColumns (Index.storedText names) := by
  cases names <;> rfl

/-- What is left of an index that is read off its statement depends on its two lists. -/
theorem readIndex_eq {i : Index} (hname : Legible i.name) (htable : Legible i.table)
    (hcolumns : ')' ∉ (keySql i.columns).toList)
    (hstoring : ')' ∉ Index.storedText i.storing)
    (hparent : ∀ p ∈ i.interleaveIn, Legible p) :
    readIndex i.sql.toList = (readKeyParts (keySql i.columns).toList).map fun parts ↦
      { i with
        columns := parts
        storing := storedColumns (Index.storedText i.storing) } := by
  rw [readIndex, value?_indexText hname htable hcolumns hstoring hparent]
  dsimp only
  rw [getD_storedColumns]
  rfl

/-- An index is read off its statement but for the stored columns that have no name. -/
theorem readIndex_filter {i : Index} (hname : Legible i.name) (htable : Legible i.table)
    (hne : i.columns ≠ []) (hcolumns : ∀ p ∈ i.columns, Listable p.name)
    (hstoring : ∀ c ∈ i.storing, Listable c ∨ c = "") (hparent : ∀ p ∈ i.interleaveIn, Legible p) :
    readIndex i.sql.toList = .ok { i with storing := i.storing.filter (· != "") } := by
  have hstored : ∀ c ∈ i.storing, Balanced c ∧ ')' ∉ c.toList := fun c hc ↦
    (hstoring c hc).elim (fun h ↦ ⟨h.balanced, h.noParenthesis⟩) fun h ↦
      h ▸ ⟨balanced_empty, by decide⟩
  have hclose : ')' ∉ Index.storedText i.storing := by
    refine notMem_intercalate (by decide) fun x hx ↦ ?_
    obtain ⟨c, hc, rfl⟩ := List.mem_map.1 hx
    exact notMem_quote (hstored c hc).2 (by decide) (by decide)
  rw [readIndex_eq hname htable (notMem_keySql fun p hp ↦ (hcolumns p hp).noParenthesis) hclose
    hparent,
    readKeyParts_keySql hne fun p hp ↦ (hcolumns p hp).toClosed,
    storedColumns_of_apart (apart_quote fun c hc ↦ (hstored c hc).1)]
  rfl

/-- An index is read off its statement. -/
theorem readIndex_sql {i : Index} (h : i.Readable) : readIndex i.sql.toList = .ok i := by
  have hcolumns : ∀ p ∈ i.columns, Listable p.name := fun p hp ↦
    h.referenced p.name (List.mem_append_left _ (List.mem_map_of_mem hp))
  have hstoring : ∀ c ∈ i.storing, Listable c := fun c hc ↦
    h.referenced c (List.mem_append_right _ hc)
  rw [readIndex_filter h.name h.table h.columns_ne_nil hcolumns (fun c hc ↦ Or.inl (hstoring c hc))
    h.interleaveIn, filter_ne_empty fun c hc ↦ (hstoring c hc).ne_empty]

end Dump

end SchemaLedger
