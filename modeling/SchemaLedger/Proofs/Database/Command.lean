import Mathlib
import SchemaLedger.Database.Update
import SchemaLedger.Proofs.Dump.Refusal

/-!
# Statements and their commands

A written statement tells the database to do what it was written for, as long as the names that a
command takes from it can be read. A statement in which one of these names is empty is refused,
whatever else it is taken for: two backticks are no name.
-/

namespace SchemaLedger

open Text Text.Scanner Identifier

/-- The command that a statement gives. -/
def Ddl.command : Ddl → Command
  | createTable table ifNotExists _ _ _ => .createTable table ifNotExists
  | createIndex index => .createIndex index.name index.table
  | dropIndex name => .dropIndex name
  | addColumn table column => .alterTable table (some (.addColumn column.text.toList))
  | dropColumn table column => .alterTable table (some (.dropColumn column))
  | alterColumn table column => .alterTable table (some (.alterColumn column.definition.toList))
  | allowCommitTimestamp table column =>
    .alterTable table (some (.allowCommitTimestamp column true))
  | renameTable old new => .alterTable old (some (.renameTo new))
  | dropTable table ifExists => .dropTable table ifExists

/-- The names that the command takes from its statement. -/
def Ddl.targets : Ddl → List String
  | createTable table _ _ _ _ => [table]
  | createIndex index => [index.name, index.table]
  | dropIndex name => [name]
  | addColumn table _ => [table]
  | dropColumn table column => [table, column]
  | alterColumn table _ => [table]
  | allowCommitTimestamp table column => [table, column]
  | renameTable old new => [old, new]
  | dropTable table _ => [table]

/-- The columns that a statement writes. -/
def Ddl.clauses : Ddl → List ColumnClause
  | createTable _ _ columns _ _ => columns
  | addColumn _ column => [column]
  | alterColumn _ column => [column]
  | _ => []

/-! ## Changes to a table -/

namespace TableAction

theorem yields_addColumnText : Yields (fun a ↦ ∃ cs, a = addColumn cs) addColumnText :=
  .after fun _ ↦ .after fun _ ↦ .after fun cs ↦ .pure ⟨cs, rfl⟩

theorem yields_dropColumnText : Yields (fun a ↦ ∃ n, a = dropColumn n) dropColumnText :=
  .after fun _ ↦ .after fun _ ↦ .after fun n ↦ .after fun _ ↦ .after fun _ ↦ .pure ⟨n, rfl⟩

theorem yields_allowText :
    Yields (fun a ↦ ∃ n allowed, a = allowCommitTimestamp n allowed) allowText :=
  .after fun _ ↦ .after fun _ ↦ .after fun n ↦ .after fun _ ↦ .after fun _ ↦ .after fun _ ↦
    .after fun allowed ↦ .after fun _ ↦ .after fun _ ↦ .pure ⟨n, allowed, rfl⟩

theorem yields_alterColumnText : Yields (fun a ↦ ∃ cs, a = alterColumn cs) alterColumnText :=
  .after fun _ ↦ .after fun _ ↦ .after fun cs ↦ .pure ⟨cs, rfl⟩

/-- A name that is given to a table can be read back. -/
theorem yields_renameText : Yields (fun a ↦ ∃ n, Legible n ∧ a = renameTo n) renameText :=
  .after fun _ ↦ .after fun _ ↦ yields_name.bind fun n hn ↦ .after fun _ ↦ .after fun _ ↦
    .pure ⟨n, hn, rfl⟩

/-- A change is read in the first of five forms in which it can be read. -/
theorem of_ofText? {cs : List Char} {action : TableAction} (h : ofText? cs = some action) :
    addColumnText.value? cs = some action ∨ dropColumnText.value? cs = some action ∨
      allowText.value? cs = some action ∨ alterColumnText.value? cs = some action ∨
        renameText.value? cs = some action := by
  rw [ofText?, value?_orElse, value?_orElse, value?_orElse, value?_orElse] at h
  simp only [Option.or_eq_some_iff] at h
  tauto

theorem ofText?_addColumn {cs : List Char} (h : Stops isBlank cs) :
    ofText? ("ADD COLUMN ".toList ++ cs) = some (.addColumn cs) := by
  have htext :
      "ADD COLUMN ".toList ++ cs = "ADD".toList ++ ' ' :: ("COLUMN".toList ++ ' ' :: cs) := by
    simp
  have hrun : addColumnText.run ("ADD COLUMN ".toList ++ cs) = some (.addColumn cs, []) := by
    rw [htext, addColumnText,
      run_bind_of_run (run_phrase_pair (by decide) (by decide) (by decide) _),
      run_bind_of_run (run_gap_of_stops (by decide) h), run_bind_of_run (run_remainder _)]
    rfl
  rw [ofText?, value?, run_orElse_of_run hrun]
  rfl

section

variable {u : List Char} (cs : List Char)

private theorem run_addColumnText (h : u.head?.any (fold · != 'a') = true) :
    addColumnText.run (u ++ cs) = none :=
  run_bind_of_none (run_phrase_of_ne (by decide : "add".toList = 'a' :: "dd".toList) h cs)

private theorem run_dropColumnText (h : u.head?.any (fold · != 'd') = true) :
    dropColumnText.run (u ++ cs) = none :=
  run_bind_of_none (run_phrase_of_ne (by decide : "drop".toList = 'd' :: "rop".toList) h cs)

private theorem run_allowText (h : u.head?.any (fold · != 'a') = true) :
    allowText.run (u ++ cs) = none :=
  run_bind_of_none (run_phrase_of_ne (by decide : "alter".toList = 'a' :: "lter".toList) h cs)

private theorem run_alterColumnText (h : u.head?.any (fold · != 'a') = true) :
    alterColumnText.run (u ++ cs) = none :=
  run_bind_of_none (run_phrase_of_ne (by decide : "alter".toList = 'a' :: "lter".toList) h cs)

private theorem run_renameText (h : u.head?.any (fold · != 'r') = true) :
    renameText.run (u ++ cs) = none :=
  run_bind_of_none (run_phrase_of_ne (by decide : "rename".toList = 'r' :: "ename".toList) h cs)

end

theorem ofText?_dropColumn {n : String} (h : '\x60' ∉ n.toList) :
    ofText? ("DROP COLUMN ".toList ++ (quote n).toList)
      = if n = "" then none else some (.dropColumn n) := by
  have htext : "DROP COLUMN ".toList ++ (quote n).toList
      = "DROP".toList ++ ' ' :: ("COLUMN".toList ++ ' ' :: ((quote n).toList ++ [])) := by
    simp
  have hrun : dropColumnText.run ("DROP COLUMN ".toList ++ (quote n).toList)
      = if n = "" then none else some (.dropColumn n, []) := by
    rw [htext, dropColumnText,
      run_bind_of_run (run_phrase_pair (by decide) (by decide) (by decide) _),
      run_bind_of_run (run_gap_of_stops (by decide) (stops_quote_append _ _)),
      run_bind_name_quote h (stops_nil _), run_bind_of_run (run_blanks_of_stops (stops_nil _)),
      run_bind_of_run run_finished_nil]
    rfl
  rw [ofText?, value?, run_orElse_of_none (run_addColumnText _ (by decide))]
  by_cases hn : n = ""
  · rw [if_pos hn] at hrun ⊢
    rw [run_orElse_of_none hrun, run_orElse_of_none (run_allowText _ (by decide)),
      run_orElse_of_none (run_alterColumnText _ (by decide)), run_renameText _ (by decide)]
    rfl
  · rw [if_neg hn] at hrun ⊢
    rw [run_orElse_of_run hrun]
    rfl

theorem ofText?_rename {n : String} (h : '\x60' ∉ n.toList) :
    ofText? ("RENAME TO ".toList ++ (quote n).toList)
      = if n = "" then none else some (.renameTo n) := by
  have htext : "RENAME TO ".toList ++ (quote n).toList
      = "RENAME".toList ++ ' ' :: ("TO".toList ++ ' ' :: ((quote n).toList ++ [])) := by
    simp
  have hrun : renameText.run ("RENAME TO ".toList ++ (quote n).toList)
      = if n = "" then none else some (.renameTo n, []) := by
    rw [htext, renameText, run_bind_of_run (run_phrase_pair (by decide) (by decide) (by decide) _),
      run_bind_of_run (run_gap_of_stops (by decide) (stops_quote_append _ _)),
      run_bind_name_quote h (stops_nil _), run_bind_of_run (run_blanks_of_stops (stops_nil _)),
      run_bind_of_run run_finished_nil]
    rfl
  rw [ofText?, value?, run_orElse_of_none (run_addColumnText _ (by decide)),
    run_orElse_of_none (run_dropColumnText _ (by decide)),
    run_orElse_of_none (run_allowText _ (by decide)),
    run_orElse_of_none (run_alterColumnText _ (by decide)), hrun]
  split <;> rfl

private theorem run_alterPhrase (cs : List Char) :
    (phrase ["alter", "column"]).run ("ALTER COLUMN".toList ++ cs) = some ((), cs) := by
  have htext : "ALTER COLUMN".toList ++ cs = "ALTER".toList ++ ' ' :: ("COLUMN".toList ++ cs) := by
    simp
  rw [htext, run_phrase_pair (by decide) (by decide) (by decide)]

private theorem run_addPhrase (cs : List Char) :
    addColumnText.run ("ALTER COLUMN".toList ++ cs) = none := by
  have hadd : "add".toList = 'a' :: "dd".toList := by decide
  have htext : "ALTER COLUMN".toList = 'A' :: 'L' :: "TER COLUMN".toList := by decide
  rw [addColumnText, htext, phrase]
  · refine run_bind_of_none (run_bind_of_none ?_)
    rw [run_keyword, hadd, List.cons_append, dropFolded, if_pos (by decide)]
    rfl
  · exact List.cons_ne_nil _ _

/-- `SET` begins no type. -/
private theorem run_set (t : ColumnType) (length : Option ColumnLength) (array : Bool)
    (r : List Char) : (keyword "set").run ((t.sql length array).toList ++ r) = none := by
  have hset : "set".toList = 's' :: "et".toList := by decide
  rw [ColumnType.toList_sql]
  cases array with
  | true => exact run_keyword_cons_of_ne hset (by decide)
  | false =>
    cases t
    case string =>
      have hstring : ColumnType.string.text.toList = 's' :: 't' :: "ring".toList := by decide
      rw [if_neg Bool.false_ne_true, ColumnType.sizedText, hstring, run_keyword, hset]
      rfl
    all_goals exact run_keyword_cons_of_ne hset (by decide)

/-- What follows `ALTER COLUMN` describes a column unless it is the permission to hold the commit
timestamp. -/
theorem ofText?_alterColumn {cs : List Char} (h : Stops isBlank cs)
    (hallow : allowText.run ("ALTER COLUMN".toList ++ ' ' :: cs) = none) :
    ofText? ("ALTER COLUMN".toList ++ ' ' :: cs) = some (.alterColumn cs) := by
  have hrun : alterColumnText.run ("ALTER COLUMN".toList ++ ' ' :: cs)
      = some (.alterColumn cs, []) := by
    rw [alterColumnText, run_bind_of_run (run_alterPhrase _),
      run_bind_of_run (run_gap_of_stops (by decide) h), run_bind_of_run (run_remainder _)]
    rfl
  rw [ofText?, value?, run_orElse_of_none (run_addPhrase _),
    run_orElse_of_none (run_dropColumnText _ (by decide)), run_orElse_of_none hallow,
    run_orElse_of_run hrun]
  rfl

theorem ofText?_definition (c : ColumnClause) (h : '\x60' ∉ c.name.toList) :
    ofText? ("ALTER COLUMN".toList ++ ' ' :: c.definition.toList)
      = some (.alterColumn c.definition.toList) := by
  have htext : c.definition.toList = (quote c.name).toList ++ ' ' ::
      ((c.type.sql c.length c.array).toList ++ Dump.attributeText c.notNull false) :=
    ColumnClause.toList_text { c with commitTimestamp := false }
  refine ofText?_alterColumn ?_ ?_
  · rw [htext]
    exact stops_quote_append _ _
  · rw [htext, allowText, run_bind_of_run (run_alterPhrase _),
      run_bind_of_run (run_gap_of_stops (by decide) (stops_quote_append _ _)),
      run_bind_name_quote h (stops_cons.2 (by decide)),
      run_bind_of_run (run_gap_of_stops (by decide)
        ((ColumnType.stops_sql _ _ _).append (ColumnType.toList_sql_ne_nil _ _ _))),
      run_bind_of_none (run_set _ _ _ _), ite_self]

/-- What the database is told of a column that may hold the commit timestamp. -/
def allowanceText (n : String) : List Char :=
  (quote n).toList ++ ' ' :: ("SET".toList ++ ' ' :: ColumnClause.commitTimestampOption.toList)

theorem ofText?_allow {n : String} (h : '\x60' ∉ n.toList) :
    ofText? ("ALTER COLUMN".toList ++ ' ' :: allowanceText n)
      = some (if n = "" then .alterColumn (allowanceText n) else .allowCommitTimestamp n true) := by
  have hrun : allowText.run ("ALTER COLUMN".toList ++ ' ' :: allowanceText n)
      = if n = "" then none else some (.allowCommitTimestamp n true, []) := by
    have hoption := Dump.run_options []
    have hstops := stops_append (p := isBlank) (u := ColumnClause.commitTimestampOption.toList)
      (by decide) []
    rw [List.append_nil] at hoption hstops
    rw [allowText, run_bind_of_run (run_alterPhrase _), allowanceText,
      run_bind_of_run (run_gap_of_stops (by decide) (stops_quote_append _ _)),
      run_bind_name_quote h (stops_cons.2 (by decide)),
      run_bind_of_run (run_gap_of_stops (by decide) (stops_append (by decide) _)),
      run_bind_of_run (run_keyword_append (by decide) _),
      run_bind_of_run (run_gap_of_stops (by decide) hstops), run_bind_of_run hoption,
      run_bind_of_run (run_blanks_of_stops (stops_nil _)), run_bind_of_run run_finished_nil]
    rfl
  -- Without a name the words are no permission, and the text is tried as the definition of a
  -- column.
  by_cases hn : n = ""
  · rw [if_pos hn] at hrun ⊢
    refine ofText?_alterColumn ?_ hrun
    rw [allowanceText]
    exact stops_quote_append _ _
  · rw [if_neg hn] at hrun ⊢
    rw [ofText?, value?, run_orElse_of_none (run_addPhrase _),
      run_orElse_of_none (run_dropColumnText _ (by decide)), run_orElse_of_run hrun]
    rfl

end TableAction

/-! ## Forms of statements -/

namespace Command

theorem yields_createTableText :
    Yields (fun c ↦ ∃ table ifNotExists, c = createTable table ifNotExists) createTableText :=
  .after fun _ ↦ .after fun _ ↦ .after fun _ ↦ .orElse
    (.after fun _ ↦ .after fun n ↦ .pure ⟨n, true, rfl⟩) (.after fun n ↦ .pure ⟨n, false, rfl⟩)

theorem yields_createIndexText :
    Yields (fun c ↦ ∃ index table, c = createIndex index table) createIndexText :=
  .after fun _ ↦ .after fun _ ↦ .after fun _ ↦ .after fun _ ↦ .after fun _ ↦ .after fun _ ↦
    .after fun _ ↦ .after fun index ↦ .after fun _ ↦ .after fun _ ↦ .after fun _ ↦
      .after fun table ↦
    .pure ⟨index, table, rfl⟩

theorem yields_dropTableText :
    Yields (fun c ↦ ∃ table ifExists, c = dropTable table ifExists) dropTableText :=
  .after fun _ ↦ .after fun _ ↦ .after fun _ ↦ .orElse
    (.after fun _ ↦ .after fun _ ↦ .after fun n ↦ .pure ⟨n, true, rfl⟩)
    (.after fun n ↦ .pure ⟨n, false, rfl⟩)

theorem yields_dropIndexText : Yields (fun c ↦ ∃ index, c = dropIndex index) dropIndexText :=
  .after fun _ ↦ .after fun _ ↦ .after fun _ ↦ .after fun n ↦ .pure ⟨n, rfl⟩

theorem yields_alterTableText :
    Yields (fun c ↦ ∃ table cs, c = alterTable table (TableAction.ofText? cs)) alterTableText :=
  .after fun _ ↦ .after fun _ ↦ .after fun _ ↦ .after fun n ↦ .after fun cs ↦ .pure ⟨n, cs, rfl⟩

/-- A statement is read in the first of five forms in which it can be read. -/
theorem of_ofText? {s : String} {c : Command} (h : ofText? s = some c) :
    createTableText.value? s.toList = some c ∨ createIndexText.value? s.toList = some c ∨
      dropTableText.value? s.toList = some c ∨ dropIndexText.value? s.toList = some c ∨
        alterTableText.value? s.toList = some c := by
  rw [ofText?, value?_orElse, value?_orElse, value?_orElse, value?_orElse] at h
  simp only [Option.or_eq_some_iff] at h
  tauto

section

variable {u : List Char} (cs : List Char)

/-- Behind blanks, of which there are none, a word with another first letter is refused. -/
theorem run_createTableText (hb : u.head?.any (!isBlank ·) = true)
    (h : u.head?.any (fold · != 'c') = true) : createTableText.run (u ++ cs) = none := by
  rw [createTableText, run_bind_of_run (run_blanks_of_stops (stops_append hb cs)),
    run_bind_of_none (run_phrase_of_ne (by decide : "create".toList = 'c' :: "reate".toList) h cs)]

theorem run_createIndexText (hb : u.head?.any (!isBlank ·) = true)
    (h : u.head?.any (fold · != 'c') = true) : createIndexText.run (u ++ cs) = none := by
  have hcreate : (keyword "create").run (u ++ cs) = none :=
    run_keyword_of_ne (by decide : "create".toList = 'c' :: "reate".toList) h cs
  rw [createIndexText, run_bind_of_run (run_blanks_of_stops (stops_append hb cs)),
    run_bind_of_none hcreate]

theorem run_dropTableText (hb : u.head?.any (!isBlank ·) = true)
    (h : u.head?.any (fold · != 'd') = true) : dropTableText.run (u ++ cs) = none := by
  rw [dropTableText, run_bind_of_run (run_blanks_of_stops (stops_append hb cs)),
    run_bind_of_none (run_phrase_of_ne (by decide : "drop".toList = 'd' :: "rop".toList) h cs)]

theorem run_dropIndexText (hb : u.head?.any (!isBlank ·) = true)
    (h : u.head?.any (fold · != 'd') = true) : dropIndexText.run (u ++ cs) = none := by
  rw [dropIndexText, run_bind_of_run (run_blanks_of_stops (stops_append hb cs)),
    run_bind_of_none (run_phrase_of_ne (by decide : "drop".toList = 'd' :: "rop".toList) h cs)]

theorem run_alterTableText (hb : u.head?.any (!isBlank ·) = true)
    (h : u.head?.any (fold · != 'a') = true) : alterTableText.run (u ++ cs) = none := by
  rw [alterTableText, run_bind_of_run (run_blanks_of_stops (stops_append hb cs)),
    run_bind_of_none (run_phrase_of_ne (by decide : "alter".toList = 'a' :: "lter".toList) h cs)]

end

/-! ### The first word -/

section

variable {s : String}

theorem ofText?_create (h : "CREATE".toList <+: s.toList) :
    ofText? s = (createTableText.value? s.toList).or (createIndexText.value? s.toList) := by
  obtain ⟨cs, hcs⟩ := h
  have hothers : (dropTableText <|> dropIndexText <|> alterTableText).value? s.toList = none := by
    rw [← hcs, value?_orElse, value?_orElse,
      value?_of_none (run_dropTableText cs (by decide) (by decide)),
      value?_of_none (run_dropIndexText cs (by decide) (by decide)),
      value?_of_none (run_alterTableText cs (by decide) (by decide))]
    rfl
  rw [ofText?, value?_orElse, value?_orElse, hothers, Option.or_none]

theorem ofText?_drop (h : "DROP".toList <+: s.toList) :
    ofText? s = (dropTableText.value? s.toList).or (dropIndexText.value? s.toList) := by
  obtain ⟨cs, hcs⟩ := h
  rw [ofText?, value?_orElse, value?_orElse, value?_orElse, value?_orElse, ← hcs,
    value?_of_none (run_createTableText cs (by decide) (by decide)),
    value?_of_none (run_createIndexText cs (by decide) (by decide)),
    value?_of_none (run_alterTableText cs (by decide) (by decide)), Option.or_none, Option.none_or,
    Option.none_or]

theorem ofText?_alter (h : "ALTER".toList <+: s.toList) :
    ofText? s = alterTableText.value? s.toList := by
  obtain ⟨cs, hcs⟩ := h
  rw [ofText?, value?_orElse, value?_orElse, value?_orElse, value?_orElse, ← hcs,
    value?_of_none (run_createTableText cs (by decide) (by decide)),
    value?_of_none (run_createIndexText cs (by decide) (by decide)),
    value?_of_none (run_dropTableText cs (by decide) (by decide)),
    value?_of_none (run_dropIndexText cs (by decide) (by decide)), Option.none_or, Option.none_or,
    Option.none_or, Option.none_or]

end

/-! ## Statements that drop -/

theorem toList_dropTable (n : String) (ifExists : Bool) :
    (Ddl.dropTable n ifExists).text.toList = "DROP".toList ++ ' ' :: ("TABLE".toList ++ ' '
      :: ((if ifExists then "IF".toList ++ ' ' :: ("EXISTS".toList ++ [' ']) else [])
        ++ ((quote n).toList ++ []))) := by
  unfold Ddl.text
  cases ifExists <;> simp

theorem toList_dropIndex (n : String) : (Ddl.dropIndex n).text.toList
    = "DROP".toList ++ ' ' :: ("INDEX".toList ++ ' ' :: ((quote n).toList ++ [])) := by
  unfold Ddl.text
  simp

theorem drop_prefix_dropTable (n : String) (ifExists : Bool) :
    "DROP".toList <+: (Ddl.dropTable n ifExists).text.toList := by
  rw [toList_dropTable]
  exact List.prefix_append _ _

theorem drop_prefix_dropIndex (n : String) : "DROP".toList <+: (Ddl.dropIndex n).text.toList := by
  rw [toList_dropIndex]
  exact List.prefix_append _ _

/-- A statement that drops a table drops no index. -/
theorem run_dropIndexText_dropTable (n : String) (ifExists : Bool) :
    dropIndexText.run (Ddl.dropTable n ifExists).text.toList = none := by
  have hindex : "index".toList = 'i' :: "ndex".toList := by decide
  rw [toList_dropTable, dropIndexText,
    run_bind_of_run (run_blanks_of_stops (stops_append (by decide) _)),
    run_bind_of_none (run_phrase_pair_of_stops (by decide) hindex (stops_append (by decide) _)
      (stops_append (by decide) _))]

/-- A statement that drops an index drops no table. -/
theorem run_dropTableText_dropIndex (n : String) :
    dropTableText.run (Ddl.dropIndex n).text.toList = none := by
  have htable : "table".toList = 't' :: "able".toList := by decide
  rw [toList_dropIndex, dropTableText,
    run_bind_of_run (run_blanks_of_stops (stops_append (by decide) _)),
    run_bind_of_none (run_phrase_pair_of_stops (by decide) htable (stops_append (by decide) _)
      (stops_append (by decide) _))]

/-- The name at the end of a text is read there unless it is empty. -/
private theorem run_lastName_quote {n : String} (h : '\x60' ∉ n.toList) (f : String → Command) :
    (do return f (← lastName) : Scanner Command).run ((quote n).toList ++ [])
      = if n = "" then none else some (f n, []) := by
  rw [lastName, bind_assoc, run_bind_name_quote h (stops_nil _), bind_assoc,
    run_bind_of_run (run_blanks_of_stops (stops_nil _)), bind_assoc,
    run_bind_of_run run_finished_nil]
  rfl

/-- No name can be read where `IF EXISTS` and an empty name stand. -/
private theorem run_lastName_ifExists :
    lastName.run ("IF".toList ++ ' ' :: ("EXISTS".toList ++ ' ' :: ((quote "").toList ++ [])))
      = none := by
  have hword :
      name.run ("IF".toList ++ ' ' :: ("EXISTS".toList ++ ' ' :: ((quote "").toList ++ [])))
      = some ("IF", ' ' :: ("EXISTS".toList ++ ' ' :: ((quote "").toList ++ []))) :=
    run_name_word (by decide) (List.all_eq_true.1 (by decide)) (stops_cons.2 (by decide))
  rw [lastName, run_bind_of_run hword, run_bind_of_run (run_blanks_cons (by decide)
    (stops_append (by decide) _)), run_bind_of_none (by rfl)]

/-- The quotation of a name does not begin with a word, so it is not taken for `IF EXISTS`. -/
private theorem run_ifExists_quote (n : String) :
    (phrase ["if", "exists"]).run ((quote n).toList ++ []) = none := by
  refine Option.eq_none_iff_forall_ne_some.2 fun p hp ↦ ?_
  rw [phrase] at hp
  · obtain ⟨-, -, m, hgap, -⟩ := exists_of_run_keyword_gap_quote (by decide) (stops_nil _) hp
    contradiction
  · exact List.cons_ne_nil _ _

private theorem run_dropTableText_text {n : String} (h : '\x60' ∉ n.toList) (ifExists : Bool) :
    dropTableText.run (Ddl.dropTable n ifExists).text.toList
      = if n = "" then none else some (.dropTable n ifExists, []) := by
  rw [toList_dropTable, dropTableText,
    run_bind_of_run (run_blanks_of_stops (stops_append (by decide) _)),
    run_bind_of_run (run_phrase_pair (by decide) (by decide) (by decide) _)]
  cases ifExists with
  | false =>
    rw [if_neg Bool.false_ne_true, List.nil_append,
      run_bind_of_run (run_gap_of_stops (by decide) (stops_quote_append _ _)),
      run_orElse_of_none (run_bind_of_none (run_ifExists_quote n)), run_lastName_quote h]
  | true =>
    have htail : (if true then "IF".toList ++ ' ' :: ("EXISTS".toList ++ [' ']) else [])
        ++ ((quote n).toList ++ [])
          = "IF".toList ++ ' ' :: ("EXISTS".toList ++ ' ' :: ((quote n).toList ++ [])) := by
      simp
    have hfirst : (do phrase ["if", "exists"]; gap; return .dropTable (← lastName) true :
        Scanner Command).run
          ("IF".toList ++ ' ' :: ("EXISTS".toList ++ ' ' :: ((quote n).toList ++ [])))
            = if n = "" then none else some (.dropTable n true, []) := by
      rw [run_bind_of_run (run_phrase_pair (by decide) (by decide) (by decide) _),
        run_bind_of_run (run_gap_of_stops (by decide) (stops_quote_append _ _)),
        run_lastName_quote h]
    rw [htail, run_bind_of_run (run_gap_of_stops (by decide) (stops_append (by decide) _))]
    by_cases hn : n = ""
    · rw [if_pos hn] at hfirst ⊢
      -- IF is taken for the name then, but EXISTS is left over behind it.
      rw [run_orElse_of_none hfirst, hn, run_bind_of_none run_lastName_ifExists]
    · rw [if_neg hn] at hfirst ⊢
      rw [run_orElse_of_run hfirst]

theorem ofText?_dropTable {n : String} (h : '\x60' ∉ n.toList) (ifExists : Bool) :
    ofText? (Ddl.dropTable n ifExists).text
      = if n = "" then none else some (.dropTable n ifExists) := by
  rw [ofText?_drop (drop_prefix_dropTable n ifExists),
    value?_of_none (run_dropIndexText_dropTable n ifExists), Option.or_none, value?,
    run_dropTableText_text h]
  split <;> rfl

theorem ofText?_dropIndex {n : String} (h : '\x60' ∉ n.toList) :
    ofText? (Ddl.dropIndex n).text = if n = "" then none else some (.dropIndex n) := by
  rw [ofText?_drop (drop_prefix_dropIndex n), value?_of_none (run_dropTableText_dropIndex n),
    Option.none_or, toList_dropIndex, value?, dropIndexText,
    run_bind_of_run (run_blanks_of_stops (stops_append (by decide) _)),
    run_bind_of_run (run_phrase_pair (by decide) (by decide) (by decide) _),
    run_bind_of_run (run_gap_of_stops (by decide) (stops_quote_append _ _)), run_lastName_quote h]
  split <;> rfl

/-! ## Statements that create -/

theorem create_prefix_createTable (table : String) (ifNotExists : Bool)
    (columns : List ColumnClause) (key : List KeyPart) (interleaves : List Interleave) :
    "CREATE".toList <+: (Ddl.createTable table ifNotExists columns key
      interleaves).text.toList := by
  rw [Dump.toList_createTable, Dump.headText_append]
  exact List.prefix_append _ _

theorem create_prefix_createIndex (i : Index) : "CREATE".toList <+: i.sql.toList := by
  rw [Index.toList_sql, Index.headText_append]
  exact List.prefix_append _ _

/-- What creates a table does not go on with a word that begins otherwise. -/
private theorem run_keyword_table {w : String} {a : Char} {r : List Char} (hw : w.toList = a :: r)
    (ha : 't' ≠ a) (ds : List Char) : (keyword w).run ("TABLE".toList ++ ds) = none :=
  run_keyword_of_ne hw (by simpa [show fold 'T' = 't' by decide] using ha) ds

/-- A statement that creates a table creates no index. -/
theorem run_createIndexText_headText (n : String) (ine : Bool) (cs : List Char) :
    createIndexText.run (Dump.headText n ine ++ cs) = none := by
  rw [Dump.headText_append, createIndexText,
    run_bind_of_run (run_blanks_of_stops (stops_append (by decide) _)),
    run_bind_of_run (run_keyword_append (by decide) _),
    run_bind_of_run (run_gap_of_stops (by decide) (stops_append (by decide) _)),
    run_bind_of_run (run_attempt_of_none (run_bind_of_none (run_keyword_table
      (by decide : "unique".toList = 'u' :: "nique".toList) (by decide) _))),
    run_bind_of_run (run_attempt_of_none (run_bind_of_none (run_keyword_table
      (by decide : "null_filtered".toList = 'n' :: "ull_filtered".toList) (by decide) _))),
    run_bind_of_none
      (run_keyword_table (by decide : "index".toList = 'i' :: "ndex".toList) (by decide) _)]

/-- A statement that creates an index creates no table. -/
theorem run_createTableText_sql (i : Index) : createTableText.run i.sql.toList = none := by
  rw [createTableText, run_bind_of_run (run_blanks_of_stops (Dump.stops_index i)),
    run_bind_of_none (Dump.run_createTable_index i)]

/-- Behind `IF NOT EXISTS` stands a name, or else `IF` is taken for it. -/
private theorem run_ifNotExists_name {n : String} (h : '\x60' ∉ n.toList) (cs : List Char) :
    ∃ m, ((do Dump.ifNotExists; return .createTable (← name) true) <|>
        (do return .createTable (← name) false) : Scanner Command).run
          ("IF NOT EXISTS ".toList ++ ((quote n).toList ++ ' ' :: '(' :: cs))
      = some (if n = "" then .createTable "IF" false else .createTable n true, m) := by
  have hquote : (quote n).toList.head?.any (!isBlank ·) = true := by
    obtain ⟨c, u, hu⟩ := List.exists_cons_of_ne_nil (toList_quote_ne_nil n)
    have hstop := stops_quote n
    rw [hu, stops_cons] at hstop
    rw [hu, List.head?_cons, Option.any_some, hstop]
    rfl
  have hfirst : (do Dump.ifNotExists; return .createTable (← name) true : Scanner Command).run
      ("IF NOT EXISTS ".toList ++ ((quote n).toList ++ ' ' :: '(' :: cs))
        = if n = "" then none else some (.createTable n true, ' ' :: '(' :: cs) := by
    rw [run_bind_of_run (Dump.run_ifNotExists _ hquote),
      run_bind_name_quote h (stops_cons.2 (by decide))]
    rfl
  by_cases hn : n = ""
  · have hword : name.run ("IF NOT EXISTS ".toList ++ ((quote n).toList ++ ' ' :: '(' :: cs))
        = some ("IF", " NOT EXISTS ".toList ++ ((quote n).toList ++ ' ' :: '(' :: cs)) :=
      @run_name_word 'I' ['F'] _ (by decide) (List.all_eq_true.1 (by decide))
        (stops_append (u := " NOT EXISTS ".toList) (by decide) _)
    rw [if_pos hn] at hfirst ⊢
    rw [run_orElse_of_none hfirst, run_bind_of_run hword]
    exact ⟨_, rfl⟩
  · rw [if_neg hn] at hfirst ⊢
    rw [run_orElse_of_run hfirst]
    exact ⟨_, rfl⟩

private theorem value?_createTableText_headText {n : String} (h : '\x60' ∉ n.toList) (ine : Bool)
    (cs : List Char) : createTableText.value? (Dump.headText n ine ++ cs)
      = if n = "" then if ine then some (.createTable "IF" false) else none
        else some (.createTable n ine) := by
  rw [value?, Dump.headText_append, createTableText,
    run_bind_of_run (run_blanks_of_stops (stops_append (by decide) _)),
    run_bind_of_run (run_phrase_pair (by decide) (by decide) (by decide) _)]
  cases ine with
  | false =>
    rw [if_neg Bool.false_ne_true, List.nil_append,
      run_bind_of_run (run_gap_of_stops (by decide) (stops_quote_append _ _)),
      run_orElse_of_none (run_bind_of_none
        (Dump.run_ifNotExists_quote n (stops_cons.2 (by decide)))),
      run_bind_name_quote h (stops_cons.2 (by decide))]
    split <;> rfl
  | true =>
    obtain ⟨m, hrun⟩ := run_ifNotExists_name h cs
    rw [if_pos rfl, run_bind_of_run (run_gap_of_stops (by decide) (stops_append (by decide) _)),
      hrun]
    split <;> rfl

/-- Where the name is empty, `IF` may be taken for it. -/
theorem ofText?_createTable {n : String} (h : '\x60' ∉ n.toList) (ine : Bool)
    (columns : List ColumnClause) (key : List KeyPart) (is : List Interleave) :
    ofText? (Ddl.createTable n ine columns key is).text
      = if n = "" then if ine then some (.createTable "IF" false) else none
        else some (.createTable n ine) := by
  rw [ofText?_create (create_prefix_createTable n ine columns key is), Dump.toList_createTable,
    value?_of_none (run_createIndexText_headText n ine _), Option.or_none,
    value?_createTableText_headText h]

theorem ofText?_createIndex {i : Index} (hname : '\x60' ∉ i.name.toList)
    (htable : '\x60' ∉ i.table.toList) :
    ofText? i.sql =
      if i.name = "" ∨ i.table = "" then none else some (.createIndex i.name i.table) := by
  have hon (cs : List Char) : " ON ".toList ++ cs = ' ' :: ("ON".toList ++ ' ' :: cs) := by
    simp
  obtain ⟨cs, hcs, hstops⟩ : ∃ cs, i.sql.toList = Index.headText i.unique i.nullFiltered ++ ' '
      :: ((quote i.name).toList ++ (" ON ".toList ++ ((quote i.table).toList ++ cs)))
        ∧ Stops isNameChar cs := by
    refine ⟨_, Index.toList_sql i, ?_⟩
    exact stops_append (by decide) _
  -- The reading ends behind the second name; what is indexed stays in the rest.
  rw [ofText?_create (create_prefix_createIndex i), value?_of_none (run_createTableText_sql i),
    Option.none_or, value?, hcs, hon, Index.headText_append, createIndexText,
    run_bind_of_run (run_blanks_of_stops (stops_append (by decide) _)),
    run_bind_of_run (run_keyword_append (by decide) _),
    run_bind_of_run (run_gap_of_stops (by decide) (Dump.stops_indexWords _ _ _)),
    Dump.run_indexWords, run_bind_of_run (run_gap_of_stops (by decide) (stops_quote_append _ _)),
    run_bind_name_quote hname (stops_cons.2 (by decide)),
    run_bind_of_run (run_gap_of_stops (by decide) (stops_append (by decide) _)),
    run_bind_of_run (run_keyword_append (by decide) _),
    run_bind_of_run (run_gap_of_stops (by decide) (stops_quote_append _ _)),
    run_bind_name_quote htable hstops]
  by_cases hn : i.name = ""
  · rw [if_pos hn, if_pos (Or.inl hn)]
    rfl
  · by_cases ht : i.table = ""
    · rw [if_neg hn, if_pos ht, if_pos (Or.inr ht)]
      rfl
    · rw [if_neg hn, if_neg ht, if_neg (not_or.2 ⟨hn, ht⟩)]
      rfl

end Command

/-! ## Statements that alter -/

/-- The statement tells what is done to a table behind the name of the table. -/
structure Ddl.Alters (d : Ddl) (t : String) (a : List Char) : Prop where
  toList_text : d.text.toList = "ALTER TABLE ".toList ++ ((quote t).toList ++ ' ' :: a)
  ne_nil : a ≠ []
  front : Stops isBlank a
  back : Stops isBlank a.reverse

namespace Ddl

variable (t : String)

theorem alters_addColumn (c : ColumnClause) :
    (addColumn t c).Alters t ("ADD COLUMN ".toList ++ c.text.toList) := by
  have hlit : " ADD COLUMN ".toList = ' ' :: "ADD COLUMN ".toList := by decide
  refine ⟨?_, List.append_ne_nil_of_left_ne_nil (by decide) _, stops_append (by decide) _,
    c.stops_reverse_text.reverse_append c.toList_text_ne_nil⟩
  unfold Ddl.text
  simp only [String.toList_append, hlit, List.append_assoc, List.cons_append]

theorem alters_dropColumn (n : String) :
    (dropColumn t n).Alters t ("DROP COLUMN ".toList ++ (quote n).toList) := by
  have hlit : " DROP COLUMN ".toList = ' ' :: "DROP COLUMN ".toList := by decide
  refine ⟨?_, List.append_ne_nil_of_left_ne_nil (by decide) _, stops_append (by decide) _,
    (stops_reverse_quote n).reverse_append (toList_quote_ne_nil n)⟩
  unfold Ddl.text
  simp only [String.toList_append, hlit, List.append_assoc, List.cons_append]

theorem alters_renameTable (n : String) :
    (renameTable t n).Alters t ("RENAME TO ".toList ++ (quote n).toList) := by
  have hlit : " RENAME TO ".toList = ' ' :: "RENAME TO ".toList := by decide
  refine ⟨?_, List.append_ne_nil_of_left_ne_nil (by decide) _, stops_append (by decide) _,
    (stops_reverse_quote n).reverse_append (toList_quote_ne_nil n)⟩
  unfold Ddl.text
  simp only [String.toList_append, hlit, List.append_assoc, List.cons_append]

theorem alters_alterColumn (c : ColumnClause) :
    (alterColumn t c).Alters t ("ALTER COLUMN".toList ++ ' ' :: c.definition.toList) := by
  have hlit : " ALTER COLUMN ".toList = ' ' :: ("ALTER COLUMN".toList ++ [' ']) := by decide
  have hends : Stops isBlank c.definition.toList.reverse ∧ c.definition.toList ≠ [] :=
    ⟨ColumnClause.stops_reverse_text { c with commitTimestamp := false },
      ColumnClause.toList_text_ne_nil { c with commitTimestamp := false }⟩
  refine ⟨?_, List.append_ne_nil_of_left_ne_nil (by decide) _, stops_append (by decide) _, ?_⟩
  · unfold Ddl.text
    simp only [String.toList_append, hlit, List.append_assoc, List.cons_append, List.nil_append]
  · rw [List.append_cons]
    exact hends.1.reverse_append hends.2

theorem alters_allowCommitTimestamp (n : String) :
    (allowCommitTimestamp t n).Alters t
      ("ALTER COLUMN".toList ++ ' ' :: TableAction.allowanceText n) := by
  have hlit : " ALTER COLUMN ".toList = ' ' :: ("ALTER COLUMN".toList ++ [' ']) := by decide
  have hset : " SET ".toList = ' ' :: ("SET".toList ++ [' ']) := by decide
  have hend : Stops isBlank ColumnClause.commitTimestampOption.toList.reverse := by
    exact stops_cons.2 (by decide)
  refine ⟨?_, List.append_ne_nil_of_left_ne_nil (by decide) _, stops_append (by decide) _, ?_⟩
  · unfold Ddl.text TableAction.allowanceText
    simp only [String.toList_append, hlit, hset, List.append_assoc, List.cons_append,
      List.nil_append]
  · rw [TableAction.allowanceText]
    simp only [← List.cons_append, ← List.append_assoc]
    rw [List.append_cons]
    exact hend.reverse_append (by decide)

end Ddl

namespace Command

section

variable {d : Ddl} {t : String} {a : List Char} (hd : d.Alters t a)

include hd

theorem toList_alterTable : d.text.toList
    = "ALTER".toList ++ ' ' :: ("TABLE".toList ++ ' ' :: ((quote t).toList ++ ' ' :: a)) := by
  rw [hd.toList_text]
  simp

theorem alter_prefix_alterTable : "ALTER".toList <+: d.text.toList := by
  rw [toList_alterTable hd]
  exact List.prefix_append _ _

theorem ofText?_alterTable (h : '\x60' ∉ t.toList) :
    ofText? d.text = if t = "" then none else some (.alterTable t (TableAction.ofText? a)) := by
  -- What stands behind the name is handed on whole: it has no blanks around it that could be
  -- trimmed.
  have haction : actionText.run (' ' :: a) = some (a, []) := by
    obtain ⟨c, cs, hcs⟩ := List.exists_cons_of_ne_nil hd.ne_nil
    rw [hcs]
    change (if isBlank ' ' then some (strip (c :: cs), []) else none) = _
    rw [if_pos (by decide), ← hcs, strip_eq_self hd.front hd.back]
  rw [ofText?_alter (alter_prefix_alterTable hd), value?, toList_alterTable hd, alterTableText,
    run_bind_of_run (run_blanks_of_stops (stops_append (by decide) _)),
    run_bind_of_run (run_phrase_pair (by decide) (by decide) (by decide) _),
    run_bind_of_run (run_gap_of_stops (by decide) (stops_quote_append _ _)),
    run_bind_name_quote h (stops_cons.2 (by decide)), run_bind_of_run haction]
  split <;> rfl

end

section

variable {t : String} (ht : '\x60' ∉ t.toList)

include ht

theorem ofText?_addColumn (c : ColumnClause) :
    ofText? (Ddl.addColumn t c).text
      = if t = "" then none else some (.alterTable t (some (.addColumn c.text.toList))) := by
  rw [ofText?_alterTable (Ddl.alters_addColumn t c) ht, TableAction.ofText?_addColumn c.stops_text]

theorem ofText?_dropColumn {n : String} (hn : '\x60' ∉ n.toList) :
    ofText? (Ddl.dropColumn t n).text = if t = "" then none
      else some (.alterTable t (if n = "" then none else some (.dropColumn n))) := by
  rw [ofText?_alterTable (Ddl.alters_dropColumn t n) ht, TableAction.ofText?_dropColumn hn]

theorem ofText?_renameTable {n : String} (hn : '\x60' ∉ n.toList) :
    ofText? (Ddl.renameTable t n).text = if t = "" then none
      else some (.alterTable t (if n = "" then none else some (.renameTo n))) := by
  rw [ofText?_alterTable (Ddl.alters_renameTable t n) ht, TableAction.ofText?_rename hn]

theorem ofText?_alterColumn {c : ColumnClause} (hc : '\x60' ∉ c.name.toList) :
    ofText? (Ddl.alterColumn t c).text
      = if t = "" then none
        else some (.alterTable t (some (.alterColumn c.definition.toList))) := by
  rw [ofText?_alterTable (Ddl.alters_alterColumn t c) ht, TableAction.ofText?_definition c hc]

theorem ofText?_allowCommitTimestamp {n : String} (hn : '\x60' ∉ n.toList) :
    ofText? (Ddl.allowCommitTimestamp t n).text = if t = "" then none
      else some (.alterTable t (some (if n = "" then .alterColumn (TableAction.allowanceText n)
        else .allowCommitTimestamp n true))) := by
  rw [ofText?_alterTable (Ddl.alters_allowCommitTimestamp t n) ht, TableAction.ofText?_allow hn]

end

/-! ## All statements -/

/-- A statement gives its command. -/
theorem ofText?_text {d : Ddl} (h : ∀ n ∈ d.targets, Legible n)
    (hclauses : ∀ c ∈ d.clauses, '\x60' ∉ c.name.toList) : ofText? d.text = some d.command := by
  cases d with
  | createTable table ine columns key is =>
    have htable := h table List.mem_cons_self
    rw [ofText?_createTable htable.noBacktick, if_neg htable.ne_empty]
    rfl
  | createIndex i =>
    have hname := h i.name List.mem_cons_self
    have htable := h i.table (List.mem_cons_of_mem _ List.mem_cons_self)
    have hne : ¬(i.name = "" ∨ i.table = "") := not_or.2 ⟨hname.ne_empty, htable.ne_empty⟩
    exact (ofText?_createIndex hname.noBacktick htable.noBacktick).trans (if_neg hne)
  | dropIndex n =>
    have hn := h n List.mem_cons_self
    rw [ofText?_dropIndex hn.noBacktick, if_neg hn.ne_empty]
    rfl
  | addColumn table c =>
    have htable := h table List.mem_cons_self
    rw [ofText?_addColumn htable.noBacktick, if_neg htable.ne_empty]
    rfl
  | dropColumn table n =>
    have htable := h table List.mem_cons_self
    have hn := h n (List.mem_cons_of_mem _ List.mem_cons_self)
    rw [ofText?_dropColumn htable.noBacktick hn.noBacktick, if_neg htable.ne_empty,
      if_neg hn.ne_empty]
    rfl
  | alterColumn table c =>
    have htable := h table List.mem_cons_self
    rw [ofText?_alterColumn htable.noBacktick (hclauses c List.mem_cons_self),
      if_neg htable.ne_empty]
    rfl
  | allowCommitTimestamp table n =>
    have htable := h table List.mem_cons_self
    have hn := h n (List.mem_cons_of_mem _ List.mem_cons_self)
    rw [ofText?_allowCommitTimestamp htable.noBacktick hn.noBacktick, if_neg htable.ne_empty,
      if_neg hn.ne_empty]
    rfl
  | renameTable old new =>
    have hold := h old List.mem_cons_self
    have hnew := h new (List.mem_cons_of_mem _ List.mem_cons_self)
    rw [ofText?_renameTable hold.noBacktick hnew.noBacktick, if_neg hold.ne_empty,
      if_neg hnew.ne_empty]
    rfl
  | dropTable table ifExists =>
    have htable := h table List.mem_cons_self
    rw [ofText?_dropTable htable.noBacktick, if_neg htable.ne_empty]
    rfl

end Command

/-! ## Empty names -/

/-- A table without a name is no statement of a dump. -/
private theorem readItem_createTable_empty (ine : Bool) (columns : List ColumnClause)
    (key : List KeyPart) (is : List Interleave) :
    Dump.readItem (Ddl.createTable "" ine columns key is).text.toList =
      .error .unknownStatement := by
  obtain ⟨cs, hcs⟩ : ∃ cs, (Ddl.createTable "" ine columns key is).text.toList
      = Dump.headText "" ine ++ cs := ⟨_, Dump.toList_createTable "" ine columns key is⟩
  have htable : Dump.tableHead.run (Dump.headText "" ine ++ cs) = none := by
    rw [Dump.headText_append, Dump.tableHead,
      run_bind_of_run (run_blanks_of_stops (stops_append (by decide) _)),
      run_bind_of_run (run_phrase_pair (by decide) (by decide) (by decide) _)]
    cases ine with
    | false =>
      rw [if_neg Bool.false_ne_true, List.nil_append,
        run_bind_of_run (run_gap_of_stops (by decide) (stops_quote_append _ _)),
        run_bind_of_run
          (run_attempt_of_none (Dump.run_ifNotExists_quote "" (stops_cons.2 (by decide)))),
        run_bind_of_none (run_name_quote_empty _)]
    | true =>
      rw [if_pos rfl, run_bind_of_run (run_gap_of_stops (by decide) (stops_append (by decide) _)),
        run_bind_of_run (run_attempt_of_run (Dump.run_ifNotExists _ (by decide))),
        run_bind_of_none (run_name_quote_empty _)]
  have hcreate (ds : List Char) : (do keyword "create"; gap : Scanner Unit).run
      ("CREATE".toList ++ ' ' :: ("TABLE".toList ++ ds)) = some ((), "TABLE".toList ++ ds) := by
    rw [run_bind_of_run (run_keyword_append (by decide) _),
      run_gap_of_stops (by decide) (stops_append (by decide) _)]
  -- It is not an index that cannot be read either, which would be another error.
  have hindex : Dump.indexHead.run (Dump.headText "" ine ++ cs) = none := by
    rw [Dump.headText_append, Dump.indexHead,
      run_bind_of_run (run_blanks_of_stops (stops_append (by decide) _)),
      run_bind_of_run (run_attempt_of_run (hcreate _)),
      run_bind_of_run (run_attempt_of_none (run_bind_of_none (Command.run_keyword_table
        (by decide : "unique".toList = 'u' :: "nique".toList) (by decide) _))),
      run_bind_of_run (run_attempt_of_none (run_bind_of_none (Command.run_keyword_table
        (by decide : "null_filtered".toList = 'n' :: "ull_filtered".toList) (by decide) _))),
      run_bind_of_none
        (Command.run_keyword_table (by decide : "index".toList = 'i' :: "ndex".toList)
        (by decide) _)]
  have hnot : Dump.isIndex (Dump.headText "" ine ++ cs) = false := by
    have hnone : (do let _ ← Dump.indexHead; wordEnd : Scanner Unit).value?
        (Dump.headText "" ine ++ cs) = none := by
      rw [value?, run_bind_of_none hindex]
      rfl
    unfold Dump.isIndex
    dsimp only
    rw [hnone]
    rfl
  rw [hcs, Dump.readItem, htable]
  dsimp only
  rw [hnot]
  rfl

private theorem parse_createTable_empty (ine : Bool) (columns : List ColumnClause)
    (key : List KeyPart) (is : List Interleave) :
    ∃ e, Dump.parse [(Ddl.createTable "" ine columns key is).text] = .error e := by
  have hread := readItem_createTable_empty ine columns key is
  have hne : (!(strip (Ddl.createTable "" ine columns key is).text.toList).isEmpty) = true := by
    rw [Dump.toList_createTable, Dump.headText_append]
    obtain ⟨ds, hds⟩ := exists_strip_cons (c := 'C') (by decide) ("REATE".toList ++ ' ' ::
      ("TABLE".toList ++ ' ' :: ((if ine then "IF NOT EXISTS ".toList else []) ++
        ((quote "").toList ++ ' ' :: '(' :: (Dump.bodyText columns ++ ')' :: ' ' ::
          Dump.keyClauseSql key is)))))
    exact congrArg (fun ds ↦ !ds.isEmpty) hds
  have hitems : ∃ e, Dump.readItems [(Ddl.createTable "" ine columns key is).text] = .error e := by
    rw [Dump.readItems, List.map_singleton, List.filter_cons_of_pos (by exact hne), List.filter_nil,
      List.mapM_cons, Dump.reading, hread]
    exact ⟨_, rfl⟩
  obtain ⟨e, he⟩ := hitems
  rw [Dump.parse, he]
  exact ⟨e, rfl⟩

namespace Database

private theorem createTable_eq_error (db : Database) {s : String} {e : SchemaError}
    (h : Dump.parse [s] = .error e) (name : String) :
    ∃ refusal, db.createTable s name false = .error refusal := by
  rw [createTable, h]
  split
  · exact ⟨_, rfl⟩
  · exact ⟨_, rfl⟩

/-- Of `IF NOT EXISTS` the first word is taken for a name that is empty, but the text describes no
table. -/
private theorem run_createTable_empty (db : Database) (ine : Bool) (columns : List ColumnClause)
    (key : List KeyPart) (is : List Interleave) :
    ∃ e, db.run (Ddl.createTable "" ine columns key is).text = .error e := by
  rw [run, Command.ofText?_createTable List.not_mem_nil, if_pos rfl]
  cases ine with
  | false => exact ⟨_, rfl⟩
  | true =>
    rw [if_pos rfl]
    dsimp only
    obtain ⟨e, he⟩ := parse_createTable_empty true columns key is
    exact createTable_eq_error db he "IF"

/-- Without a name the permission is taken for the definition of a column, which it is not
either. -/
private theorem run_allowCommitTimestamp_empty (db : Database) {t : String}
    (ht : '\x60' ∉ t.toList) :
    ∃ e, db.run (Ddl.allowCommitTimestamp t "").text = .error e := by
  have hnone : Dump.columnText.value? (TableAction.allowanceText "") = none := by
    rw [value?, Dump.columnText, TableAction.allowanceText,
      run_bind_of_run (run_blanks_of_stops (stops_quote_append _ _)),
      run_bind_of_none (run_name_quote_empty _)]
    rfl
  have hcolumn : Dump.columnOfText (TableAction.allowanceText "")
      = .error (.malformed .expectedColumn (String.ofList (TableAction.allowanceText ""))) := by
    rw [Dump.columnOfText, Dump.readColumn, hnone]
    rfl
  rw [run, Command.ofText?_allowCommitTimestamp ht List.not_mem_nil, if_pos rfl]
  by_cases hempty : t = ""
  · rw [if_pos hempty]
    exact ⟨_, rfl⟩
  · rw [if_neg hempty]
    dsimp only
    rw [alterTable, alterColumn, hcolumn]
    exact ⟨_, rfl⟩

/-- Nothing is done to a table that is not named, and nothing that is not understood. -/
private theorem run_eq_error_of_unnamed (db : Database) {s t : String} {action : Option TableAction}
    (h : Command.ofText? s = if t = "" then none else some (.alterTable t action))
    (hnone : t = "" ∨ action = none) : ∃ e, db.run s = .error e := by
  rw [run, h]
  by_cases ht : t = ""
  · rw [if_pos ht]
    exact ⟨_, rfl⟩
  · rw [if_neg ht, hnone.resolve_left ht]
    exact ⟨_, rfl⟩

/-- A statement in which the name of its table, column or index is empty is refused. -/
theorem exists_run_eq_error (db : Database) {d : Ddl} (h : ∀ n ∈ d.targets, '\x60' ∉ n.toList)
    (hclauses : ∀ c ∈ d.clauses, '\x60' ∉ c.name.toList) (hempty : "" ∈ d.targets) :
    ∃ e, db.run d.text = .error e := by
  cases d with
  | createTable table ine columns key is =>
    obtain rfl := List.mem_singleton.1 hempty
    exact run_createTable_empty db ine columns key is
  | createIndex i =>
    have hempty : i.name = "" ∨ i.table = "" := by
      rcases List.mem_cons.1 hempty with e | hempty
      · exact Or.inl e.symm
      · exact Or.inr (List.mem_singleton.1 hempty).symm
    have htext : (Ddl.createIndex i).text = i.sql := rfl
    rw [run, htext, Command.ofText?_createIndex (h _ List.mem_cons_self)
      (h _ (List.mem_cons_of_mem _ List.mem_cons_self)), if_pos hempty]
    exact ⟨_, rfl⟩
  | dropIndex n =>
    obtain rfl := List.mem_singleton.1 hempty
    rw [run, Command.ofText?_dropIndex (h _ hempty), if_pos rfl]
    exact ⟨_, rfl⟩
  | addColumn table c =>
    obtain rfl := List.mem_singleton.1 hempty
    exact run_eq_error_of_unnamed db (Command.ofText?_addColumn (h _ hempty) c) (Or.inl rfl)
  | dropColumn table n =>
    have hn := h _ (List.mem_cons_of_mem _ List.mem_cons_self)
    refine run_eq_error_of_unnamed db (Command.ofText?_dropColumn (h _ List.mem_cons_self) hn) ?_
    rcases List.mem_cons.1 hempty with rfl | hempty
    · exact Or.inl rfl
    · exact Or.inr (if_pos (List.mem_singleton.1 hempty).symm)
  | alterColumn table c =>
    obtain rfl := List.mem_singleton.1 hempty
    exact run_eq_error_of_unnamed db
      (Command.ofText?_alterColumn (h _ hempty) (hclauses c List.mem_cons_self)) (Or.inl rfl)
  | allowCommitTimestamp table n =>
    have htable := h _ List.mem_cons_self
    rcases List.mem_cons.1 hempty with rfl | hempty
    · exact run_eq_error_of_unnamed db (Command.ofText?_allowCommitTimestamp htable
        (h _ (List.mem_cons_of_mem _ List.mem_cons_self))) (Or.inl rfl)
    · obtain rfl := List.mem_singleton.1 hempty
      exact run_allowCommitTimestamp_empty db htable
  | renameTable old new =>
    have hnew := h _ (List.mem_cons_of_mem _ List.mem_cons_self)
    refine run_eq_error_of_unnamed db (Command.ofText?_renameTable (h _ List.mem_cons_self) hnew) ?_
    rcases List.mem_cons.1 hempty with rfl | hempty
    · exact Or.inl rfl
    · exact Or.inr (if_pos (List.mem_singleton.1 hempty).symm)
  | dropTable table ifExists =>
    obtain rfl := List.mem_singleton.1 hempty
    rw [run, Command.ofText?_dropTable (h _ hempty), if_pos rfl]
    exact ⟨_, rfl⟩

/-- A statement that is accepted names its table, column or index. -/
theorem legible_of_run {db db' : Database} {d : Ddl} (h : ∀ n ∈ d.targets, '\x60' ∉ n.toList)
    (hclauses : ∀ c ∈ d.clauses, '\x60' ∉ c.name.toList) (hok : db.run d.text = .ok db') :
    ∀ n ∈ d.targets, Legible n := by
  refine fun n hn ↦ ⟨fun e ↦ ?_, h n hn⟩
  obtain ⟨error, herror⟩ := exists_run_eq_error db h hclauses (e ▸ hn)
  cases herror.symm.trans hok

end Database

end SchemaLedger
