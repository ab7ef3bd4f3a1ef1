import Mathlib
import SchemaLedger.Proofs.Dump.Coherent
import SchemaLedger.Proofs.Dump.ColumnText

/-!
# Columns in the body of a table

A column is read alike on its own and in the body of a table, where its end has to be found first.
Three things can go wrong. A backslash may take away the backtick behind a name. The comparison
signs of a default are taken for brackets, so that a comma in an expression seems to stand outside
of them, or the one behind the column inside. And a column with the name `CONSTRAINT` may look like
a foreign key, which is passed over. Where none of this happens, a body of columns is a table with
just these columns.
-/

namespace SchemaLedger

open Text Text.Scanner Identifier

namespace Dump

/-! ## Columns are no keys -/

theorem isNameChar_eq_false_of_isWordChar {c : Char} (h : isWordChar c = false) :
    isNameChar c = false := by
  refine Bool.eq_false_iff.2 fun hname ↦ ?_
  have hcases : c.isAlphanum = true ∨ c = '_' ∨ c = '\u017F' ∨ c = '\u212A' := by
    simp only [isNameChar, isNameStart, Bool.or_eq_true, decide_eq_true_eq] at hname
    rw [Char.isAlphanum, Bool.or_eq_true]
    tauto
  rcases hcases with hc | rfl | rfl | rfl
  · rw [isWordChar, hc] at h
    contradiction
  all_goals exact absurd h (by decide +kernel)

/-- `KEY` is no type. -/
theorem ofText?_key {w : List Char} (h : w.map fold = "key".toList) :
    ColumnType.ofText? (String.ofList w) = none := by
  refine Option.eq_none_iff_forall_ne_some.2 fun t ht ↦ ?_
  have hlength := congrArg List.length (ColumnType.of_ofText? ht)
  have hlength' := congrArg List.length h
  rw [List.length_map] at hlength hlength'
  rw [hlength'] at hlength
  cases t <;> exact absurd hlength (by decide)

/-- A word at the front of a text is its name, if it has one. -/
theorem eq_of_run_name {u r m : List Char} {n : String} (hne : u ≠ [])
    (hu : ∀ c ∈ u, isNameChar c = true)
    (hr : Stops isNameChar r) (h : name.run (u ++ r) = some (n, m)) : m = r := by
  obtain ⟨d, ds, rfl⟩ := List.exists_cons_of_ne_nil hne
  by_cases hstart : isNameStart d = true
  · rw [List.cons_append, run_name_word hstart hu hr] at h
    exact (Prod.mk.inj (Option.some.inj h)).2.symm
  · have hb : d ≠ '\x60' := by
      rintro rfl
      exact absurd (hu _ List.mem_cons_self) (by decide)
    have hbare : bareName.run (d :: (ds ++ r)) = none := if_neg hstart
    rw [List.cons_append, name,
      run_map_of_none ((run_orElse_of_none (run_quotedName_eq_none hb)).trans hbare)] at h
    contradiction

/-- What begins with `PRIMARY KEY` is no column. -/
theorem isKeyClause_of_readColumn {cs : List Char} {c : Column} (h : readColumn cs = .ok c) :
    isKeyClause cs = false := by
  obtain ⟨t, rest, x, as, hvalue, hread, -, -⟩ := exists_of_readColumn h
  refine Bool.eq_false_iff.2 fun hkey ↦ ?_
  obtain ⟨⟨⟩, hhead⟩ := Option.isSome_iff_exists.1 hkey
  obtain ⟨⟨_, r⟩, hrun, -⟩ := Option.map_eq_some_iff.1 hhead
  obtain ⟨_, m, hblanks, hrun⟩ := exists_of_run_bind hrun
  obtain ⟨_, m₁, hphrase, hend⟩ := exists_of_run_bind hrun
  rw [phrase] at hphrase
  swap
  · exact List.cons_ne_nil _ _
  obtain ⟨_, k₁, hprimary, hphrase⟩ := exists_of_run_bind hphrase
  obtain ⟨_, k₂, hgap, hkeyword⟩ := exists_of_run_bind hphrase
  obtain ⟨u, hm, hu, huname⟩ := exists_of_run_keyword (by decide) hprimary
  obtain ⟨v, hk, hv, hvname⟩ := exists_of_run_keyword (by decide) hkeyword
  have hune : u ≠ [] := by
    rintro rfl
    contradiction
  have hvne : v ≠ [] := by
    rintro rfl
    contradiction
  obtain ⟨hk', d, ds, hk₁, hd⟩ := exists_of_run_gap hgap
  have hstops : Stops isNameChar k₁ := by
    rw [hk₁]
    refine stops_cons.2 (Bool.eq_false_iff.2 fun hname ↦ ?_)
    rw [isBlank_eq_false_of_isNameChar hname] at hd
    contradiction
  have hstops' : Stops isNameChar m₁ := by
    change (if m₁.head?.any isWordChar then none else some ((), m₁)) = _ at hend
    split at hend
    · contradiction
    · rename_i hword
      exact fun c hc ↦
        isNameChar_eq_false_of_isWordChar (by simpa [Option.mem_def.1 hc] using hword)
  -- the column that starts here has the second word for its type
  obtain ⟨⟨_, _⟩, hcolumn, he⟩ := Option.map_eq_some_iff.1 hvalue
  subst he
  obtain ⟨_, q, hblanks', hcolumn⟩ := exists_of_run_bind hcolumn
  obtain ⟨_, q₁, hname, hcolumn⟩ := exists_of_run_bind hcolumn
  obtain ⟨_, q₂, hgap', hcolumn⟩ := exists_of_run_bind hcolumn
  obtain ⟨t', q₃, htype, hcolumn⟩ := exists_of_run_bind hcolumn
  obtain ⟨_, q₄, hremainder, hcolumn⟩ := exists_of_run_bind hcolumn
  obtain ⟨-, rfl, -⟩ : _ = c.name ∧ t' = t ∧
      _ = rest := by simpa using (Prod.mk.inj (Option.some.inj hcolumn)).1
  have hq : q = u ++ k₁ := by
    rw [← hm]
    exact (Prod.mk.inj (Option.some.inj (hblanks'.symm.trans hblanks))).2
  rw [hq] at hname
  obtain rfl := eq_of_run_name hune huname hstops hname
  obtain rfl : q₂ = k₂ := (Prod.mk.inj (Option.some.inj (hgap'.symm.trans hgap))).2
  have harray : (keyword "array").run q₂ = none := by
    rw [hk]
    obtain ⟨e, es, rfl⟩ := List.exists_cons_of_ne_nil hvne
    refine run_keyword_cons_of_ne (by decide : "array".toList = 'a' :: "rray".toList) fun ha ↦ ?_
    rw [List.map_cons, ha] at hv
    exact absurd (List.cons.inj hv).1 (by decide)
  rw [typeText, run_orElse_of_none (run_bind_of_none harray)] at htype
  obtain ⟨⟨w, length⟩, q₅, hword, htype⟩ := exists_of_run_bind htype
  obtain ⟨rfl, -⟩ := Prod.mk.inj (Option.some.inj htype)
  obtain ⟨w', q₆, hchars, hword⟩ := exists_of_run_bind hword
  obtain ⟨_, q₇, -, hword⟩ := exists_of_run_bind hword
  obtain ⟨rfl, -⟩ : w' = w ∧ _ = length := by simpa using (Prod.mk.inj (Option.some.inj hword)).1
  rw [hk, run_chars hvne hvname hstops'] at hchars
  obtain ⟨rfl, -⟩ := Prod.mk.inj (Option.some.inj hchars)
  obtain ⟨y, hsized, -⟩ := bind_eq_ok hread
  obtain ⟨type, htype⟩ := ofText?_of_readSized hsized
  rw [ofText?_key hv] at htype
  contradiction

/-! ## Bodies of columns -/

theorem add_of_readColumn {b : TableBody} {cs : List Char} {c : Column} (h : readColumn cs = .ok c)
    (hforeign : isForeignKey (strip cs) = false) (hnew : c.name ∉ b.columns.map (·.name)) :
    b.add (strip cs) = .ok { b with columns := b.columns ++ [c] } := by
  obtain ⟨hread, -⟩ := readColumn_strip h
  have hany : b.columns.any (·.name == c.name) = false := by
    rw [List.any_eq_false]
    intro d hd e
    exact hnew (List.mem_map.2 ⟨d, hd, beq_iff_eq.1 e⟩)
  rw [TableBody.add, isKeyClause_of_readColumn hread, if_neg Bool.false_ne_true, hforeign,
    if_neg Bool.false_ne_true, columnOfText, hread]
  change (if b.columns.any (·.name == c.name) then _ else _) = _
  rw [hany]
  rfl

theorem foldlM_add_of_columnOfText {texts : List (List Char)} {columns : List Column}
    (h : texts.mapM columnOfText = .ok columns)
    (hforeign : ∀ t ∈ texts, isForeignKey (strip t) = false)
    {b : TableBody} (hnew : (b.columns.map (·.name) ++ columns.map (·.name)).Nodup) :
    (texts.map strip).foldlM TableBody.add b = .ok { b with columns := b.columns ++ columns } := by
  induction texts generalizing columns b with
  | nil =>
    obtain rfl : columns = [] := (Except.ok.inj h).symm
    rw [List.append_nil]
    rfl
  | cons t texts ih =>
    obtain ⟨c, columns, hc, hcolumns, rfl⟩ := mapM_cons_eq_ok h
    rw [List.map_cons] at hnew
    have hfresh : c.name ∉ b.columns.map (·.name) :=
      fun hmem ↦ (List.nodup_append.1 hnew).2.2 c.name hmem c.name List.mem_cons_self rfl
    have hrest : ((b.columns ++ [c]).map (·.name) ++ columns.map (·.name)).Nodup := by
      rw [List.map_append, List.append_assoc]
      exact hnew
    rw [List.map_cons, List.foldlM_cons,
      add_of_readColumn (reading_eq_ok.1 hc) (hforeign t List.mem_cons_self) hfresh]
    change (texts.map strip).foldlM TableBody.add { b with columns := b.columns ++ [c] } = _
    rw [ih hcolumns (fun u hu ↦ hforeign u (List.mem_cons_of_mem t hu)) hrest, List.append_assoc]
    rfl

/-- The end of a body is found behind texts that are passed. -/
theorem enclosed_intercalate {ps : List (List Char)} (h : ∀ p ∈ ps, Passes p) (r : List Char) :
    enclosed (", ".toList.intercalate ps ++ ')' :: r) = some (", ".toList.intercalate ps, r) := by
  have hcomma : Passes ", ".toList := fun depth r ↦ by
    have hblank : Passes [' '] := passes_of_sealed (.singleton (by decide))
    have htext : ", ".toList ++ r = ',' :: ([' '] ++ r) := rfl
    rw [htext, enclosedFrom_of_isInert (Or.inr rfl), hblank, Option.map_map]
    rfl
  have hall : Passes (", ".toList.intercalate ps) := by
    induction ps with
    | nil => exact passes_of_sealed .nil
    | cons p ps ih =>
      have ih := ih fun q hq ↦ h q (List.mem_cons_of_mem p hq)
      cases ps with
      | nil =>
        rw [List.intercalate_singleton]
        exact h p List.mem_cons_self
      | cons q ps =>
        rw [List.intercalate_cons_cons]
        exact ((h p List.mem_cons_self).append hcomma).append ih
  rw [enclosed, hall, enclosedFrom_close, Option.map_some, List.append_nil]

/-- The members are cut out at the commas behind them; what stands behind the last one does not
matter. -/
theorem map_strip_splitCommas {p : List Char} {ps : List (List Char)}
    (hlevel : ∀ q ∈ (p :: ps).dropLast, Level q)
    (hlast : ∀ q ∈ (p :: ps).getLast?, splitCommas q = [q]) :
    (splitCommas (", ".toList.intercalate (p :: ps))).map strip = (p :: ps).map strip := by
  induction ps generalizing p with
  | nil => rw [List.intercalate_singleton, hlast p rfl]
  | cons q ps ih =>
    have hblank : Level [' '] := level_of_sealed (.singleton (by decide))
    have hp : Level p := hlevel p List.mem_cons_self
    have hjoin : ", ".toList.intercalate (p :: q :: ps) =
        p ++ ',' :: ", ".toList.intercalate ((' ' :: q) :: ps) := by
      rw [List.intercalate_cons_cons, List.append_assoc]
      cases ps <;> rfl
    have hcut (cs : List Char) : splitCommas (p ++ ',' :: cs) = p :: splitCommas cs := by
      rw [splitCommas, hp, splitCommasFrom_comma, consFirst_foldr_cons, List.append_nil,
        splitCommas]
    have hstrip : strip (' ' :: q) = strip q := rfl
    rw [hjoin, hcut, List.map_cons, ih, List.map_cons, hstrip, List.map_cons, List.map_cons]
    · cases ps with
      | nil => exact fun x hx ↦ absurd hx List.not_mem_nil
      | cons x ps =>
        intro y hy
        rcases List.mem_cons.1 hy with rfl | hy
        · exact hblank.append (hlevel q (List.mem_cons_of_mem _ List.mem_cons_self))
        · exact hlevel y (List.mem_cons_of_mem _ (List.mem_cons_of_mem _ hy))
    · cases ps with
      | nil =>
        intro y hy
        obtain rfl : ' ' :: q = y := Option.some.inj hy
        have hspace : splitCommas (' ' :: q) = consFirst ' ' (splitCommas q) := rfl
        rw [hspace, hlast q rfl, consFirst]
      | cons x ps => exact fun y hy ↦ hlast y hy

/-- A body of columns is cut into them. -/
theorem members_intercalate {ps : List (List Char)} (hne : ∀ p ∈ ps, strip p ≠ [])
    (hlevel : ∀ p ∈ ps.dropLast, Level p) (hlast : ∀ p ∈ ps.getLast?, splitCommas p = [p]) :
    ((splitCommas (", ".toList.intercalate ps)).map strip).filter (!·.isEmpty) = ps.map strip := by
  cases ps with
  | nil => rfl
  | cons p ps =>
    rw [map_strip_splitCommas hlevel hlast]
    refine List.filter_eq_self.2 fun q hq ↦ ?_
    obtain ⟨x, hx, rfl⟩ := List.mem_map.1 hq
    simpa using hne x hx

/-- The statement of a table `t` with columns and nothing else. -/
def columnsStatement (texts : List String) : String :=
  "CREATE TABLE t (" ++ ", ".intercalate texts ++ ")"

theorem toList_columnsStatement (texts : List String) : (columnsStatement texts).toList
    = headText "t" false ++ (", ".toList.intercalate (texts.map String.toList) ++ [')']) := by
  have hhead : headText "t" false = "CREATE TABLE t (".toList := by decide +kernel
  have hclose : ")".toList = [')'] := by decide
  change ("CREATE TABLE t (" ++ ", ".intercalate texts ++ ")").toList = _
  rw [String.toList_append, String.toList_append, String.toList_intercalate, hhead, hclose,
    List.append_assoc]

/-- A table that is built of columns without a key is those columns. -/
theorem build_columns {name : String} {elements : List (List Char)} {columns : List Column}
    (h : elements.foldlM TableBody.add {} = .ok { columns }) (hplain : ∀ c ∈ columns, Plain c) :
    (TableText.mk name elements []).build = .ok { name, columns } := by
  have hkey : TableText.key ⟨name, elements, []⟩ { columns } = .ok {} := rfl
  have hbuild := build_eq h hkey fun n hn ↦ absurd hn List.not_mem_nil
  have hsync : columns.map (fun c ↦ { c with isPrimary := false }) = columns := by
    refine (List.map_congr_left fun c hc ↦ ?_).trans (List.map_id _)
    rw [← (hplain c hc).isPrimary]
    rfl
  rw [hbuild]
  exact congrArg (fun cs : List Column ↦ Except.ok ({ name, columns := cs } : Table)) hsync

/-- Columns that are read on their own are read as the columns of a table, in order, if no name has
its backtick taken away, no column looks like a foreign key, and the comparison signs of a default
hide no comma: the scan for commas is outside of brackets behind every column but the last, and does
not cut that one. -/
theorem parse_columnsStatement {texts : List String} {columns : List Column}
    (hread : (texts.map String.toList).mapM columnOfText = .ok columns)
    (hdistinct : (columns.map (·.name)).Nodup) (hbalanced : ∀ c ∈ columns, Balanced c.name)
    (hforeign : ∀ t ∈ texts, isForeignKey (strip t.toList) = false)
    (hlevel : ∀ t ∈ texts.dropLast, Level t.toList)
    (hlast : ∀ t ∈ texts.getLast?, splitCommas t.toList = [t.toList]) :
    parse [columnsStatement texts] = .ok ((∅ : Schema).insert "t" { name := "t", columns }) := by
  have hcolumn : ∀ t ∈ texts.map String.toList, ∃ c, readColumn t = .ok c ∧ c ∈ columns :=
    fun t ht ↦ by
    obtain ⟨c, hc, hcolumn⟩ := exists_of_mapM hread ht
    exact ⟨c, reading_eq_ok.1 hcolumn, hc⟩
  have hplain : ∀ c ∈ columns, Plain c := fun c hc ↦ by
    obtain ⟨t, -, ht⟩ := exists_of_mem_mapM hread hc
    exact plain_of_columnOfText ht
  have hpasses : ∀ t ∈ texts.map String.toList, Passes t := fun t ht ↦ by
    obtain ⟨c, hc, hmem⟩ := hcolumn t ht
    exact passes_of_readColumn hc (hbalanced c hmem)
  have hmembers :
      ((splitCommas (", ".toList.intercalate (texts.map String.toList))).map strip).filter
        (!·.isEmpty) = (texts.map String.toList).map strip := by
    refine members_intercalate (fun t ht ↦ ?_) (fun t ht ↦ ?_) fun t ht ↦ ?_
    · obtain ⟨c, hc, -⟩ := hcolumn t ht
      exact (readColumn_strip hc).2
    · rw [← List.map_dropLast] at ht
      obtain ⟨u, hu, rfl⟩ := List.mem_map.1 ht
      exact hlevel u hu
    · rw [List.getLast?_map] at ht
      obtain ⟨u, hu, rfl⟩ := Option.map_eq_some_iff.1 ht
      exact hlast u hu
  have hfold :=
    foldlM_add_of_columnOfText hread (List.forall_mem_map.2 hforeign) (b := {}) hdistinct
  have hitem : readItem (columnsStatement texts).toList
      = .ok (.table ⟨"t", (texts.map String.toList).map strip, []⟩) := by
    have hlegible : Legible "t" := ⟨by decide, by decide⟩
    rw [toList_columnsStatement, readItem, run_tableHead hlegible]
    dsimp only
    rw [readTableText, enclosed_intercalate hpasses]
    dsimp only
    rw [hmembers]
    rfl
  have hitems : readItems [columnsStatement texts]
      = .ok [.table ⟨"t", (texts.map String.toList).map strip, []⟩] := by
    refine readItems_cons ?_ ?_ hitem rfl
    · rw [toList_columnsStatement]
      exact stops_append (u := headText "t" false) rfl _
    · rw [toList_columnsStatement]
      exact List.append_ne_nil_of_left_ne_nil (List.cons_ne_nil _ _) _
  have hadd : addTable ∅ ⟨"t", (texts.map String.toList).map strip, []⟩
      = .ok ((∅ : Schema).insert "t" { name := "t", columns }) := by
    have hcontains : (∅ : Schema).contains "t" = false := Std.ExtTreeMap.contains_empty
    rw [addTable, build_columns hfold hplain]
    dsimp only [bind, Except.bind]
    rw [hcontains]
    rfl
  rw [parse, hitems]
  dsimp only [bind, Except.bind]
  have htables : tables [.table ⟨"t", (texts.map String.toList).map strip, []⟩]
      = [⟨"t", (texts.map String.toList).map strip, []⟩] := rfl
  rw [htables, List.foldlM_cons, hadd]
  rfl

/-- Columns with all that may stand in a literal, and a comparison in the last one. -/
def offers : List String :=
  ["`a,b` STRING(10) NOT NULL DEFAULT (CONCAT('<,(', \"y\\\"\"))", " c ARRAY<INT64> ",
   "d BOOL DEFAULT (1 < 2)"]

/-- The columns that the texts are read as. -/
def offerColumns : List Column :=
  [{ name := "a,b", type := .string, nullable := false, length := some (.size 10),
     defaultValue := some (.expression "CONCAT('<,(', \"y\\\"\")") },
   { name := "c", type := .int64, isArray := true },
   { name := "d", type := .bool, defaultValue := some (.expression "1 < 2") }]

theorem offers_parse :
    (offers.map String.toList).mapM columnOfText = .ok offerColumns ∧
      parse [columnsStatement offers] =
        .ok ((∅ : Schema).insert "t" { name := "t", columns := offerColumns }) := by
  have hread : (offers.map String.toList).mapM columnOfText = .ok offerColumns := by decide +kernel
  have hbalanced : ∀ c ∈ offerColumns, Balanced c.name := by
    have hplain : ∀ c ∈ offerColumns, '\x60' ∉ c.name.toList ∧
        '\\' ∉ c.name.toList := by decide +kernel
    exact fun c hc ↦ (Tame.mk (hplain c hc).1 (hplain c hc).2).balanced
  have hlevel : ∀ t ∈ offers.dropLast, Level t.toList := by
    intro t ht
    have hquoted : ∀ t ∈ offers.dropLast, ∀ e ∈ expressions t.toList, Quoted '<' e ∧
        Quoted '>' e := by
      decide +kernel
    obtain ⟨c, hc, hcolumn⟩ :=
      exists_of_mapM hread (List.mem_map_of_mem ((List.dropLast_sublist _).subset ht))
    exact level_of_readColumn (reading_eq_ok.1 hcolumn) (hbalanced c hc) (hquoted t ht)
  exact ⟨hread,
    parse_columnsStatement hread (by decide +kernel) hbalanced (by decide +kernel) hlevel
    (by decide +kernel)⟩

/-- A comparison takes the comma behind its column away, though the column is read on its own. -/
theorem parse_comparison :
    let texts := ["a BOOL DEFAULT (1 < 2)", "b INT64"]
    let columns : List Column :=
      [{ name := "a", type := .bool, defaultValue := some (.expression "1 < 2") },
      { name := "b", type := .int64 }]
    (texts.map String.toList).mapM columnOfText = .ok columns ∧ (columns.map (·.name)).Nodup ∧
      ¬∃ s, parse [columnsStatement texts] = .ok s := by
  refine ⟨by decide +kernel, by decide, ?_⟩
  have herror : (fun _ ↦ ()) <$> parse [columnsStatement ["a BOOL DEFAULT (1 < 2)", "b INT64"]]
      = .error (.malformed .unexpectedAttribute "a BOOL DEFAULT (1 < 2), b INT64") := by
    decide +kernel
  rintro ⟨s, hs⟩
  rw [hs] at herror
  contradiction

end Dump

end SchemaLedger
