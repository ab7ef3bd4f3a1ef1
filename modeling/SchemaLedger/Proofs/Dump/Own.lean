import Mathlib
import SchemaLedger.Proofs.Dump.Refusal
import SchemaLedger.Proofs.Text.RunOn

/-!
# Tables with names that run on

A database may hold columns whose names end in a backslash, and writing its tables down gives texts
that are not read as they were meant. They are not read as anything else, either: the name takes the
backtick behind it away, and the body of the table ends, if at all, inside another name. Then the
text that should be the key clause has an odd number of backticks, and is none.

So a written table whose names have no backtick is read as the table that it was written for, or the
statement is refused.
-/

namespace SchemaLedger

open Text Text.Scanner Identifier

/-! ## Texts without names -/

namespace ColumnType

theorem runsOn_sql (t : ColumnType) (length : Option ColumnLength) (array : Bool) :
    RunsOn (t.sql length array).toList := by
  refine RunsOn.of_forall fun c hc ↦ ?_
  rcases mem_sql hc with h | h
  · have hne (d : Char) (hd : d.isAlphanum = false) : c ≠ d := by
      rintro rfl
      rw [h] at hd
      contradiction
    simp only [isQuote, Bool.or_eq_false_iff, decide_eq_false_iff_not]
    exact ⟨⟨⟨hne _ (by decide), hne _ (by decide)⟩, hne _ (by decide)⟩, hne _ (by decide)⟩
  · have hall : "()<>".toList.all (fun c ↦ !isQuote c && c != '\\') = true := by decide
    simpa using List.all_eq_true.1 hall c h

end ColumnType

namespace Dump

theorem runsOn_attributeText (notNull commitTimestamp : Bool) :
    RunsOn (attributeText notNull commitTimestamp) := by
  cases notNull <;> cases commitTimestamp <;> exact RunsOn.of_all (by decide)

/-! ## Columns -/

/-- What a column says behind its name. -/
private theorem runsOn_type (c : ColumnClause) :
    RunsOn (' ' :: ((c.type.sql c.length c.array).toList ++
      attributeText c.notNull c.commitTimestamp)) :=
  RunsOn.append (a := [' ']) (RunsOn.of_all (by decide))
    ((ColumnType.runsOn_sql _ _ _).append (runsOn_attributeText _ _))

theorem runsOn_text {c : ColumnClause} (h : '\x60' ∉ c.name.toList) : RunsOn c.text.toList := by
  rw [ColumnClause.toList_text]
  exact (runsOn_quote h).append (runsOn_type c)

/-- A comma does not keep a scan for a closing parenthesis from a trap. -/
private theorem traps_comma {b : List Char} (h : Traps .outside b) : Traps .outside (',' :: b) := by
  intro depth r body rest hrun
  rw [List.cons_append, enclosedFrom_of_isInert (Or.inr rfl)] at hrun
  obtain ⟨⟨body', rest'⟩, hrun, he⟩ := Option.map_eq_some_iff.1 hrun
  exact (Prod.mk.inj he).2 ▸ h depth r body' rest' hrun

/-- Columns of which one is not balanced are a trap, whatever comes before it. -/
private theorem traps_columns {columns : List ColumnClause}
    (h : ∀ c ∈ columns, '\x60' ∉ c.name.toList) (hsome : ∃ c ∈ columns, ¬Balanced c.name)
    {w : List Char} (hw : RunsOn w) :
    Traps .outside (",\n  ".toList.intercalate (columns.map (·.text.toList)) ++ w) := by
  have hsep : RunsOn ",\n  ".toList := RunsOn.of_all (by decide)
  have hcomma : ",\n  ".toList = ',' :: "\n  ".toList := by decide
  induction columns with
  | nil =>
    obtain ⟨c, hc, -⟩ := hsome
    contradiction
  | cons c columns ih =>
    have hcolumns := fun d hd ↦ h d (List.mem_cons_of_mem c hd)
    have hrest : RunsOn (",\n  ".toList.intercalate (columns.map (·.text.toList))) := by
      refine RunsOn.intercalate hsep fun x hx ↦ ?_
      obtain ⟨d, hd, rfl⟩ := List.mem_map.1 hx
      exact runsOn_text (hcolumns d hd)
    by_cases hc : Balanced c.name
    · -- The scan passes a balanced column as a whole, and the trap is one of the others.
      have htail : ∃ d ∈ columns, ¬Balanced d.name := by
        obtain ⟨d, hd, hbalanced⟩ := hsome
        rcases List.mem_cons.1 hd with rfl | hd
        · contradiction
        · exact ⟨d, hd, hbalanced⟩
      have ih := ih hcolumns htail
      obtain ⟨d, ds, rfl⟩ := List.exists_cons_of_ne_nil (List.ne_nil_of_mem htail.choose_spec.1)
      rw [List.map_cons, List.map_cons, List.intercalate_cons_cons, List.append_assoc,
        List.append_assoc, hcomma]
      refine (ColumnClause.sealed_text hc.sealed_quote).traps_append (traps_comma ?_)
      exact Sealed.traps_append (Sealed.of_all (by decide)) ih
    · have htrap : Traps .outside c.text.toList := by
        rw [ColumnClause.toList_text]
        exact (traps_quote (h c List.mem_cons_self) hc).append (runsOn_type c)
      cases columns with
      | nil =>
        rw [List.map_cons, List.map_nil, List.intercalate_singleton]
        exact htrap.append hw
      | cons d ds =>
        rw [List.map_cons, List.map_cons, List.intercalate_cons_cons]
        exact ((htrap.append hsep).append hrest).append hw

/-! ## Key clauses -/

theorem runsOn_keyClauseSql {key : List KeyPart} (hkey : ∀ p ∈ key, '\x60' ∉ p.name.toList)
    {is : List Interleave} (his : ∀ i ∈ is, '\x60' ∉ i.parent.toList) :
    RunsOn (keyClauseSql key is) := by
  have hparts : RunsOn (keySql key).toList := by
    rw [toList_keySql]
    refine RunsOn.intercalate (RunsOn.of_all (by decide)) fun x hx ↦ ?_
    obtain ⟨p, hp, rfl⟩ := List.mem_map.1 hx
    rw [KeyPart.toList_sql]
    refine (runsOn_quote (hkey p hp)).append ?_
    cases p.order
    · exact RunsOn.nil
    · exact RunsOn.of_all (by decide)
  have hparents : RunsOn (is.flatMap (·.sql.toList)) := by
    refine RunsOn.flatMap fun i hi ↦ ?_
    have hhead : RunsOn (',' :: ("\n  ".toList ++ ("INTERLEAVE IN PARENT".toList ++ [' ']))) :=
      RunsOn.of_all (by decide)
    have hcascade : RunsOn (if i.onDeleteCascade then " ON DELETE CASCADE" else "").toList := by
      cases i.onDeleteCascade
      · exact RunsOn.nil
      · exact RunsOn.of_all (by decide)
    have happend := hhead.append ((runsOn_quote (his i hi)).append hcascade)
    rw [Interleave.toList_sql]
    simpa using happend
  have happend := (RunsOn.of_all (by decide : "PRIMARY KEY (".toList.all _ = true)).append
    (hparts.append (RunsOn.append (a := [')']) (RunsOn.of_all (by decide)) hparents))
  unfold keyClauseSql
  exact happend

/-- A key clause has its names to the end. -/
theorem even_of_readKeyClause {cs : List Char} {k : KeyClause} (h : readKeyClause cs = .ok k) :
    backticks cs % 2 = 0 := by
  rw [readKeyClause] at h
  split at h
  · contradiction
  · rename_i columns interleave hvalue
    obtain ⟨r, hrun⟩ := exists_of_value? hvalue
    obtain ⟨_, m₁, hblanks, hrun⟩ := exists_of_run_bind hrun
    obtain ⟨_, m₂, hphrase, hrun⟩ := exists_of_run_bind hrun
    obtain ⟨x, m₃, hlist, hrun⟩ := exists_of_run_bind hrun
    have hx : x = columns := by
      obtain ⟨_, _, -, hrun⟩ := exists_of_run_bind hrun
      obtain ⟨_, _, -, hrun⟩ := exists_of_run_bind hrun
      obtain ⟨_, _, -, hrun⟩ := exists_of_run_bind hrun
      exact (Prod.mk.inj (Prod.mk.inj (Option.some.inj hrun)).1).1
    -- What is read of the list has its names to the end, and what follows the list ends the text.
    have hcolumns : backticks x % 2 = 0 := by
      rw [hx, ← backticks_strip]
      dsimp only at h
      split at h
      · rename_i hempty
        rw [List.isEmpty_iff.1 hempty]
        rfl
      · obtain ⟨parts, hparts, -⟩ := bind_eq_ok h
        exact even_of_readKeyParts hparts
    have hparent : Pairs 1 parentClause := by
      refine Pairs.blanks.after fun _ ↦ (Pairs.symbol (by decide)).after fun _ ↦
        Pairs.blanks.after fun _ ↦ (Pairs.phrase (by decide)).after fun _ ↦
        Pairs.gap.after fun _ ↦ Pairs.name.before fun _ ↦ Pairs.after ?_ fun _ ↦ Pairs.pure _
      refine (Pairs.gap.after fun _ ↦ (Pairs.phrase (by decide)).after fun _ ↦
        Pairs.gap.after fun _ ↦ Pairs.orElse ?_ ?_).attempt
      · refine (Pairs.chars (by decide)).after fun _ ↦ ?_
        split
        · exact Pairs.pure _
        · exact Pairs.failure
      · exact (Pairs.phrase (by decide)).after fun _ ↦ Pairs.pure _
    have hrest : backticks m₃ % 2 = 0 := by
      have hends : Ends (do
          let parent ← attempt parentClause
          blanks
          finished
          return (x, parent) : Scanner (List Char × Option Interleave)) :=
        .bind fun _ ↦ .bind fun _ ↦ .finished _
      obtain ⟨n, -, hn⟩ := hends.exists_backticks (n := 1) (hparent.attempt.before fun _ ↦
        Pairs.blanks.after fun _ ↦ Pairs.finished.after fun _ ↦ Pairs.pure _) hrun
      omega
    have hopen : backticks cs = backticks m₂ :=
      (Pairs.blanks.backticks_eq hblanks).trans ((Pairs.phrase (by decide)).backticks_eq hphrase)
    obtain ⟨_, m₄, hblanks, hlist⟩ := exists_of_run_bind hlist
    obtain ⟨_, m₅, hsymbol, hlist⟩ := exists_of_run_bind hlist
    obtain ⟨-, rfl⟩ := exists_of_run_upTo hlist
    have hbefore := (Pairs.blanks.backticks_eq hblanks).trans
      ((Pairs.symbol (by decide)).backticks_eq hsymbol)
    rw [backticks_append, backticks_cons_of_ne (by decide)] at hbefore
    omega

/-! ## Tables -/

section

variable {table : String} {ine : Bool} {columns : List ColumnClause} {key : List KeyPart}
  {is : List Interleave} (htable : Legible table) (hcolumns : ∀ c ∈ columns, '\x60' ∉ c.name.toList)
  (hkey : ∀ p ∈ key, p.name ∈ columns.map (·.name)) (his : ∀ i ∈ is, '\x60' ∉ i.parent.toList)
  {item : Item} (hread : readItem (Ddl.createTable table ine columns key is).text.toList = .ok item)

include htable hcolumns hkey his hread

private theorem exists_of_readItem :
    ∃ text, item = .table text ∧
      ((∀ c ∈ columns, Balanced c.name) ∨ backticks text.trailer % 2 = 1) := by
  have hkey : ∀ p ∈ key, '\x60' ∉ p.name.toList := by
    intro p hp
    obtain ⟨c, hc, hname⟩ := List.mem_map.1 (hkey p hp)
    exact hname ▸ hcolumns c hc
  rw [toList_createTable, readItem, run_tableHead htable] at hread
  dsimp only at hread
  rw [readTableText] at hread
  cases henclosed : enclosed (bodyText columns ++ ')' :: ' ' :: keyClauseSql key is) with
  | none =>
    rw [henclosed] at hread
    contradiction
  | some p =>
    obtain ⟨body, rest⟩ := p
    rw [henclosed] at hread
    obtain rfl := Except.ok.inj hread
    refine ⟨_, rfl, ?_⟩
    by_contra hnot
    obtain ⟨hsome, heven⟩ := not_or.1 hnot
    have hsome : ∃ c ∈ columns, ¬Balanced c.name := by simpa using hsome
    refine heven ?_
    have hrest : RunsOn (['\n'] ++ ([')', ' '] ++ keyClauseSql key is)) :=
      (RunsOn.of_all (by decide)).append ((RunsOn.of_all (by decide)).append
        (runsOn_keyClauseSql hkey his))
    have htraps : Traps .outside (bodyText columns ++ ')' :: ' ' :: keyClauseSql key is) := by
      rw [bodyText, List.append_assoc, List.append_assoc]
      exact Sealed.traps_append (Sealed.of_all (by decide)) (traps_columns hcolumns hsome hrest)
    rw [backticks_strip]
    refine Lost.odd (htraps 0 [] body rest ?_)
    rwa [List.append_nil]

/-- A table whose body and key clause are read is the one for which the statement was written. -/
theorem declarable_of_key {text : TableText} (hitem : item = .table text) {body : TableBody}
    (hbody : text.elements.foldlM TableBody.add {} = .ok body) {k : KeyClause}
    (hk : text.key body = .ok k) :
    ∃ parent : Option Interleave, is = parent.toList ∧ Table.Declarable table columns key parent ∧
      text.build = .ok (Table.declared table columns key parent) := by
  obtain ⟨_, hitem', htext⟩ := exists_of_readItem htable hcolumns hkey his hread
  obtain rfl := Item.table.inj (hitem'.symm.trans hitem)
  have hbalanced : ∀ c ∈ columns, Balanced c.name := by
    refine htext.resolve_right fun hodd ↦ ?_
    -- An odd number of backticks is no key clause.
    rw [TableText.key] at hk
    split at hk
    · rename_i hempty
      rw [List.isEmpty_iff.1 hempty] at hodd
      contradiction
    · obtain ⟨k', hclause, -⟩ := bind_eq_ok hk
      have heven := even_of_readKeyClause (reading_eq_ok.1 hclause)
      omega
  have hkey' : ∀ p ∈ key, Balanced p.name := by
    intro p hp
    obtain ⟨c, hc, hname⟩ := List.mem_map.1 (hkey p hp)
    exact hname ▸ hbalanced c hc
  obtain rfl := Item.table.inj (Except.ok.inj ((hitem ▸ hread).symm.trans
    (readItem_createTable htable ine (fun c hc ↦ (hbalanced c hc).sealed_quote) key is)))
  obtain ⟨hreadable, hdistinct⟩ := of_foldlM_add hcolumns hbody
  have hdistinct : (columns.map (·.name)).Nodup := hdistinct List.nodup_nil
  rw [TableText.key, if_neg (by simpa using keyClauseSql_ne_nil key is)] at hk
  obtain ⟨k', hclause, -⟩ := bind_eq_ok hk
  obtain ⟨parent, rfl, hlistable, hparent⟩ :=
    of_readKeyClause hkey' his (reading_eq_ok.1 hclause)
  have hdeclarable : Table.Declarable table columns key parent :=
    ⟨htable, fun c hc ↦ (hbalanced c hc).closed (hreadable c hc).name.ne_empty,
      fun c hc ↦ (hreadable c hc).length, hdistinct, hlistable, hkey, hparent⟩
  exact ⟨parent, rfl, hdeclarable, build_declared hdeclarable⟩

/-- A table that is read and built is the one for which the statement was written. -/
theorem declarable_of_build {text : TableText} (hitem : item = .table text) {t : Table}
    (hbuild : text.build = .ok t) :
    ∃ parent : Option Interleave, is = parent.toList ∧ Table.Declarable table columns key parent ∧
      t = Table.declared table columns key parent := by
  obtain ⟨body, k, hbody, hk, -⟩ := exists_of_build hbuild
  obtain ⟨parent, his, hdeclarable, hbuild'⟩ :=
    declarable_of_key htable hcolumns hkey his hread hitem hbody hk
  exact ⟨parent, his, hdeclarable, Except.ok.inj (hbuild.symm.trans hbuild')⟩

end

end Dump

end SchemaLedger
