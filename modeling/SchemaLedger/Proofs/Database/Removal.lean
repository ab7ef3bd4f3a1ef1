import Mathlib
import SchemaLedger.Proofs.Database.Command

/-!
# Which statements take something away

Of the commands three can take from a table what it has: its existence, its name or a column. The
table is then the one for which the statement was written. A name with a backtick is written in a
way in which it is not read back, so the statement may well be taken for one about another table;
but each of the three commands ends with a name and has no other names than it needs, which leaves
no place for what remains of the name that was cut.
-/

namespace SchemaLedger

open Text Text.Scanner Identifier

/-- The tables from which a command takes a column, the name or the existence. -/
def Command.removes : Command → List String
  | dropTable name _ => [name]
  | alterTable table (some (.dropColumn _)) => [table]
  | alterTable table (some (.renameTo _)) => [table]
  | _ => []

/-- The tables that a statement is about. -/
def Ddl.subjects : Ddl → List String
  | createTable table _ _ _ _ => [table]
  | createIndex index => [index.table]
  | dropIndex _ => []
  | addColumn table _ => [table]
  | dropColumn table _ => [table]
  | alterColumn table _ => [table]
  | allowCommitTimestamp table _ => [table]
  | renameTable old new => [old, new]
  | dropTable table _ => [table]

/-- The statement creates a table or a column, or is about an index. -/
def Ddl.Adds : Ddl → Prop
  | createTable .. | createIndex _ | dropIndex _ | addColumn .. => True
  | _ => False

/-! ## Backticks of a written name -/

namespace Identifier

theorem backticks_escape (cs : List Char) : backticks (escape cs) = backticks cs := by
  induction cs with
  | nil => rfl
  | cons c cs ih =>
    rw [escape]
    split
    · rename_i hc
      rw [hc, backticks_cons_of_ne (by decide), backticks_cons_self, backticks_cons_self, ih]
    · rename_i hc
      rw [backticks_cons_of_ne hc, backticks_cons_of_ne hc, ih]

theorem backticks_quote {n : String} (hp : isPlain n = false) :
    backticks (quote n).toList = backticks n.toList + 2 := by
  rw [toList_quote_of_not_isPlain hp, backticks_cons_self, backticks_append, backticks_escape,
    backticks_cons_self]
  rfl

/-- Where there is one backtick there are more. -/
theorem backticks_quote_ne_one (n : String) : backticks (quote n).toList ≠ 1 := by
  cases hp : isPlain n with
  | false =>
    rw [backticks_quote hp]
    omega
  | true =>
    rw [quote_of_isPlain hp, backticks_eq_zero (legible_of_isPlain hp).noBacktick]
    decide

theorem not_isPlain_of_mem {n : String} (h : '\x60' ∈ n.toList) : isPlain n = false :=
  Bool.eq_false_iff.2 fun hp ↦ (legible_of_isPlain hp).noBacktick h

end Identifier

/-! ## Texts that end with a name -/

namespace Text.Scanner

variable {α : Type}

theorem suffix_of_gap {cs r : List Char} {a : Unit} (h : gap.run cs = some (a, r)) : r <:+ cs := by
  rw [(exists_of_run_gap h).1]
  exact List.dropWhile_suffix _

theorem suffix_of_phrase {ws : List String} {cs r : List Char} {a : Unit}
    (h : (phrase ws).run cs = some (a, r)) : r <:+ cs := by
  have hkeyword {w : String} {cs r : List Char} {a : Unit} (h : (keyword w).run cs = some (a, r)) :
      r <:+ cs := by
    rw [run_keyword, Option.map_eq_some_iff] at h
    obtain ⟨m, hm, e⟩ := h
    obtain ⟨-, rfl⟩ := Prod.mk.inj e
    obtain ⟨u, rfl, -⟩ := exists_of_dropFolded hm
    exact List.suffix_append u m
  induction ws generalizing cs with
  | nil =>
    obtain ⟨-, rfl⟩ := Prod.mk.inj (Option.some.inj h)
    exact List.suffix_rfl
  | cons w ws ih =>
    cases ws with
    | nil => exact hkeyword h
    | cons w' ws =>
      rw [phrase] at h
      · obtain ⟨_, m, hm, h⟩ := exists_of_run_bind h
        obtain ⟨_, m', hm', h⟩ := exists_of_run_bind h
        exact (ih h).trans ((suffix_of_gap hm').trans (hkeyword hm))
      · exact List.cons_ne_nil _ _

/-- Only blanks stand behind what is last. -/
theorem isBlank_of_run_last {b a : α} {m r : List Char}
    (h : (do blanks; finished; return b : Scanner α).run m = some (a, r)) :
    ∀ c ∈ m, isBlank c = true := by
  obtain ⟨_, m', hblanks, hrest⟩ := exists_of_run_bind h
  obtain ⟨-, rfl⟩ := Prod.mk.inj (Option.some.inj hblanks)
  refine List.dropWhile_eq_nil_iff.1 ?_
  obtain ⟨_, _, hfinished, -⟩ := exists_of_run_bind hrest
  change finished.run (m.dropWhile isBlank) = _ at hfinished
  cases hm : m.dropWhile isBlank with
  | nil => rfl
  | cons c cs =>
    rw [hm, run_finished_cons] at hfinished
    contradiction

/-- A last name between backticks ends the text, blanks apart, and no other has backticks. -/
theorem exists_of_run_lastName {f : String → α} {q r : List Char} {a : α}
    (h : (do let n ← name; blanks; finished; return f n : Scanner α).run q = some (a, r))
    (hq : '\x60' ∈ q) :
    ∃ u bs, q = '\x60' :: (u ++ '\x60' :: bs) ∧ '\x60' ∉ u ∧ ∀ c ∈ bs, isBlank c = true := by
  obtain ⟨n, m, hname, hrest⟩ := exists_of_run_bind h
  have hm := isBlank_of_run_last hrest
  rcases of_run_name hname with hquoted | ⟨-, hbare⟩
  · obtain ⟨-, hn, rfl⟩ := exists_of_run_quotedName hquoted
    exact ⟨_, m, rfl, hn, hm⟩
  · -- A bare name uses up no backtick, and none is blank.
    obtain ⟨rfl, -, hword⟩ := exists_of_run_bareName hbare
    rcases List.mem_append.1 hq with hq | hq
    · exact absurd (hword _ hq) (by decide)
    · exact absurd (hm _ hq) (by decide)

end Text.Scanner

/-! ## Changes to tables -/

namespace TableAction

/-- A change that takes something away. -/
def Removes : TableAction → Prop
  | dropColumn _ => True
  | renameTo _ => True
  | _ => False

/-- Such a change has no backticks but those of the name with which it ends. -/
theorem exists_of_ofText? {cs : List Char} {action : TableAction} (h : ofText? cs = some action)
    (hremoves : action.Removes) (hcs : '\x60' ∈ cs) (hstops : Stops isBlank cs.reverse) :
    ∃ u, cs = u ++ ['\x60'] ∧ backticks cs = 2 := by
  -- Two kinds of change remove something, and both are words, a gap and a name. The words have no
  -- backticks.
  have hname {f : String → TableAction} {ws : List String} {r : List Char}
      (hws : (ws.all fun w ↦ w.toList.all (· != '\x60')) = true)
      (hrun : (do phrase ws; gap; let n ← name; blanks; finished; return f n :
        Scanner TableAction).run cs = some (action, r)) :
      ∃ u, cs = u ++ ['\x60'] ∧ backticks cs = 2 := by
    obtain ⟨_, m, hphrase, hrest⟩ := exists_of_run_bind hrun
    obtain ⟨_, q, hgap, hlast⟩ := exists_of_run_bind hrest
    have hcount : backticks cs = backticks q :=
      ((Pairs.phrase hws).backticks_eq hphrase).trans (Pairs.gap.backticks_eq hgap)
    have hpos : 0 < backticks cs := List.count_pos_iff.2 hcs
    have hq : '\x60' ∈ q := List.count_pos_iff.1 (show 0 < backticks q from hcount ▸ hpos)
    obtain ⟨p, rfl⟩ := (suffix_of_gap hgap).trans (suffix_of_phrase hphrase)
    obtain ⟨u, bs, rfl, hu, hbs⟩ := exists_of_run_lastName hlast hq
    have hnil : bs = [] := by
      cases hbs' : bs.reverse with
      | nil => simpa using hbs'
      | cons b bs' =>
        have hb : isBlank b = true := hbs b (List.mem_reverse.1 (hbs' ▸ List.mem_cons_self))
        simp [hbs', hb] at hstops
    subst hnil
    refine ⟨p ++ '\x60' :: u, by simp, ?_⟩
    rw [hcount, backticks_cons_self, backticks_append, backticks_eq_zero hu, backticks_cons_self]
    rfl
  rcases of_ofText? h with h | h | h | h | h
  · obtain ⟨cs, rfl⟩ := yields_addColumnText.of_value? h
    contradiction
  · obtain ⟨r, hrun⟩ := exists_of_value? h
    exact hname (by decide) hrun
  · obtain ⟨n, allowed, rfl⟩ := yields_allowText.of_value? h
    contradiction
  · obtain ⟨cs, rfl⟩ := yields_alterColumnText.of_value? h
    contradiction
  · obtain ⟨r, hrun⟩ := exists_of_value? h
    exact hname (by decide) hrun

end TableAction

/-! ## Commands -/

namespace Command

/-- A statement that creates takes nothing away. -/
theorem removes_of_create {s : String} (hs : "CREATE".toList <+: s.toList) {c : Command}
    (h : ofText? s = some c) : c.removes = [] := by
  rw [ofText?_create hs, Option.or_eq_some_iff] at h
  rcases h with h | ⟨-, h⟩
  · obtain ⟨table, ine, rfl⟩ := yields_createTableText.of_value? h
    rfl
  · obtain ⟨index, table, rfl⟩ := yields_createIndexText.of_value? h
    rfl

theorem removes_of_dropIndexText {cs : List Char} {c : Command}
    (h : dropIndexText.value? cs = some c) :
    c.removes = [] := by
  obtain ⟨index, rfl⟩ := yields_dropIndexText.of_value? h
  rfl

theorem removes_of_dropIndex {n : String} {c : Command}
    (h : ofText? (Ddl.dropIndex n).text = some c) : c.removes = [] := by
  rw [ofText?_drop (drop_prefix_dropIndex n), value?_of_none (run_dropTableText_dropIndex n),
    Option.none_or] at h
  exact removes_of_dropIndexText h

/-! ### Dropped tables -/

/-- A table is dropped by one name, which ends the text. -/
theorem even_of_run_dropTableText {cs r : List Char} {c : Command}
    (h : dropTableText.run cs = some (c, r)) : ∃ k ≤ 1, backticks cs = 2 * k := by
  have hlast : Ends lastName ∧ Pairs 1 lastName := by
    refine ⟨.bind fun _ ↦ .bind fun _ ↦ .finished _, ?_⟩
    exact Pairs.name.before fun _ ↦ Pairs.blanks.after fun _ ↦ Pairs.finished.after fun _ ↦
      Pairs.pure _
  have hends : Ends dropTableText := by
    refine .bind fun _ ↦ .bind fun _ ↦ .bind fun _ ↦ .orElse ?_ (hlast.1.bind_pure _)
    exact .bind fun _ ↦ .bind fun _ ↦ hlast.1.bind_pure _
  have hpairs : Pairs 1 dropTableText := by
    refine Pairs.blanks.after fun _ ↦ (Pairs.phrase (by decide)).after fun _ ↦
      Pairs.gap.after fun _ ↦ Pairs.orElse ?_ ?_
    · exact (Pairs.phrase (by decide)).after fun _ ↦ Pairs.gap.after fun _ ↦
        hlast.2.before fun _ ↦ Pairs.pure _
    · exact hlast.2.before fun _ ↦ Pairs.pure _
  exact hends.exists_backticks hpairs h

/-- The backticks of the statement are those of the name. -/
theorem backticks_dropTable (n : String) (ifExists : Bool) :
    backticks (Ddl.dropTable n ifExists).text.toList = backticks (quote n).toList := by
  have hwords : backticks "DROP TABLE ".toList = 0 ∧
      backticks (if ifExists then "IF EXISTS " else "").toList = 0 := by
    cases ifExists <;> decide
  unfold Ddl.text
  rw [String.toList_append, String.toList_append, backticks_append, backticks_append]
  omega

theorem mem_of_dropTable {n : String} {ifExists : Bool} {c : Command}
    (h : ofText? (Ddl.dropTable n ifExists).text = some c) : ∀ m ∈ c.removes, m = n := by
  by_cases hn : '\x60' ∈ n.toList
  · -- With a backtick in the name there are more than one name has.
    have hdrop : dropTableText.run (Ddl.dropTable n ifExists).text.toList = none := by
      refine Option.eq_none_iff_forall_ne_some.2 fun x hx ↦ ?_
      obtain ⟨k, hk, hbackticks⟩ := even_of_run_dropTableText (c := x.1) (r := x.2) hx
      rw [backticks_dropTable, backticks_quote (not_isPlain_of_mem hn)] at hbackticks
      have hpos : 0 < backticks n.toList := List.count_pos_iff.2 hn
      omega
    rw [ofText?_drop (drop_prefix_dropTable n ifExists), value?_of_none hdrop, Option.none_or] at h
    rw [removes_of_dropIndexText h]
    exact fun m hm ↦ nomatch hm
  · rw [ofText?_dropTable hn] at h
    split at h
    · contradiction
    · obtain rfl := Option.some.inj h
      exact fun m hm ↦ List.mem_singleton.1 hm

/-! ### Altered tables -/

/-- A name that begins with a backtick is read up to the next one. -/
private theorem snd_of_run_name {u : List Char} (hu : '\x60' ∉ u) {r : List Char}
    {x : String × List Char} (h : name.run ('\x60' :: (u ++ '\x60' :: r)) = some x) : x.2 = r := by
  by_cases hne : u = []
  · have hquoted : quotedName.run ('\x60' :: (u ++ '\x60' :: r)) = none := by
      rw [quotedName, run_bind_of_run (run_symbol _ _), run_bind_of_run (run_upTo hu r), hne]
      rfl
    rw [name, run_map_of_none ((run_orElse_of_none hquoted).trans rfl)] at h
    contradiction
  · rw [name, run_map_of_run (run_orElse_of_run (run_quotedName hne hu r))] at h
    rw [← Option.some.inj h]

/-- A text that ends with a character other than a blank ends with it when it is stripped. -/
private theorem eq_of_strip_eq {y u : List Char} {d e : Char} (hd : isBlank d = false)
    (h : strip (y ++ [d]) = u ++ [e]) : d = e := by
  obtain ⟨bs, hbs, hblanks⟩ := stripRight_append_blanks (stripLeft (y ++ [d]))
  obtain ⟨z, hz⟩ : stripLeft (y ++ [d]) <:+ y ++ [d] := List.dropWhile_suffix _
  rw [strip] at h
  rw [hbs, h] at hz
  have hreverse := congrArg List.reverse hz
  simp only [List.reverse_append, List.reverse_cons, List.reverse_nil, List.nil_append,
    List.singleton_append] at hreverse
  cases hb : bs.reverse with
  | nil =>
    rw [hb] at hreverse
    exact (List.cons.inj hreverse).1.symm
  | cons b bs' =>
    rw [hb] at hreverse
    have hblank : isBlank b = true := hblanks b (List.mem_reverse.1 (hb ▸ List.mem_cons_self))
    rw [(List.cons.inj hreverse).1, hd] at hblank
    contradiction

/-- What is read behind a blank keeps a backtick that stands farther on. -/
private theorem exists_of_run_actionText {v a m cs : List Char}
    (h : actionText.run (v ++ '\x60' :: a) = some (cs, m)) :
    ∃ w, cs = strip (w ++ '\x60' :: a) ∧ '\x60' ∈ cs := by
  have haction (b c : Char) (ds : List Char) : actionText.run (b :: c :: ds)
      = if isBlank b then some (strip (c :: ds), []) else none := rfl
  cases v with
  | nil => cases a <;> contradiction
  | cons b v =>
    obtain ⟨d, ds, hds⟩ : ∃ d ds, v ++ '\x60' :: a = d :: ds :=
      List.exists_cons_of_ne_nil (List.append_ne_nil_of_right_ne_nil _ (List.cons_ne_nil _ _))
    rw [List.cons_append, hds, haction] at h
    split at h
    · obtain ⟨rfl, -⟩ := Prod.mk.inj (Option.some.inj h)
      refine ⟨v, by rw [hds], ?_⟩
      rw [← hds]
      exact mem_strip (List.mem_append_right _ List.mem_cons_self) (by decide)
    · contradiction

section

variable {d : Ddl} {t : String} {a : List Char} (hd : d.Alters t a) {c : Command}
  (h : ofText? d.text = some c)

include hd h

/-- A name with a backtick ends at the first one in it, and what remains of it is read as the
change. -/
private theorem exists_of_cut (ht : '\x60' ∈ t.toList) :
    ∃ n w cs, c = .alterTable n (TableAction.ofText? cs) ∧ cs = strip (w ++ '\x60' :: ' ' :: a) ∧
      '\x60' ∈ cs := by
  have hescape : '\x60' ∈ escape t.toList := by
    have hpos : 0 < backticks (escape t.toList) := by
      rw [backticks_escape]
      exact List.count_pos_iff.2 ht
    exact List.count_pos_iff.1 hpos
  obtain ⟨u, v, hsplit, hu⟩ := List.eq_append_cons_of_mem hescape
  rw [ofText?_alter (alter_prefix_alterTable hd)] at h
  obtain ⟨r, hrun⟩ := exists_of_value? h
  rw [toList_alterTable hd, alterTableText,
    run_bind_of_run (run_blanks_of_stops (stops_append (by decide) _)),
    run_bind_of_run (run_phrase_pair (by decide) (by decide) (by decide) _),
    run_bind_of_run (run_gap_of_stops (by decide) (stops_quote_append _ _)),
    toList_quote_of_not_isPlain (not_isPlain_of_mem ht), hsplit] at hrun
  obtain ⟨n, m, hname, hrun⟩ := exists_of_run_bind hrun
  obtain ⟨cs, m', haction, hrun⟩ := exists_of_run_bind hrun
  obtain ⟨rfl, -⟩ := Prod.mk.inj (Option.some.inj hrun)
  simp only [List.cons_append, List.append_assoc] at hname
  obtain rfl := snd_of_run_name hu hname
  obtain ⟨w, hw, hmem⟩ := exists_of_run_actionText haction
  exact ⟨n, w, cs, rfl, hw, hmem⟩

/-- What remains of the name leaves no change that takes something away. -/
private theorem removes_of_cut (ht : '\x60' ∈ t.toList) (hcount : backticks a ≠ 1) :
    c.removes = [] := by
  obtain ⟨n, w, cs, rfl, hw, hmem⟩ := exists_of_cut hd h ht
  have hnot {action : TableAction} (hof : TableAction.ofText? cs = some action) :
      ¬action.Removes := by
    intro hremoves
    obtain ⟨z, hz, htwo⟩ :=
      TableAction.exists_of_ofText? hof hremoves hmem (hw ▸ stops_reverse_strip _)
    rw [hw, backticks_strip, backticks_append, backticks_cons_self,
      backticks_cons_of_ne (by decide)] at htwo
    -- The last character is a backtick, and it is one of the text behind the name.
    obtain rfl | ⟨a', e, rfl⟩ := List.eq_nil_or_concat' a
    · exact absurd rfl hd.ne_nil
    · have hback := hd.back
      rw [List.reverse_append, List.reverse_singleton, List.singleton_append, stops_cons] at hback
      have hlist : w ++ '\x60' :: ' ' :: (a' ++ [e]) = (w ++ '\x60' :: ' ' :: a') ++ [e] := by
        simp
      rw [hlist] at hw
      obtain rfl := eq_of_strip_eq hback (hw.symm.trans hz)
      rw [backticks_append, backticks_cons_self] at hcount htwo
      omega
  cases hof : TableAction.ofText? cs with
  | none => rfl
  | some action =>
    have hnot := hnot hof
    cases action <;> first | rfl | exact absurd trivial hnot

/-- A change to a table is about that table, or takes nothing away. -/
theorem mem_of_alterTable (hcount : backticks a ≠ 1) : ∀ m ∈ c.removes, m = t := by
  by_cases ht : '\x60' ∈ t.toList
  · rw [removes_of_cut hd h ht hcount]
    exact fun m hm ↦ nomatch hm
  · rw [ofText?_alterTable hd ht] at h
    split at h
    · contradiction
    · obtain rfl := Option.some.inj h
      intro m hm
      cases haction : TableAction.ofText? a with
      | none =>
        rw [haction] at hm
        contradiction
      | some action =>
        rw [haction] at hm
        cases action <;> first | exact List.mem_singleton.1 hm | contradiction

end

/-- What is written behind a name, and has no backticks. -/
private theorem backticks_append_quote_ne_one {u w : List Char} (hu : '\x60' ∉ u) (hw : '\x60' ∉ w)
    (n : String) : backticks (u ++ ((quote n).toList ++ w)) ≠ 1 := by
  rw [backticks_append, backticks_append, backticks_eq_zero hu, backticks_eq_zero hw, Nat.zero_add]
  exact backticks_quote_ne_one n

/-- A column is written with its name in front and without further backticks. -/
private theorem exists_text (c : ColumnClause) :
    ∃ w, c.text.toList = (quote c.name).toList ++ w ∧ '\x60' ∉ w := by
  refine ⟨_, c.toList_text, ?_⟩
  simp only [List.mem_cons, List.mem_append, not_or]
  refine ⟨by decide, fun h ↦ ?_, ?_⟩
  · rcases ColumnType.mem_sql h with h | h
    · exact absurd h (by decide)
    · exact absurd h (by decide)
  · cases c.notNull <;> cases c.commitTimestamp <;> decide

/-- A statement that adds takes nothing away. -/
theorem removes_of_adds {d : Ddl} (hd : d.Adds) {c : Command} (h : ofText? d.text = some c) :
    c.removes = [] := by
  cases d with
  | createTable table ine columns key is =>
    exact removes_of_create (create_prefix_createTable table ine columns key is) h
  | createIndex i => exact removes_of_create (create_prefix_createIndex i) h
  | dropIndex n => exact removes_of_dropIndex h
  | addColumn t x =>
    by_cases ht : '\x60' ∈ t.toList
    · refine removes_of_cut (Ddl.alters_addColumn t x) h ht ?_
      obtain ⟨w, hw, hbacktick⟩ := exists_text x
      rw [hw]
      exact backticks_append_quote_ne_one (by decide) hbacktick _
    · rw [ofText?_addColumn ht x] at h
      split at h
      · contradiction
      · rw [← Option.some.inj h]
        rfl
  | _ => exact hd.elim

/-- What a statement takes away, it takes from a table for which it was written. -/
theorem mem_subjects_of_ofText? {d : Ddl} {c : Command} (h : ofText? d.text = some c) :
    ∀ n ∈ c.removes, n ∈ d.subjects := by
  cases d with
  | createTable | createIndex | dropIndex | addColumn =>
    rw [removes_of_adds (by exact trivial) h]
    exact fun n hn ↦ absurd hn List.not_mem_nil
  | dropTable n ifExists => exact fun m hm ↦ List.mem_singleton.2 (mem_of_dropTable h m hm)
  | dropColumn t n =>
    refine fun m hm ↦ List.mem_singleton.2 (mem_of_alterTable (Ddl.alters_dropColumn t n) h ?_ m hm)
    rw [← List.append_nil (quote n).toList]
    exact backticks_append_quote_ne_one (by decide) List.not_mem_nil _
  | renameTable t n =>
    refine fun m hm ↦
      List.mem_cons.2 (Or.inl (mem_of_alterTable (Ddl.alters_renameTable t n) h ?_ m hm))
    rw [← List.append_nil (quote n).toList]
    exact backticks_append_quote_ne_one (by decide) List.not_mem_nil _
  | alterColumn t x =>
    refine fun m hm ↦
      List.mem_singleton.2 (mem_of_alterTable (Ddl.alters_alterColumn t x) h ?_ m hm)
    obtain ⟨w, hw, hbacktick⟩ := exists_text { x with commitTimestamp := false }
    have hw : x.definition.toList = (quote x.name).toList ++ w := hw
    rw [List.append_cons, hw]
    exact backticks_append_quote_ne_one (by decide) hbacktick _
  | allowCommitTimestamp t n =>
    refine fun m hm ↦ List.mem_singleton.2
      (mem_of_alterTable (Ddl.alters_allowCommitTimestamp t n) h ?_ m hm)
    rw [List.append_cons, TableAction.allowanceText]
    exact backticks_append_quote_ne_one (by decide) (by decide) _

end Command

end SchemaLedger
