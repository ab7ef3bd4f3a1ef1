import Mathlib
import SchemaLedger.Database.Command
import SchemaLedger.Proofs.Database.Removal

/-!
# Statements that create an index

Two readers look at such a statement. One tells from its start that an index is to be created, and
takes the names of the index and its table; the other reads all of it. They read the start with
scanners of their own, and agree on the names whatever the text is.
-/

namespace SchemaLedger

open Text Text.Scanner

namespace Text.Scanner

/-- What begins with a keyword begins with its first letter. -/
theorem exists_cons_of_run_keyword {w : String} {a : Char} {cs : List Char}
    (hw : w.toList.head? = some a) {p : Unit × List Char} (h : (keyword w).run cs = some p) :
    ∃ c ds, cs = c :: ds ∧ fold c = a := by
  obtain ⟨ws, hw⟩ := List.head?_eq_some_iff.1 hw
  rw [run_keyword, hw] at h
  obtain ⟨m, hdrop, -⟩ := Option.map_eq_some_iff.1 h
  obtain ⟨u, rfl, hu⟩ := exists_of_dropFolded hdrop
  obtain ⟨c, v, rfl, hc, -⟩ := List.map_eq_cons_iff.1 hu
  exact ⟨c, v ++ m, rfl, hc⟩

/-- A part that begins with another keyword is passed over. -/
theorem run_attempt_of_keyword {α : Type} {w : String} {a c : Char} {cs : List Char}
    (hw : w.toList.head? = some a) (hc : fold c ≠ a) (f : Unit → Scanner α) :
    (attempt (keyword w >>= f)).run (c :: cs) = some (none, c :: cs) := by
  obtain ⟨ws, hw⟩ := List.head?_eq_some_iff.1 hw
  exact run_attempt_of_none (run_bind_of_none (run_keyword_cons_of_ne hw hc))

end Text.Scanner

namespace Command

/-! ## The command -/

/-- Only one form of statement creates an index. -/
theorem createIndexText_of_ofText? {statement index table : String}
    (h : ofText? statement = some (createIndex index table)) :
    createIndexText.value? statement.toList = some (createIndex index table) := by
  rcases of_ofText? h with h | h | h | h | h
  · obtain ⟨table, ine, hc⟩ := yields_createTableText.of_value? h
    contradiction
  · exact h
  · obtain ⟨table, ifExists, hc⟩ := yields_dropTableText.of_value? h
    contradiction
  · obtain ⟨index, hc⟩ := yields_dropIndexText.of_value? h
    contradiction
  · obtain ⟨table, cs, hc⟩ := yields_alterTableText.of_value? h
    contradiction

/-- What follows the words that say that an index is created. -/
def indexNames : Scanner Command := do
  gap
  let n ← name
  gap
  keyword "on"
  gap
  return .createIndex n (← name)

/-- The words that say that an index is created, one after another, and what is left behind them. -/
def Created (cs rest : List Char) (unique nullFiltered : Option Unit) : Prop :=
  ∃ m₁ m₂ m₃ m₄, (keyword "create").run (stripLeft cs) = some ((), m₁) ∧
    gap.run m₁ = some ((), m₂) ∧
    (attempt (do keyword "unique"; gap)).run m₂ = some (unique, m₃) ∧
    (attempt (do keyword "null_filtered"; gap)).run m₃ = some (nullFiltered, m₄) ∧
    (keyword "index").run m₄ = some ((), rest)

theorem exists_created {cs : List Char} {p : Command × List Char}
    (h : createIndexText.run cs = some p) :
    ∃ rest unique nullFiltered, Created cs rest unique nullFiltered ∧
      indexNames.run rest = some p := by
  obtain ⟨_, m, hblanks, h⟩ := exists_of_run_bind h
  obtain rfl : m = stripLeft cs := (Prod.mk.inj (Option.some.inj hblanks)).2.symm
  obtain ⟨_, m₁, hcreate, h⟩ := exists_of_run_bind h
  obtain ⟨_, m₂, hgap, h⟩ := exists_of_run_bind h
  obtain ⟨unique, m₃, hunique, h⟩ := exists_of_run_bind h
  obtain ⟨nullFiltered, m₄, hnull, h⟩ := exists_of_run_bind h
  obtain ⟨_, rest, hindex, h⟩ := exists_of_run_bind h
  exact ⟨rest, unique, nullFiltered, ⟨m₁, m₂, m₃, m₄, hcreate, hgap, hunique, hnull, hindex⟩, h⟩

end Command

namespace Dump

open Command

variable {cs rest : List Char} {unique nullFiltered : Option Unit}

/-! ## The statement as a whole -/

/-- The statement is not blank. -/
theorem strip_ne_nil_of_created (h : Created cs rest unique nullFiltered) : strip cs ≠ [] := by
  obtain ⟨m₁, m₂, m₃, m₄, hcreate, -⟩ := h
  obtain ⟨c, ds, hds, hc⟩ := exists_cons_of_run_keyword (a := 'c') (by decide) hcreate
  have hblank : isBlank c = false :=
    isBlank_eq_false_of_isNameChar (isNameChar_of_fold (by rw [hc]; decide))
  have hmem : c ∈ cs :=
    (List.dropWhile_sublist isBlank).subset (show c ∈ stripLeft cs from hds ▸ List.mem_cons_self)
  exact List.ne_nil_of_mem (mem_strip hmem hblank)

/-- The statement does not create a table: the word behind the first one is another. -/
theorem tableHead_of_created (h : Created cs rest unique nullFiltered) :
    tableHead.run cs = none := by
  obtain ⟨m₁, m₂, m₃, m₄, hcreate, hgap, hunique, hnull, hindex⟩ := h
  cases hhead : tableHead.run cs with
  | none => rfl
  | some p =>
    obtain ⟨_, m, hblanks, hhead⟩ := exists_of_run_bind hhead
    obtain rfl : m = stripLeft cs := (Prod.mk.inj (Option.some.inj hblanks)).2.symm
    obtain ⟨_, q, hphrase, -⟩ := exists_of_run_bind hhead
    have htable : (keyword "table").run m₂ = some ((), q) := by
      rw [phrase, run_bind_of_run hcreate, run_bind_of_run hgap, phrase] at hphrase
      · exact hphrase
      · exact List.cons_ne_nil _ _
    obtain ⟨c, ds, rfl, hc⟩ := exists_cons_of_run_keyword (a := 't') (by decide) htable
    -- A word that begins with `t` is none of those that may stand before `INDEX`, nor `INDEX`
    -- itself.
    rw [run_attempt_of_keyword (a := 'u') (by decide) (by rw [hc]; decide)] at hunique
    obtain rfl := (Prod.mk.inj (Option.some.inj hunique)).2
    rw [run_attempt_of_keyword (a := 'n') (by decide) (by rw [hc]; decide)] at hnull
    obtain rfl := (Prod.mk.inj (Option.some.inj hnull)).2
    obtain ⟨_, _, hcons, hi⟩ := exists_cons_of_run_keyword (a := 'i') (by decide) hindex
    obtain rfl := (List.cons.inj hcons).1
    exact absurd (hc.symm.trans hi) (by decide)

/-- The statement begins like an index statement. -/
theorem indexHead_of_created (h : Created cs rest unique nullFiltered) :
    indexHead.run cs = some ((unique.isSome, nullFiltered.isSome), rest) := by
  obtain ⟨m₁, m₂, m₃, m₄, hcreate, hgap, hunique, hnull, hindex⟩ := h
  have hstart : (attempt (do keyword "create"; gap)).run (stripLeft cs) = some (some (), m₂) :=
    run_attempt_of_run ((run_bind_of_run hcreate).trans hgap)
  rw [indexHead, run_bind_of_run (run_blanks cs), run_bind_of_run hstart, run_bind_of_run hunique,
    run_bind_of_run hnull, run_bind_of_run hindex]
  rfl

/-- If it is read, it is read as an index of the name and on the table that the command has. -/
theorem names_of_created (h : Created cs rest unique nullFiltered) {index table : String}
    {r : List Char} (hnames : indexNames.run rest = some (createIndex index table, r)) {i : Index}
    (hread : readIndex cs = .ok i) : i.name = index ∧ i.table = table := by
  obtain ⟨_, n₁, hgap₁, hnames⟩ := exists_of_run_bind hnames
  obtain ⟨n, n₂, hname, hnames⟩ := exists_of_run_bind hnames
  obtain ⟨_, n₃, hgap₂, hnames⟩ := exists_of_run_bind hnames
  obtain ⟨_, n₄, hon, hnames⟩ := exists_of_run_bind hnames
  obtain ⟨_, n₅, hgap₃, hnames⟩ := exists_of_run_bind hnames
  obtain ⟨t, n₆, htable, hnames⟩ := exists_of_run_bind hnames
  obtain ⟨hcommand, -⟩ := Prod.mk.inj (Option.some.inj hnames)
  obtain ⟨rfl, rfl⟩ := Command.createIndex.inj hcommand
  rw [readIndex] at hread
  split at hread
  · contradiction
  · rename_i text hvalue
    obtain ⟨parts, -, hread⟩ := bind_eq_ok hread
    obtain rfl := Except.ok.inj hread
    obtain ⟨⟨text', r'⟩, hrun, rfl⟩ := Option.map_eq_some_iff.1 hvalue
    rw [indexText_eq, run_bind_of_run (indexHead_of_created h), run_bind_of_run hgap₁,
      run_bind_of_run hname, run_bind_of_run hgap₂, run_bind_of_run hon, run_bind_of_run hgap₃,
      run_bind_of_run htable] at hrun
    have hyields : Yields (fun x : IndexText ↦ x.name = n ∧ x.table = t) (do
        let columns ← parenthesised
        indexOptions (IndexText.mk n t unique.isSome nullFiltered.isSome columns)) :=
      .after fun _ ↦ .after fun _ ↦ .after fun _ ↦ .after fun _ ↦ .after fun _ ↦ .pure ⟨rfl, rfl⟩
    exact hyields n₆ text' r' hrun

/-- A statement that creates an index is read, if it is, as the index that the command names. -/
theorem exists_index_of_readItems {statement index table : String} {items : List Item}
    (hcommand : Command.ofText? statement = some (.createIndex index table))
    (hitems : readItems [statement] = .ok items) :
    ∃ i, items = [.index i] ∧ readIndex statement.toList = .ok i ∧ i.name = index ∧
      i.table = table := by
  obtain ⟨⟨command, r⟩, hrun, hvalue⟩ :=
    Option.map_eq_some_iff.1 (createIndexText_of_ofText? hcommand)
  obtain rfl : command = .createIndex index table := hvalue
  obtain ⟨rest, unique, nullFiltered, hcreated, hnames⟩ := exists_created hrun
  have hfilter : ([statement].map String.toList).filter (fun cs ↦ !(strip cs).isEmpty) =
      [statement.toList] := by
    have hnonblank : (strip statement.toList).isEmpty = false := by
      simpa using strip_ne_nil_of_created hcreated
    rw [List.map_singleton, List.filter_singleton, hnonblank]
    rfl
  rw [readItems, hfilter] at hitems
  obtain ⟨item, items, hitem, hnil, rfl⟩ := mapM_cons_eq_ok hitems
  obtain rfl := Except.ok.inj hnil
  have hread := reading_eq_ok.1 hitem
  rw [readItem, tableHead_of_created hcreated] at hread
  dsimp only at hread
  split at hread
  · obtain ⟨i, hi, rfl⟩ := map_eq_ok hread
    obtain ⟨hname, htable⟩ := names_of_created hcreated hnames hi
    exact ⟨i, rfl, hi, hname, htable⟩
  · contradiction

end Dump

end SchemaLedger
