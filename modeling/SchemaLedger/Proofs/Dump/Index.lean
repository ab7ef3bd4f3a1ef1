import Mathlib
import SchemaLedger.Proofs.Dump.Storable
import SchemaLedger.Proofs.Lowering.Names

/-!
# Which index statements can be read back

The words of an index statement are read wherever they stand, whatever the names in it are. It is
the names themselves that may be lost, and in three ways: a name ends at its first backtick, even an
escaped one; a list between parentheses ends at its first closing parenthesis, even inside
backticks; and a backslash at the end of a name takes the backtick behind it away when the list is
cut at its commas. `Index.Unambiguous` is the condition that none of this happens, and it is exact.

That it is necessary is seen by counting commas: those between the members of a list are all that
may get lost when it is cut, so a list that is read back as it was has been cut between its members.
-/

namespace SchemaLedger

open Text Text.Scanner Identifier

/-! ## Characters of written names -/

namespace Identifier

variable {d : Char}

theorem count_unescape (hd : d ≠ '\\') (cs : List Char) : (unescape cs).count d = cs.count d := by
  fun_induction unescape cs with
  | case1 cs ih => rw [List.count_cons_of_ne hd.symm, List.count_cons, List.count_cons, ih]
  | case2 c cs _ ih => rw [List.count_cons, List.count_cons, ih]
  | case3 => rfl

theorem count_unquote (hd : d ≠ '\\') (hd' : d ≠ '\x60') (hblank : isBlank d = false)
    (text : String) :
    (unquote text).toList.count d = text.toList.count d := by
  rw [unquote]
  split
  · rename_i inner hinner
    rw [String.toList_ofList, count_unescape hd, ← count_strip hblank text.toList]
    cases hcs : strip text.toList with
    | nil =>
      rw [hcs] at hinner
      contradiction
    | cons c cs =>
      rw [hcs, unwrap?] at hinner
      split at hinner
      · rename_i hends
        obtain rfl := Option.some.inj hinner
        -- Of the characters that are taken away, none is the one that is counted.
        have hlast := congrArg (List.count d) (List.dropLast_append_getLast? '\x60' hends.2)
        rw [List.count_append, List.count_eq_zero.2 (by simpa using hd' : d ∉ ['\x60']),
          Nat.add_zero] at hlast
        rw [hlast, hends.1, List.count_cons_of_ne hd'.symm]
      · contradiction
  · rw [trim, String.toList_ofList, count_strip hblank]

end Identifier

/-! ## Key columns -/

namespace Identifier

/-- A name that takes its backtick away. -/
theorem gaping_quote {n : String} (h : '\x60' ∉ n.toList) (hn : ¬Balanced n) :
    Gaping '\x60' (quote n).toList := by
  cases hp : isPlain n with
  | false =>
    rw [toList_quote_of_not_isPlain hp, escape_eq_self h]
    exact Gaping.literal (by decide) h fun hafter ↦ hn ⟨h, hafter⟩
  | true =>
    have hplain : Balanced n :=
      ((legible_of_isPlain hp).closed (ne_of_isPlain hp (by decide) (by decide))).balanced
    exact absurd hplain hn

end Identifier

namespace KeyPart

theorem gaping_sql {p : KeyPart} (h : '\x60' ∉ p.name.toList) (hp : ¬Balanced p.name) :
    Gaping '\x60' p.sql.toList := by
  rw [toList_sql]
  refine (gaping_quote h hp).append ?_ ?_ <;> cases p.order <;> decide

theorem count_sql (p : KeyPart) : p.sql.toList.count ',' = p.name.toList.count ',' := by
  rw [toList_sql, List.count_append, count_quote (by decide) (by decide)]
  cases p.order <;> rfl

end KeyPart

/-- Key parts are told apart if no backslash but one in the last of them takes a backtick away. -/
theorem apart_sql_iff {parts : List KeyPart} (h : ∀ p ∈ parts, Legible p.name) :
    Apart (parts.map (·.sql.toList)) ↔ ∀ p ∈ parts.dropLast, Balanced p.name := by
  induction parts with
  | nil => exact ⟨fun _ p hp ↦ absurd hp List.not_mem_nil, fun _ ↦ trivial⟩
  | cons p parts ih =>
    obtain ⟨hp, hparts⟩ := List.forall_mem_cons.1 h
    by_cases hbalanced : Balanced p.name
    · have hsealed := KeyPart.sealed_sql hbalanced
      cases parts with
      | nil => exact iff_of_true (apart_of_sealed (List.forall_mem_singleton.2 hsealed)) (by simp)
      | cons q parts =>
        have htail := ih hparts
        rw [List.map_cons] at htail
        rw [List.map_cons, List.map_cons, apart_cons_iff hsealed, htail, List.dropLast_cons_cons,
          List.forall_mem_cons]
        exact (and_iff_right hbalanced).symm
    · -- No comma is found behind this name, so it has to be the last one.
      have hgaping := KeyPart.gaping_sql hp.noBacktick hbalanced
      cases parts with
      | nil => simpa using hgaping.apart_singleton
      | cons q parts =>
        rw [List.dropLast_cons_cons, List.forall_mem_cons]
        exact iff_of_false (hgaping.not_apart _ _) fun h ↦ hbalanced h.1

namespace Dump

theorem count_of_keyPart {cs : List Char} {p : KeyPart} (h : keyPart.value? cs = some p) :
    p.name.toList.count ',' = cs.count ',' := by
  obtain ⟨r, hname, hrest⟩ := exists_of_keyPart h
  obtain ⟨u, hu, -, -, -, hform⟩ := exists_of_run_name hname
  have hform : u.count ',' = p.name.toList.count ',' := by
    rcases hform with rfl | rfl
    · rfl
    · rw [List.count_cons_of_ne (by decide), List.count_append,
        List.count_eq_zero.2 (by decide : ',' ∉ ['\x60']), Nat.add_zero]
  rw [← count_stripLeft (by decide) cs, hu, List.count_append, hform,
    hrest ',' (by decide) (by decide), Nat.add_zero]

theorem yields_keyPart : Yields (fun p ↦ Legible p.name) keyPart :=
  .after fun _ ↦ yields_name.bind fun _ h ↦ .after fun _ ↦ .after fun _ ↦ .after fun _ ↦ .pure h

theorem legible_of_readKeyParts {cs : List Char} {parts : List KeyPart}
    (h : readKeyParts cs = .ok parts) :
    ∀ p ∈ parts, Legible p.name := by
  intro p hp
  obtain ⟨part, -, hread⟩ := exists_of_mem_mapM h hp
  exact yields_keyPart.of_value? (keyPart_of_readKeyPart hread)

/-- Key parts that are read back have been cut where they were put together. -/
theorem apart_of_readKeyParts {parts : List KeyPart}
    (h : readKeyParts (keySql parts).toList = .ok parts) :
    Apart (parts.map (·.sql.toList)) := by
  refine apart_of_count ?_
  rw [← toList_keySql,
    ← map_eq_of_mapM h fun part _ p hread ↦ count_of_keyPart (keyPart_of_readKeyPart hread),
    List.map_map]
  exact List.map_congr_left fun p _ ↦ p.count_sql.symm

end Dump

/-! ## Stored columns -/

/-- What counts nothing can be left out. -/
theorem sum_map_filter {α : Type} {p : α → Bool} {g : α → Nat} {xs : List α}
    (h : ∀ x ∈ xs, p x = false → g x = 0) : ((xs.filter p).map g).sum = (xs.map g).sum := by
  induction xs with
  | nil => rfl
  | cons x xs ih =>
    obtain ⟨hx, hxs⟩ := List.forall_mem_cons.1 h
    cases hp : p x with
    | true => rw [List.filter_cons_of_pos hp, List.map_cons, List.map_cons, List.sum_cons,
      List.sum_cons, ih hxs]
    | false => rw [List.filter_cons_of_neg (by simp [hp]), List.map_cons, List.sum_cons, ih hxs,
      hx hp, Nat.zero_add]

namespace Dump

/-- Names that are read back have been cut where they were put together: a part that is left out
would leave a comma too many. -/
theorem apart_of_storedColumns {names : List String}
    (h : storedColumns (Index.storedText names) = names) :
    Apart (names.map fun c ↦ (quote c).toList) := by
  have hwritten (xs : List String) : (xs.map fun n ↦ (quote n).toList).map (List.count ',')
      = xs.map (·.toList.count ',') := by
    rw [List.map_map]
    exact List.map_congr_left fun n _ ↦ count_quote (by decide) (by decide) n
  have hread (parts : List (List Char)) :
      (parts.map fun part ↦ unquote (String.ofList part)).map (·.toList.count ',') =
        parts.map (List.count ',') := by
    rw [List.map_map]
    refine List.map_congr_left fun part _ ↦ ?_
    rw [Function.comp_apply, count_unquote (by decide) (by decide) (by decide),
      String.toList_ofList]
  rw [storedColumns, Index.storedText] at h
  cases names with
  | nil => exact trivial
  | cons c cs =>
    refine apart_of_count ?_
    have hjoin :=
      intercalate_splitCommas (", ".toList.intercalate ((c :: cs).map fun n ↦ (quote n).toList))
    generalize splitCommas (", ".toList.intercalate ((c :: cs).map fun n ↦ (quote n).toList)) =
      parts at h hjoin ⊢
    -- In what is left out there is no comma, so the parts hold those of the names, and there are as
    -- many of them.
    have hcommas : (parts.map (List.count ',')).sum = ((c :: cs).map (·.toList.count ',')).sum := by
      rw [← hread, ← h, sum_map_filter]
      exact fun n _ hn ↦ by simp_all
    have hlength : parts.length = (c :: cs).length := by
      have hcount := congrArg (List.count ',') hjoin
      cases parts with
      | nil => contradiction
      | cons p ps =>
        rw [count_intercalate_cons, List.map_cons, count_intercalate_cons,
          ← List.map_cons (f := fun n ↦ (quote n).toList), occurrences, occurrences, hcommas,
          hwritten, List.length_map] at hcount
        simpa using hcount
    have hall : (parts.map fun part ↦ unquote (String.ofList part)) = c :: cs := by
      rw [← h, eq_comm, List.filter_eq_self, ← List.length_filter_eq_length_iff, h, List.length_map,
        hlength]
    rw [← hread, hall, hwritten]

end Dump

/-! ## Index statements -/

/-- The names that a scanner reads; those of stored columns are cut out of their list. -/
def Index.scannedNames (i : Index) : List String :=
  i.name :: i.table :: (i.columnNames ++ i.interleaveIn.toList)

/-- Nothing in the names is taken for anything else. -/
structure Index.Unambiguous (i : Index) : Prop where
  noBacktick : ∀ n ∈ i.scannedNames, '\x60' ∉ n.toList
  noParenthesis : ∀ n ∈ i.referenced, ')' ∉ n.toList
  balanced : ∀ p ∈ i.columns.dropLast, Balanced p.name
  apart : Apart (i.storing.map fun c ↦ (quote c).toList)

instance (i : Index) : Decidable i.Unambiguous :=
  decidable_of_iff
    ((∀ n ∈ i.scannedNames, '\x60' ∉ n.toList) ∧
      (∀ n ∈ i.referenced, ')' ∉ n.toList) ∧ (∀ p ∈ i.columns.dropLast, Balanced p.name) ∧
        Apart (i.storing.map fun c ↦ (quote c).toList))
    ⟨fun h ↦ ⟨h.1, h.2.1, h.2.2.1, h.2.2.2⟩,
      fun h ↦ ⟨h.noBacktick, h.noParenthesis, h.balanced, h.apart⟩⟩

namespace Dump

theorem legible_of_readIndex {cs : List Char} {i : Index} (h : readIndex cs = .ok i) :
    ∀ n ∈ i.scannedNames, Legible n := by
  rw [readIndex] at h
  split at h
  · contradiction
  · rename_i t hvalue
    obtain ⟨parts, hparts, h⟩ := bind_eq_ok h
    obtain rfl := Except.ok.inj h
    have hsound := yields_indexText.of_value? hvalue
    refine List.forall_mem_cons.2 ⟨hsound.name,
      List.forall_mem_cons.2 ⟨hsound.table, fun n hn ↦ ?_⟩⟩
    rcases List.mem_append.1 hn with hn | hn
    · obtain ⟨p, hp, rfl⟩ := List.mem_map.1 hn
      exact legible_of_readKeyParts hparts p hp
    · exact hsound.parent n (Option.mem_toList.1 hn)

section

variable {i : Index} (hlegible : ∀ n ∈ i.scannedNames, Legible n)
  (hclose : ∀ n ∈ i.referenced, ')' ∉ n.toList)

include hlegible hclose

/-- What is left of an index whose names end where they should depends on how its two lists are
cut. -/
theorem readIndex_sql_eq :
    readIndex i.sql.toList = (readKeyParts (keySql i.columns).toList).map fun parts ↦
      { i with
        columns := parts
        storing := storedColumns (Index.storedText i.storing) } := by
  obtain ⟨hname, hrest⟩ := List.forall_mem_cons.1 hlegible
  obtain ⟨htable, hrest⟩ := List.forall_mem_cons.1 hrest
  have hcolumns : ∀ p ∈ i.columns, ')' ∉ p.name.toList := fun p hp ↦
    hclose p.name (List.mem_append_left _ (List.mem_map_of_mem hp))
  refine readIndex_eq hname htable (notMem_keySql hcolumns)
    (notMem_intercalate (by decide) fun x hx ↦ ?_)
    fun p hp ↦ hrest p (List.mem_append_right _ (Option.mem_toList.2 hp))
  obtain ⟨n, hn, rfl⟩ := List.mem_map.1 hx
  exact notMem_quote (hclose n (List.mem_append_right _ hn)) (by decide) (by decide)

end

/-- Exactly the unambiguous index statements are read back. -/
theorem readIndex_sql_iff {i : Index} (hcolumns : i.columns ≠ []) (hne : ∀ n ∈ i.names, n ≠ "") :
    readIndex i.sql.toList = .ok i ↔ i.Unambiguous := by
  have hsub : ∀ n ∈ i.scannedNames, n ∈ i.names := by
    simp only [Index.scannedNames, Index.names, Index.referenced, List.mem_cons, List.mem_append]
    tauto
  constructor
  · intro h
    have hlegible := legible_of_readIndex h
    have hclose := noParenthesis_of_readIndex h
    rw [readIndex_sql_eq hlegible hclose] at h
    obtain ⟨parts, hparts, h⟩ := map_eq_ok h
    -- Both lists are read as they were written.
    obtain rfl : parts = i.columns := congrArg Index.columns h
    have hstored : storedColumns (Index.storedText i.storing) = i.storing :=
      congrArg Index.storing h
    constructor
    case noBacktick => exact fun n hn ↦ (hlegible n hn).noBacktick
    case noParenthesis => exact hclose
    case balanced =>
      exact (apart_sql_iff (legible_of_readKeyParts hparts)).1 (apart_of_readKeyParts hparts)
    case apart => exact apart_of_storedColumns hstored
  · intro h
    have hlegible : ∀ n ∈ i.scannedNames, Legible n :=
      fun n hn ↦ ⟨hne n (hsub n hn), h.noBacktick n hn⟩
    have hkey : ∀ p ∈ i.columns, Legible p.name := fun p hp ↦
      hlegible p.name (List.mem_cons_of_mem _ (List.mem_cons_of_mem _
        (List.mem_append_left _ (List.mem_map_of_mem hp))))
    have hstoring : ∀ c ∈ i.storing, c ≠ "" :=
      fun c hc ↦ hne c (by simp [Index.names, Index.referenced, hc])
    rw [readIndex_sql_eq hlegible h.noParenthesis,
      readKeyParts_of_apart hcolumns hkey ((apart_sql_iff hkey).2 h.balanced),
      storedColumns_of_apart h.apart, filter_ne_empty hstoring]
    rfl

end Dump

/-! ## Statements that create an index -/

namespace CreateIndex

/-- The index that a statement declares, under the given name or else a derived one. -/
def declared (c : CreateIndex) : Index where
  name := c.index.name.getD (indexName c.table (c.index.columns.map (·.name)) (c.kind == .unique))
  table := c.table
  columns := c.index.columns
  unique := c.kind == .unique
  nullFiltered := c.index.nullFiltered
  storing := c.index.storing
  interleaveIn := c.interleaveIn

theorem lower_eq_ok {c : CreateIndex} {l : Lowered} (h : (Statement.createIndex c).lower = .ok l) :
    l = ⟨[.createIndex c.declared], []⟩ ∧ c.declared.columns ≠ [] := by
  obtain ⟨i, hi, h⟩ := bind_eq_ok h
  obtain ⟨rfl, hcolumns, -⟩ := IndexDef.of_lower hi
  exact ⟨(Except.ok.inj h).symm, hcolumns⟩

theorem ne_empty_of_names {c : CreateIndex} (h : ∀ n ∈ (Statement.createIndex c).names, n ≠ "") :
    ∀ n ∈ c.declared.names, n ≠ "" := by
  obtain ⟨htable, hrest⟩ := List.forall_mem_cons.1 h
  exact IndexDef.forall_names_index (i := c.index) (indexName_ne_empty _ _ _) htable
    (fun n hn ↦ hrest n (List.mem_append_left _ hn))
    fun n hn ↦ hrest n (List.mem_append_right _ (Option.mem_toList.2 hn))

/-- A statement that creates an index is written so that it is read as the index that it declares,
if and only if its names are unambiguous. -/
theorem readIndex_declared_iff {c : CreateIndex} {l : Lowered}
    (h : (Statement.createIndex c).lower = .ok l)
    (hne : ∀ n ∈ (Statement.createIndex c).names, n ≠ "") :
    ∃ sql, l.sql = [sql] ∧
      (Dump.readIndex sql.toList = .ok c.declared ↔ c.declared.Unambiguous) := by
  obtain ⟨rfl, hcolumns⟩ := lower_eq_ok h
  exact ⟨c.declared.sql, rfl, Dump.readIndex_sql_iff hcolumns (ne_empty_of_names hne)⟩

/-- Every character that means something where it should not, wherever it does no harm. -/
def desks : CreateIndex where
  table := "rooms (old), 'west'"
  kind := .unique
  index :=
    { name := some "desks) ON \"x\" (\\"
      columns := [⟨"floor, (wing", .desc⟩, ⟨"no \n<1\\", .desc⟩]
      nullFiltered := true
      storing := ["say \x60hi, you\x60", "café\\"] }
  interleaveIn := some "houses, INTERLEAVE IN \\"

theorem desks_read :
    (Statement.createIndex desks).lower = .ok ⟨[.createIndex desks.declared], []⟩ ∧
      (∀ n ∈ (Statement.createIndex desks).names, n ≠ "") ∧
      ∃ sql, Lowered.sql ⟨[.createIndex desks.declared], []⟩ = [sql] ∧
        Dump.readIndex sql.toList = .ok desks.declared := by
  have hlower : (Statement.createIndex desks).lower = .ok ⟨[.createIndex desks.declared], []⟩ := rfl
  have hne : ∀ n ∈ (Statement.createIndex desks).names, n ≠ "" := by decide
  obtain ⟨sql, hsql, hread⟩ := readIndex_declared_iff hlower hne
  exact ⟨hlower, hne, sql, hsql, hread.2 (by decide +kernel)⟩

/-- The statement is accepted and has no empty names, but is not read as the index that it
declares. -/
def Misread (c : CreateIndex) : Prop :=
  (∀ n ∈ (Statement.createIndex c).names, n ≠ "") ∧
    ∃ l sql, (Statement.createIndex c).lower = .ok l ∧ l.sql = [sql] ∧
    Dump.readIndex sql.toList ≠ .ok c.declared

theorem misread_of_not_unambiguous {c : CreateIndex}
    (hne : ∀ n ∈ (Statement.createIndex c).names, n ≠ "")
    (hlower : (Statement.createIndex c).lower = .ok ⟨[.createIndex c.declared], []⟩)
    (hambiguous : ¬c.declared.Unambiguous) : c.Misread := by
  obtain ⟨-, hcolumns⟩ := lower_eq_ok hlower
  refine ⟨hne, _, c.declared.sql, hlower, rfl, fun h ↦ hambiguous ?_⟩
  exact (Dump.readIndex_sql_iff hcolumns (ne_empty_of_names hne)).1 h

/-- An index with these names. -/
def small (name : String) (columns storing : List String) : CreateIndex where
  table := "t"
  index := { name := some name, columns := columns.map (⟨·, .asc⟩), storing }

/-- A backtick in a name, a closing parenthesis in a list, and a backslash before the backtick
between two keys and between two stored columns. -/
theorem small_misread :
    (small "i\x60j" ["a"] []).Misread ∧ (small "i" ["a)"] []).Misread ∧
    (small "i" ["a\\", "b"] []).Misread ∧
      (small "i" ["a"] ["b\\", "c"]).Misread := by
  refine ⟨?_, ?_, ?_, ?_⟩
  all_goals exact misread_of_not_unambiguous (by decide) rfl (by decide +kernel)

end CreateIndex

end SchemaLedger
