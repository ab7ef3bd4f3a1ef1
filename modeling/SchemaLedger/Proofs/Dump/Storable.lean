import Mathlib
import SchemaLedger.Proofs.Dump.Coherent
import SchemaLedger.Proofs.Dump.ColumnText
import SchemaLedger.Proofs.RoundTrip

/-!
# Tables that are read can be written down

A list between parentheses ends at the first that closes, even inside backticks. So there is a
closing parenthesis in no name that is read off a key or an index, and all these names can be
written in such lists again. What else a table has to be that is written down, every table is that
is read, but for one thing: in the name of a column, a backslash may take the backtick behind it
away.
-/

namespace SchemaLedger

open Text Text.Scanner Identifier

/-- The column without a default that is an expression. -/
def Column.withoutExpression (c : Column) : Column :=
  { c with defaultValue := c.defaultValue.filter (· == .commitTimestamp) }

/-- What is shown of a column leaves out the default that is an expression, if nothing is said of
where its values come from. -/
theorem Column.shown_eq_withoutExpression {c : Column} (hgeneration : c.generation = none)
    (hnormal : ∀ d ∈ c.defaultValue, d.Normal) : c.shown = c.withoutExpression := by
  rw [shown, withoutExpression, stated_eq hnormal, ← hgeneration]
  cases hd : c.defaultValue with
  | none => rfl
  | some d => cases d <;> rfl

/-- The table without the defaults that are expressions. -/
def Table.withoutExpressions (t : Table) : Table :=
  { t with columns := t.columns.map Column.withoutExpression }

/-- What is sound and regular can be stored, if its names can stand where they are written. -/
theorem Table.Sound.storable {t : Table} (h : t.Sound) (hregular : t.Regular)
    (hclosed : ∀ n ∈ t.columnNames, Closed n) (hkey : ∀ n ∈ t.primaryKey, Listable n)
    (hindices : ∀ i ∈ t.indices, i.Readable) : t.Storable := by
  constructor
  case legible => exact h.legible
  case closed => exact hclosed
  case distinct => exact h.distinct
  case normal => exact fun c hc ↦ (hregular.measured c hc).normal
  case lengths =>
    exact fun c hc ↦
      Column.hasLength_of_normal (hregular.measured c hc).normal (hregular.measured c hc).ne_zero
  case listable => exact hkey
  case declaresKey => exact h.declaresKey
  case readable => exact hindices
  case named => exact h.named
  case declaresIndexed => exact h.declaresIndexed
  case parents => exact h.parents
  case isPrimary => exact hregular.isPrimary
  case isUnique => exact hregular.isUnique
  case uniques => exact hregular.uniques

/-! ## Names between parentheses -/

namespace Identifier

theorem mem_of_mem_unescape {c : Char} {cs : List Char} (h : c ∈ unescape cs) : c ∈ cs := by
  fun_induction unescape cs with
  | case1 cs ih =>
    rcases List.mem_cons.1 h with rfl | h
    · exact List.mem_cons_of_mem _ List.mem_cons_self
    · exact List.mem_cons_of_mem _ (List.mem_cons_of_mem _ (ih h))
  | case2 d cs _ ih =>
    rcases List.mem_cons.1 h with rfl | h
    · exact List.mem_cons_self
    · exact List.mem_cons_of_mem _ (ih h)
  | case3 => exact h

theorem mem_of_mem_unquote {c : Char} {text : String} (h : c ∈ (unquote text).toList) :
    c ∈ text.toList := by
  rw [unquote] at h
  split at h
  · rename_i inner hinner
    rw [String.toList_ofList] at h
    refine (strip_sublist _).subset ?_
    cases hcs : strip text.toList with
    | nil =>
      rw [hcs] at hinner
      contradiction
    | cons d ds =>
      rw [hcs, unwrap?] at hinner
      split at hinner
      · obtain rfl := Option.some.inj hinner
        exact List.mem_cons_of_mem _ (List.mem_of_mem_dropLast (mem_of_mem_unescape h))
      · contradiction
  · rw [trim, String.toList_ofList] at h
    exact (strip_sublist _).subset h

end Identifier

namespace Dump

theorem yields_parenthesised : Yields (')' ∉ ·) parenthesised :=
  .after fun _ ↦ .after fun _ _ _ _ h ↦ (exists_of_run_upTo h).1

/-- A key part has a name, and behind it only blanks and a direction. -/
theorem exists_of_keyPart {cs : List Char} {p : KeyPart} (h : keyPart.value? cs = some p) :
    ∃ r, name.run (stripLeft cs) = some (p.name, r) ∧
      ∀ d, isBlank d = false → isNameChar d = false → r.count d = 0 := by
  obtain ⟨t, hrun⟩ := exists_of_value? h
  obtain ⟨_, m, hblanks, hrun⟩ := exists_of_run_bind hrun
  obtain rfl : m = stripLeft cs := (Prod.mk.inj (Option.some.inj hblanks)).2.symm
  obtain ⟨n, r, hname, hrest⟩ := exists_of_run_bind hrun
  have hends : t = [] := (Ends.bind fun _ ↦ .bind fun _ ↦ .finished _) r p t hrest
  have hspares (d : Char) (hblank : isBlank d = false) (hchar : isNameChar d = false) :
      r.count d = t.count d :=
    (Spares.bind (.attempt (.bind (.gap hblank) fun _ ↦ spares_direction hchar)) fun _ ↦
      .bind (.blanks hblank) fun _ ↦ .bind .finished fun _ ↦ .pure _) r p t hrest
  have hn : p.name = n := by
    obtain ⟨_, _, -, hrest⟩ := exists_of_run_bind hrest
    obtain ⟨_, _, -, hrest⟩ := exists_of_run_bind hrest
    obtain ⟨_, _, -, hrest⟩ := exists_of_run_bind hrest
    rw [← (Prod.mk.inj (Option.some.inj hrest)).1]
  refine ⟨r, hn ▸ hname, fun d hblank hchar ↦ ?_⟩
  rw [hspares d hblank hchar, hends, List.count_nil]

theorem mem_of_keyPart {cs : List Char} {p : KeyPart} (h : keyPart.value? cs = some p) {c : Char}
    (hc : c ∈ p.name.toList) : c ∈ cs := by
  obtain ⟨r, hname, -⟩ := exists_of_keyPart h
  obtain ⟨u, hu, -, -, -, hform⟩ := exists_of_run_name hname
  refine (List.dropWhile_sublist isBlank).subset (?_ : c ∈ stripLeft cs)
  rw [hu]
  refine List.mem_append_left _ ?_
  rcases hform with rfl | rfl
  · exact hc
  · exact List.mem_cons_of_mem _ (List.mem_append_left _ hc)

theorem mem_of_readKeyParts {cs : List Char} {parts : List KeyPart}
    (h : readKeyParts cs = .ok parts)
    {p : KeyPart} (hp : p ∈ parts) {c : Char} (hc : c ∈ p.name.toList) : c ∈ cs := by
  obtain ⟨part, hpart, hread⟩ := exists_of_mem_mapM h hp
  exact mem_of_mem_splitCommas hpart (mem_of_keyPart (keyPart_of_readKeyPart hread) hc)

theorem noParenthesis_of_readKeyClause {cs : List Char} {k : KeyClause}
    (h : readKeyClause cs = .ok k) :
    ∀ n ∈ k.columns, ')' ∉ n.toList := by
  rw [readKeyClause] at h
  split at h
  · contradiction
  · rename_i columns interleave hvalue
    have hyields : Yields (fun x ↦ ')' ∉ x.1) keyClauseText :=
      .after fun _ ↦ .after fun _ ↦ yields_parenthesised.bind fun _ h ↦
        .after fun _ ↦ .after fun _ ↦ .after fun _ ↦ .pure h
    have hclose : ')' ∉ columns := hyields.of_value? hvalue
    dsimp only at h
    split at h
    · obtain rfl := Except.ok.inj h
      exact fun n hn ↦ absurd hn List.not_mem_nil
    · obtain ⟨parts, hparts, h⟩ := bind_eq_ok h
      obtain rfl := Except.ok.inj h
      intro n hn hc
      obtain ⟨p, hp, rfl⟩ := List.mem_map.1 hn
      exact hclose ((strip_sublist columns).subset (mem_of_readKeyParts hparts hp hc))

theorem noParenthesis_of_readIndex {cs : List Char} {i : Index} (h : readIndex cs = .ok i) :
    ∀ n ∈ i.referenced, ')' ∉ n.toList := by
  rw [readIndex] at h
  split at h
  · contradiction
  · rename_i t hvalue
    obtain ⟨parts, hparts, h⟩ := bind_eq_ok h
    obtain rfl := Except.ok.inj h
    have hstoring : Yields (')' ∉ ·) storingClause :=
      .after fun _ ↦ .after fun _ ↦ yields_parenthesised
    have hyields : Yields (fun t ↦ ')' ∉ t.columns ∧ ∀ u ∈ t.storing, ')' ∉ u) indexText :=
      .after fun _ ↦ .after fun _ ↦ .after fun _ ↦ .after fun _ ↦ .after fun _ ↦ .after fun _ ↦
        .after fun _ ↦ yields_parenthesised.bind fun _ hcolumns ↦
          hstoring.attempt.bind fun _ hstoring ↦
        .after fun _ ↦ .after fun _ ↦ .after fun _ ↦ .pure ⟨hcolumns, hstoring⟩
    obtain ⟨hcolumns, hstored⟩ := hyields.of_value? hvalue
    intro n hn hc
    rcases List.mem_append.1 hn with hn | hn
    · obtain ⟨p, hp, rfl⟩ := List.mem_map.1 hn
      exact hcolumns (mem_of_readKeyParts hparts hp hc)
    · cases hs : t.storing with
      | none =>
        rw [hs] at hn
        exact absurd hn List.not_mem_nil
      | some u =>
        rw [hs] at hn
        obtain ⟨part, hpart, rfl⟩ := List.mem_map.1 (List.mem_filter.1 hn).1
        have hmem := mem_of_mem_unquote hc
        rw [String.toList_ofList] at hmem
        exact hstored u hs (mem_of_mem_splitCommas hpart hmem)

/-! ## Columns -/

theorem normal_of_columnOfText {cs : List Char} {c : Column} (h : columnOfText cs = .ok c) :
    c.generation = none ∧ ∀ d ∈ c.defaultValue, d.Normal := by
  obtain ⟨-, -, x, as, -, -, -, he⟩ := exists_of_readColumn (reading_eq_ok.1 h)
  have hfold : ∀ (as : List Attribute) (c : Column),
      (c.generation = none ∧ ∀ d ∈ c.defaultValue, d.Normal) →
        (as.foldl Attribute.apply c).generation = none ∧
          ∀ d ∈ (as.foldl Attribute.apply c).defaultValue, d.Normal := by
    intro as
    induction as with
    | nil => exact fun _ hc ↦ hc
    | cons a as ih =>
      refine fun c hc ↦ ih _ ?_
      cases a with
      | notNull => exact hc
      | commitTimestamp allowed =>
        cases allowed
        · exact hc
        · exact ⟨hc.1, fun d hd ↦ Option.some.inj hd ▸ ColumnDefault.normal_commitTimestamp⟩
      | default e =>
        exact ⟨hc.1, fun d hd ↦ Option.some.inj hd ▸ ColumnDefault.normal_ofExpression _⟩
  exact he ▸ hfold as
    { name := c.name, type := x.1, length := x.2.1, isArray := x.2.2 } ⟨rfl, by simp⟩

/-! ## Tables -/

/-- The key of a body comes from a clause. -/
theorem exists_readKeyClause_of_foldlM_add {elements : List (List Char)} {b b' : TableBody}
    (hb : ∀ k ∈ b.key, ∃ cs, readKeyClause cs = .ok k)
    (h : elements.foldlM TableBody.add b = .ok b') :
    ∀ k ∈ b'.key, ∃ cs, readKeyClause cs = .ok k := by
  induction elements generalizing b with
  | nil =>
    obtain rfl := Except.ok.inj h
    exact hb
  | cons element elements ih =>
    rw [List.foldlM_cons] at h
    obtain ⟨b₁, hadd, h⟩ := bind_eq_ok h
    refine ih ?_ h
    rw [TableBody.add] at hadd
    split at hadd
    · split at hadd
      · contradiction
      · obtain ⟨k, hk, hadd⟩ := bind_eq_ok hadd
        obtain rfl := Except.ok.inj hadd
        intro k' hk'
        obtain rfl := Option.some.inj hk'
        exact ⟨element, reading_eq_ok.1 hk⟩
    · split at hadd
      · obtain rfl := Except.ok.inj hadd
        exact hb
      · obtain ⟨c, hc, hadd⟩ := bind_eq_ok hadd
        split at hadd
        · contradiction
        · obtain rfl := Except.ok.inj hadd
          exact hb

/-- A key that is not empty comes from a clause, inside the body or behind it. -/
theorem noParenthesis_of_key {text : TableText} {body : TableBody}
    (hbody : text.elements.foldlM TableBody.add {} = .ok body) {key : KeyClause}
    (hkey : text.key body = .ok key) : ∀ n ∈ key.columns, ')' ∉ n.toList := by
  rw [TableText.key] at hkey
  split at hkey
  · obtain rfl := Except.ok.inj hkey
    cases hk : body.key with
    | none => exact fun n hn ↦ absurd hn List.not_mem_nil
    | some k =>
      obtain ⟨cs, hread⟩ := exists_readKeyClause_of_foldlM_add (b := {}) (by simp) hbody k hk
      exact noParenthesis_of_readKeyClause hread
  · obtain ⟨k, hread, hkey⟩ := bind_eq_ok hkey
    split at hkey
    · contradiction
    · obtain rfl := Except.ok.inj hkey
      exact noParenthesis_of_readKeyClause (reading_eq_ok.1 hread)

section

variable {statements : List String} {s : Schema} (h : parse statements = .ok s) {k : String}
    {t : Table}
  (ht : s[k]? = some t)

include h ht

theorem noParenthesis_of_parse :
    (∀ n ∈ t.primaryKey, ')' ∉ n.toList) ∧ ∀ i ∈ t.indices, ∀ n ∈ i.referenced, ')' ∉ n.toList := by
  obtain ⟨items, ts, hitems, hreading⟩ := exists_of_parse h
  rw [hreading.lookup] at ht
  obtain ⟨u, hfind, rfl⟩ := Option.map_eq_some_iff.1 ht
  obtain ⟨text, htext, hbuild⟩ :=
    exists_of_mem_mapM hreading.built (List.mem_of_find?_eq_some hfind)
  obtain ⟨body, key, hbody, hkey, hdeclared⟩ := exists_of_build hbuild
  obtain rfl := Except.ok.inj ((build_eq hbody hkey hdeclared).symm.trans hbuild)
  rw [Table.foldl_registerIndex]
  refine ⟨noParenthesis_of_key hbody hkey, fun i hi ↦ ?_⟩
  obtain ⟨cs, hread⟩ := exists_of_readItems hitems (mem_indices.1 (List.mem_filter.1 hi).1)
  exact noParenthesis_of_readIndex (readIndex_of_readItem hread)

/-- But for its flags, every column is read off a text. -/
theorem exists_columnOfText {c : Column} (hc : c ∈ t.columns) :
    ∃ cs d, columnOfText cs = .ok d ∧
      c = { d with isPrimary := c.isPrimary, isUnique := c.isUnique } := by
  obtain ⟨items, ts, -, hreading⟩ := exists_of_parse h
  rw [hreading.lookup] at ht
  obtain ⟨u, hfind, rfl⟩ := Option.map_eq_some_iff.1 ht
  obtain ⟨text, -, hbuild⟩ := exists_of_mem_mapM hreading.built (List.mem_of_find?_eq_some hfind)
  obtain ⟨body, key, hbody, hkey, hdeclared⟩ := exists_of_build hbuild
  obtain rfl := Except.ok.inj ((build_eq hbody hkey hdeclared).symm.trans hbuild)
  rw [Table.foldl_registerIndex] at hc
  obtain ⟨d', hd', rfl⟩ := List.mem_map.1 hc
  obtain ⟨d, hd, rfl⟩ := List.mem_map.1 hd'
  obtain ⟨cs, hread⟩ := columns_of_foldlM_add (p := fun d ↦ ∃ cs, columnOfText cs = .ok d) (b := {})
    (fun cs _ hread ↦ ⟨cs, hread⟩) (by simp) hbody d hd
  exact ⟨cs, d, hread, rfl⟩

/-- A column has a default as it is read off an expression, and a dump does not say where values
come from. -/
theorem normal_of_parse {c : Column} (hc : c ∈ t.columns) :
    c.generation = none ∧ ∀ d ∈ c.defaultValue, d.Normal := by
  obtain ⟨cs, d, hread, he⟩ := exists_columnOfText h ht hc
  have hnormal := normal_of_columnOfText hread
  rw [he]
  exact hnormal

/-- What the statements of a table leave out, if it is one that is read. -/
theorem shown_of_parse : t.shown = t.withoutExpressions := by
  have hcolumns : t.columns.map Column.shown = t.columns.map Column.withoutExpression := by
    refine List.map_congr_left fun c hc ↦ ?_
    obtain ⟨hgeneration, hnormal⟩ := normal_of_parse h ht hc
    exact Column.shown_eq_withoutExpression hgeneration hnormal
  rw [Table.shown, Table.withoutExpressions, hcolumns, ← (regular_of_parse h ht).2]

theorem timed_iff_of_parse :
    t.Timed ↔ ∀ c ∈ t.columns, c.defaultValue = some .commitTimestamp → c.type = .timestamp := by
  refine forall₂_congr fun c hc ↦ ?_
  rw [Column.stated_eq (normal_of_parse h ht hc).2]

/-- A table that is read can be written down unless the name of a column keeps it from being. -/
theorem storable_of_parse (hbalanced : ∀ n ∈ t.columnNames, Balanced n) : t.Storable := by
  have hsound := (sound_of_parse h ht).1
  obtain ⟨hkey, hindices⟩ := noParenthesis_of_parse h ht
  have hclosed : ∀ n ∈ t.columnNames, Closed n :=
    fun n hn ↦ (hbalanced n hn).closed (hsound.columns n hn).ne_empty
  refine hsound.storable (regular_of_parse h ht).1 hclosed
    (fun n hn ↦ ⟨hclosed n (hsound.declaresKey n hn), hkey n hn⟩) fun i hi ↦ ?_
  obtain ⟨hname, hne, hparent⟩ := hsound.indices i hi
  exact ⟨hname, hsound.named i hi ▸ hsound.legible, hne,
    fun n hn ↦ ⟨hclosed n (hsound.declaresIndexed i hi n hn), hindices i hi n hn⟩, hparent⟩

end

end Dump

end SchemaLedger
