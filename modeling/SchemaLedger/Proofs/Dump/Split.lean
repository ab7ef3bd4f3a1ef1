import Mathlib
import SchemaLedger.Dump
import SchemaLedger.Proofs.Text.Lines
import SchemaLedger.Proofs.Text.Splitting

/-!
# Statements of a dump

A dump that joins statements by a semicolon and a line feed is cut into just these statements, when
none has a semicolon of its own outside literals and all end outside literals. There is one
condition more, and it does not look at literals: comments are removed line by line before anything
is cut, so no line of a statement may start with two dashes and none may end with a carriage return,
be it in the middle of a literal. The condition is exact, for a statement that breaks it comes out
with fewer dashes or fewer carriage returns than it went in with.
-/

namespace SchemaLedger

open Text

namespace Dump

/-! ## Comments -/

/-- The line is a comment. -/
def isComment (l : List Char) : Bool := "--".toList.isPrefixOf (stripLeft l)

theorem withoutComments_eq (cs : List Char) :
    withoutComments cs = ['\n'].intercalate ((lines cs).filter (!isComment ·)) := rfl

theorem isComment_nil : isComment [] = false := rfl

/-- A semicolon behind a line does not make a comment of it. -/
theorem isComment_append_semicolon (l : List Char) : isComment (l ++ [';']) = isComment l := by
  have hdashes : "--".toList = ['-', '-'] := rfl
  have hstrip : stripLeft (l ++ [';']) = stripLeft l ++ [';'] := by
    induction l with
    | nil => rfl
    | cons c l ih =>
      by_cases hc : isBlank c = true
      · simpa [stripLeft, hc] using ih
      · simp [stripLeft, hc]
  rw [isComment, isComment, hstrip, hdashes]
  rcases stripLeft l with _ | ⟨a, _ | ⟨b, m⟩⟩ <;> simp [List.isPrefixOf]

/-- Nothing of the text is taken for a comment or for part of a line end. -/
structure Untouched (cs : List Char) : Prop where
  comment : ∀ l ∈ lines cs, isComment l = false
  noReturn : ¬HasReturn cs

instance (cs : List Char) : Decidable (Untouched cs) :=
  decidable_of_iff ((∀ l ∈ lines cs, isComment l = false) ∧ ¬HasReturn cs)
    ⟨fun h ↦ ⟨h.1, h.2⟩, fun h ↦ ⟨h.comment, h.noReturn⟩⟩

/-- Statements stay apart. -/
theorem untouched_append (t cs : List Char) :
    Untouched (t ++ ';' :: '\n' :: cs) ↔ Untouched t ∧ Untouched cs := by
  have hreturn : HasReturn (t ++ ';' :: '\n' :: cs) ↔ HasReturn t ∨ HasReturn cs := by
    rw [hasReturn_append_cons (by decide) (by decide), hasReturn_newline_cons]
  have hlines : lines (t ++ ';' :: '\n' :: cs) = lines (t ++ [';', '\n']) ++ lines cs := by
    have := lines_append_newline (t ++ [';']) cs
    simpa only [List.append_assoc, List.cons_append, List.nil_append] using this
  have hcomment : (∀ l ∈ lines (t ++ [';', '\n']), isComment l = false) ↔
      ∀ l ∈ lines t, isComment l = false := by
    obtain ⟨ls, l, heq, h | ⟨h, rfl⟩⟩ := exists_lines_append (e := ';') (by decide) (by decide) t
    · rw [heq, h]
      simp only [List.forall_mem_append, List.forall_mem_singleton, isComment_append_semicolon]
    · rw [heq, h]
      simp only [List.forall_mem_append, List.forall_mem_singleton, isComment_append_semicolon,
        isComment_nil, and_true]
  constructor
  · intro h
    have hall := h.comment
    rw [hlines, List.forall_mem_append, hcomment] at hall
    have hno := not_or.1 (mt hreturn.2 h.noReturn)
    exact ⟨⟨hall.1, hno.1⟩, ⟨hall.2, hno.2⟩⟩
  · rintro ⟨ht, hcs⟩
    refine ⟨?_, mt hreturn.1 (not_or.2 ⟨ht.noReturn, hcs.noReturn⟩)⟩
    rw [hlines, List.forall_mem_append, hcomment]
    exact ⟨ht.comment, hcs.comment⟩

theorem untouched_nil : Untouched [] := by decide

theorem untouched_intercalate (ts : List (List Char)) :
    Untouched (";\n".toList.intercalate ts) ↔ ∀ t ∈ ts, Untouched t := by
  induction ts with
  | nil => exact ⟨fun _ _ h ↦ absurd h List.not_mem_nil, fun _ ↦ untouched_nil⟩
  | cons t ts ih =>
    cases ts with
    | nil => rw [List.intercalate_singleton, List.forall_mem_singleton]
    | cons x ts =>
      rw [List.intercalate_cons_cons, List.append_assoc]
      exact (untouched_append t _).trans
        ((and_congr_right fun _ ↦ ih).trans List.forall_mem_cons.symm)

theorem withoutComments_eq_self {cs : List Char} (h : Untouched cs) (hend : ¬['\n'] <:+ cs) :
    withoutComments cs = cs := by
  have hkeep : (lines cs).filter (!isComment ·) = lines cs :=
    List.filter_eq_self.2 fun l hl ↦ by rw [h.comment l hl]; rfl
  rw [withoutComments_eq, hkeep, intercalate_lines h.noReturn hend]

/-- A comment has dashes, and a line end that is cut off has a carriage return. -/
theorem untouched_of_count_le {cs : List Char}
    (hdash : cs.count '-' ≤ (withoutComments cs).count '-')
    (hreturn : cs.count '\r' ≤ (withoutComments cs).count '\r') : Untouched cs := by
  rw [withoutComments_eq, count_intercalate _ (by decide)] at hdash hreturn
  constructor
  · intro l hl
    refine Bool.eq_false_of_not_eq_true fun hcomment ↦ ?_
    have hmem : '-' ∈ l := by
      obtain ⟨t, ht⟩ := List.isPrefixOf_iff_prefix.1 hcomment
      have hmem : '-' ∈ stripLeft l := ht ▸ List.mem_append_left t (by decide)
      exact (List.dropWhile_sublist _).subset hmem
    have hlt := occurrences_filter_lt '-' (f := (!isComment ·)) hl (by simp [hcomment]) hmem
    have := occurrences_lines_le '-' cs
    omega
  · intro h
    have := occurrences_lines_lt h
    have := occurrences_filter_le '\r' (!isComment ·) (lines cs)
    omega

/-! ## Semicolons -/

/-- A statement as it can stand in a dump: without blanks around it, and it ends with the semicolon
that follows it and with no other. -/
structure Separable (t : List Char) : Prop where
  stripped : strip t = t
  ne_nil : t ≠ []
  closed : Quotation.outside.after t = .outside
  quoted : Quoted ';' t

instance (t : List Char) : Decidable (Separable t) :=
  decidable_of_iff (strip t = t ∧ t ≠ [] ∧ Quotation.outside.after t = .outside ∧ Quoted ';' t)
    ⟨fun h ↦ ⟨h.1, h.2.1, h.2.2.1, h.2.2.2⟩, fun h ↦ ⟨h.stripped, h.ne_nil, h.closed, h.quoted⟩⟩

theorem splitSemicolonsFrom_append {s : Quotation} {t : List Char}
    (h : ∀ n < t.length, t[n]? = some ';' → s.after (t.take n) ≠ .outside) (r : List Char) :
    splitSemicolonsFrom s (t ++ r) = t.foldr consFirst (splitSemicolonsFrom (s.after t) r) := by
  induction t generalizing s with
  | nil => rfl
  | cons c t ih =>
    have hcut : ¬(!s.covers c && decide (c = ';')) = true := by
      intro hcut
      obtain ⟨hcovers, rfl⟩ : s.covers c = false ∧ c = ';' := by simpa using hcut
      have hne : s ≠ .outside := h 0 (Nat.zero_lt_succ _) rfl
      cases s with
      | outside => exact hne rfl
      | inside q => exact Bool.noConfusion hcovers
      | escaped q => exact Bool.noConfusion hcovers
    rw [List.cons_append, splitSemicolonsFrom, if_neg hcut,
      ih fun n hn hc ↦ h (n + 1) (Nat.succ_lt_succ hn) hc]
    rfl

/-- The scan for semicolons passes through the text as a whole. -/
def Uncut (p : List Char) : Prop :=
  ∀ r, splitSemicolonsFrom .outside (p ++ r) = p.foldr consFirst (splitSemicolonsFrom .outside r)

namespace Uncut

theorem append {a b : List Char} (ha : Uncut a) (hb : Uncut b) : Uncut (a ++ b) := by
  intro r
  rw [List.append_assoc, ha, hb, List.foldr_append]

theorem of_separable {t : List Char} (h : Separable t) : Uncut t := by
  intro r
  rw [splitSemicolonsFrom_append h.quoted, h.closed]

theorem newline : Uncut ['\n'] := fun _ ↦ rfl

variable {p : List Char} (h : Uncut p)

include h

theorem splitSemicolons_eq : splitSemicolons p = [p] := by
  have hall := h []
  rwa [List.append_nil, splitSemicolonsFrom, consFirst_foldr_cons, List.append_nil] at hall

theorem splitSemicolons_append (cs : List Char) :
    splitSemicolons (p ++ ';' :: cs) = p :: splitSemicolons cs := by
  have hcut : splitSemicolonsFrom .outside (';' :: cs) = [] :: splitSemicolonsFrom .outside cs :=
    rfl
  rw [splitSemicolons, h, hcut, consFirst_foldr_cons, List.append_nil, splitSemicolons]

end Uncut

theorem Separable.strip_newline_cons {t : List Char} (h : Separable t) : strip ('\n' :: t) = t := by
  have hstrip : strip ('\n' :: t) = strip t := rfl
  rw [hstrip, h.stripped]

/-- The scan cuts the statements out. -/
theorem filter_strip_splitSemicolons {ts : List (List Char)} (h : ∀ t ∈ ts, Separable t) :
    ((splitSemicolons (";\n".toList.intercalate ts)).map strip).filter (!·.isEmpty) = ts := by
  have keep {t : List Char} (ht : Separable t) (xs : List (List Char)) :
      (t :: xs).filter (!·.isEmpty) = t :: xs.filter (!·.isEmpty) :=
    List.filter_cons_of_pos (by simpa using ht.ne_nil)
  -- behind the first statement a line feed is left over, which is trimmed away
  have hrest {t x : List Char} (ht : Uncut t) (hx : strip t = x) (hsep : Separable x)
      (ts : List (List Char)) (hts : ∀ t ∈ ts, Separable t) :
      ((splitSemicolons (";\n".toList.intercalate (t :: ts))).map strip).filter (!·.isEmpty) =
        x :: ts := by
    induction ts generalizing t x with
    | nil =>
      rw [List.intercalate_singleton, ht.splitSemicolons_eq, List.map_singleton, hx, keep hsep]
      rfl
    | cons y ts ih =>
      have hy := hts y List.mem_cons_self
      have hnewline : '\n' :: ";\n".toList.intercalate (y :: ts)
          = ";\n".toList.intercalate (('\n' :: y) :: ts) := by
        cases ts <;> rfl
      have hjoin : ";\n".toList.intercalate (t :: y :: ts)
          = t ++ ';' :: ";\n".toList.intercalate (('\n' :: y) :: ts) := by
        rw [← hnewline, List.intercalate_cons_cons, List.append_assoc]
        rfl
      rw [hjoin, ht.splitSemicolons_append, List.map_cons, hx, keep hsep,
        ih (t := '\n' :: y) (Uncut.newline.append (.of_separable hy)) hy.strip_newline_cons hy
          fun z hz ↦ hts z (List.mem_cons_of_mem y hz)]
  cases ts with
  | nil => rfl
  | cons t ts =>
    have ht := h t List.mem_cons_self
    exact hrest (.of_separable ht) ht.stripped ht ts fun x hx ↦ h x (List.mem_cons_of_mem t hx)

theorem occurrences_splitSemicolonsFrom_le (d : Char) (s : Quotation) (cs : List Char) :
    occurrences d (splitSemicolonsFrom s cs) ≤ cs.count d := by
  induction cs generalizing s with
  | nil => exact Nat.le_refl _
  | cons c cs ih =>
    rw [splitSemicolonsFrom]
    split
    · rw [occurrences_cons, List.count_nil, Nat.zero_add]
      exact (ih _).trans List.count_le_count_cons
    · rw [occurrences_consFirst, ← List.singleton_append (l := cs), List.count_append]
      exact Nat.add_le_add_left (ih _) _

/-- No character comes from nowhere. -/
theorem occurrences_split_le (d : Char) (dump : String) :
    occurrences d ((split dump).map String.toList) ≤ (withoutComments dump.toList).count d := by
  have hback : (split dump).map String.toList
      = ((splitSemicolons (withoutComments dump.toList)).map strip).filter (!·.isEmpty) := by
    rw [split, List.map_map]
    exact (List.map_congr_left fun cs _ ↦ String.toList_ofList).trans (List.map_id _)
  rw [hback]
  exact (occurrences_filter_le _ _ _).trans ((occurrences_le _ strip_sublist _).trans
    (occurrences_splitSemicolonsFrom_le _ _ _))

/-! ## Joined statements -/

/-- Statements that are joined to a dump are the statements of the dump exactly when no line of
theirs, quoted or not, looks like a comment or ends with a carriage return. -/
theorem split_intercalate {ts : List String} (h : ∀ t ∈ ts, Separable t.toList) :
    split (";\n".intercalate ts) = ts ↔ ∀ t ∈ ts, Untouched t.toList := by
  have hjoin : (";\n".intercalate ts).toList = ";\n".toList.intercalate (ts.map String.toList) :=
    String.toList_intercalate
  have hall : (∀ t ∈ ts, Untouched t.toList) ↔ Untouched (";\n".intercalate ts).toList := by
    rw [hjoin, untouched_intercalate, List.forall_mem_map]
  have hseparable : ∀ t ∈ ts.map String.toList, Separable t := List.forall_mem_map.2 h
  rw [hall]
  constructor
  · intro hsplit
    have hcount (d : Char) (hd : d ∉ ";\n".toList) :
        (";\n".intercalate ts).toList.count d
          ≤ (withoutComments (";\n".intercalate ts).toList).count d := by
      have := occurrences_split_le d (";\n".intercalate ts)
      rwa [hsplit, ← count_intercalate d hd, ← hjoin] at this
    exact untouched_of_count_le (hcount '-' (by decide)) (hcount '\r' (by decide))
  · intro huntouched
    have hend : ¬['\n'] <:+ (";\n".intercalate ts).toList := by
      have hstops : Stops isBlank (";\n".intercalate ts).toList.reverse := by
        rw [hjoin]
        refine stops_reverse_intercalate fun t ht ↦ ⟨?_, (hseparable t ht).ne_nil⟩
        rw [← (hseparable t ht).stripped]
        exact stops_reverse_strip t
      rintro ⟨u, hu⟩
      rw [← hu, List.reverse_append] at hstops
      exact absurd (stops_cons.1 hstops) (by decide)
    rw [split, withoutComments_eq_self huntouched hend, hjoin,
      filter_strip_splitSemicolons hseparable, List.map_map]
    exact (List.map_congr_left fun t _ ↦ String.ofList_toList).trans (List.map_id _)

/-- A literal may hold semicolons, quotes and line feeds. -/
theorem notes_split :
    (∀ t ∈ ["CREATE TABLE a (s STRING(10) DEFAULT ('x;\ny\\'')) PRIMARY KEY (s)",
      "CREATE INDEX i ON a (s)"],
      Separable t.toList ∧ Untouched t.toList) ∧
    split "CREATE TABLE a (s STRING(10) DEFAULT ('x;\ny\\'')) PRIMARY KEY (s);\nCREATE INDEX i ON a (s)"
      = ["CREATE TABLE a (s STRING(10) DEFAULT ('x;\ny\\'')) PRIMARY KEY (s)",
        "CREATE INDEX i ON a (s)"] := by
  have h : ∀ t ∈ ["CREATE TABLE a (s STRING(10) DEFAULT ('x;\ny\\'')) PRIMARY KEY (s)",
      "CREATE INDEX i ON a (s)"], Separable t.toList ∧ Untouched t.toList := by
    decide +kernel
  exact ⟨h, (split_intercalate fun t ht ↦ (h t ht).1).2 fun t ht ↦ (h t ht).2⟩

/-- Every line that starts with two dashes starts in a literal. -/
def Uncommented (t : List Char) : Prop :=
  ∀ n ≤ t.length, (n = 0 ∨ t[n - 1]? = some '\n') → isComment (t.drop n) = true →
    Quotation.outside.after (t.take n) ≠ .outside

instance (t : List Char) : Decidable (Uncommented t) :=
  inferInstanceAs (Decidable (∀ n ≤ t.length, _))

/-- It is not enough that semicolons, carriage returns and lines with two dashes are all quoted. -/
theorem split_quoted_dashes :
    let t := "CREATE TABLE a (s STRING(10) DEFAULT ('x\n--y')) PRIMARY KEY (s)"
    Separable t.toList ∧ Quoted '\r' t.toList ∧ Uncommented t.toList ∧
      split (";\n".intercalate [t]) ≠ [t] := by
  decide +kernel

end Dump

end SchemaLedger
