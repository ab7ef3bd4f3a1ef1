import Mathlib
import SchemaLedger.Text.Scanner

/-!
# What scanners read off a written text

A written statement is a concatenation of pieces, and each scanner that reads it is met by the piece
that was written for it, followed by a rest of which only the first character matters. The lemmas
here say of every elementary scanner what it reads off `piece ++ rest`, and how such facts are
sequenced: a `do` block is followed by rewriting with `run_bind_of_run` once for each of its lines.

`Stops p rest` is the condition on the rest, that it does not go on with a character of the class
`p`.
-/

namespace SchemaLedger.Text

/-! ## Where a class ends -/

/-- The text does not begin with a character of the class. -/
def Stops (p : Char → Bool) (cs : List Char) : Prop := ∀ c ∈ cs.head?, p c = false

@[simp] theorem stops_nil (p : Char → Bool) : Stops p [] := by
  intro c hc
  contradiction

@[simp] theorem stops_cons {p : Char → Bool} {c : Char} {cs : List Char} :
    Stops p (c :: cs) ↔ p c = false := by
  simp [Stops]

theorem Stops.append {p : Char → Bool} {a b : List Char} (ha : Stops p a) (hne : a ≠ []) :
    Stops p (a ++ b) := by
  cases a with
  | nil => exact absurd rfl hne
  | cons c cs => exact stops_cons.2 (stops_cons.1 ha)

/-- How a text ends is how its last piece ends. -/
theorem Stops.reverse_append {p : Char → Bool} {a b : List Char} (hb : Stops p b.reverse)
    (hne : b ≠ []) : Stops p (a ++ b).reverse := by
  rw [List.reverse_append]
  exact hb.append (by simpa using hne)

/-- Decided for a literal text, whatever follows it. -/
theorem stops_append {p : Char → Bool} {u : List Char} (h : u.head?.any (!p ·) = true)
    (cs : List Char) : Stops p (u ++ cs) := by
  cases u with
  | nil => contradiction
  | cons c u => exact stops_cons.2 (by simpa using h)

theorem Stops.of_forall {p : Char → Bool} {cs : List Char} (h : ∀ c ∈ cs, p c = false) :
    Stops p cs := fun c hc ↦ h c (List.mem_of_mem_head? hc)

theorem takeWhile_append_of_stops {p : Char → Bool} {u cs : List Char} (hu : ∀ c ∈ u, p c = true)
    (hcs : Stops p cs) : (u ++ cs).takeWhile p = u := by
  induction u with
  | nil =>
    cases cs with
    | nil => rfl
    | cons c cs => rw [List.nil_append, List.takeWhile_cons, if_neg (by simp [stops_cons.1 hcs])]
  | cons c u ih =>
    rw [List.cons_append, List.takeWhile_cons, if_pos (hu c List.mem_cons_self),
      ih fun d hd ↦ hu d (List.mem_cons_of_mem c hd)]

theorem dropWhile_append_of_stops {p : Char → Bool} {u cs : List Char} (hu : ∀ c ∈ u, p c = true)
    (hcs : Stops p cs) : (u ++ cs).dropWhile p = cs := by
  induction u with
  | nil =>
    cases cs with
    | nil => rfl
    | cons c cs => rw [List.nil_append, List.dropWhile_cons, if_neg (by simp [stops_cons.1 hcs])]
  | cons c u ih =>
    rw [List.cons_append, List.dropWhile_cons, if_pos (hu c List.mem_cons_self),
      ih fun d hd ↦ hu d (List.mem_cons_of_mem c hd)]

/-! ## Joined texts -/

theorem notMem_intercalate {c : Char} {sep : List Char} (hsep : c ∉ sep) {ps : List (List Char)}
    (hps : ∀ p ∈ ps, c ∉ p) : c ∉ sep.intercalate ps := by
  induction ps with
  | nil => rw [List.intercalate_nil]; exact List.not_mem_nil
  | cons p ps ih =>
    have hp := hps p List.mem_cons_self
    have ih := ih fun x hx ↦ hps x (List.mem_cons_of_mem p hx)
    cases ps with
    | nil => rwa [List.intercalate_singleton]
    | cons x ps =>
      rw [List.intercalate_cons_cons]
      simp only [List.mem_append, not_or]
      exact ⟨⟨hp, hsep⟩, ih⟩

theorem mem_intercalate {c : Char} {sep p : List Char} {ps : List (List Char)} (hp : p ∈ ps)
    (hc : c ∈ p) : c ∈ sep.intercalate ps := by
  induction ps with
  | nil => contradiction
  | cons x ps ih =>
    cases ps with
    | nil =>
      obtain rfl := List.mem_singleton.1 hp
      rwa [List.intercalate_singleton]
    | cons y ps =>
      rw [List.intercalate_cons_cons]
      rcases List.mem_cons.1 hp with rfl | hp
      · exact List.mem_append_left _ (List.mem_append_left _ hc)
      · exact List.mem_append_right _ (ih hp)

theorem stops_intercalate {p : Char → Bool} {sep : List Char} {x : List Char}
    {xs : List (List Char)} (h : Stops p x) (hne : x ≠ []) :
    Stops p (sep.intercalate (x :: xs)) := by
  cases xs with
  | nil => rwa [List.intercalate_singleton]
  | cons y ys =>
    rw [List.intercalate_cons_cons, List.append_assoc]
    exact h.append hne

theorem intercalate_ne_nil {sep x : List Char} {xs : List (List Char)} (hne : x ≠ []) :
    sep.intercalate (x :: xs) ≠ [] := by
  cases xs with
  | nil => rwa [List.intercalate_singleton]
  | cons y ys =>
    rw [List.intercalate_cons_cons, List.append_assoc]
    exact List.append_ne_nil_of_left_ne_nil hne _

theorem stops_reverse_intercalate {p : Char → Bool} {sep : List Char} {xs : List (List Char)}
    (h : ∀ x ∈ xs, Stops p x.reverse ∧ x ≠ []) : Stops p (sep.intercalate xs).reverse := by
  induction xs with
  | nil => rw [List.intercalate_nil]; exact stops_nil p
  | cons x xs ih =>
    have ih := ih fun y hy ↦ h y (List.mem_cons_of_mem x hy)
    cases xs with
    | nil => rw [List.intercalate_singleton]; exact (h x List.mem_cons_self).1
    | cons y ys =>
      rw [List.intercalate_cons_cons]
      exact ih.reverse_append (intercalate_ne_nil (h y (by simp)).2)

/-! ## Blanks around a text -/

theorem isBlank_eq_false_of_isAlphanum {c : Char} (h : c.isAlphanum = true) :
    isBlank c = false := by
  simp only [Char.isAlphanum, Char.isAlpha, Char.isUpper, Char.isLower, Char.isDigit,
    Bool.or_eq_true, Bool.and_eq_true, decide_eq_true_eq, UInt32.le_iff_toNat_le] at h
  have hc : 48 ≤ c.toNat ∧ c.toNat ≤ 122 := by
    simp only [Char.toNat]
    rcases h with (⟨h1, h2⟩ | ⟨h1, h2⟩) | ⟨h1, h2⟩ <;> constructor <;> simp at h1 h2 ⊢ <;> omega
  simp only [isBlank, Bool.or_eq_false_iff, Bool.and_eq_false_iff, decide_eq_false_iff_not]
  have hne : ∀ d : Char, ¬(48 ≤ d.toNat ∧ d.toNat ≤ 122) → c ≠ d := fun d hd e ↦ hd (e ▸ hc)
  refine ⟨⟨⟨⟨⟨⟨⟨⟨⟨⟨?_, ?_⟩, ?_⟩, ?_⟩, ?_⟩, ?_⟩, ?_⟩, ?_⟩, ?_⟩, ?_⟩, ?_⟩ <;>
    first
    | exact hne _ (by decide)
    | (left; omega)
    | (right; omega)

theorem stripLeft_eq_self {cs : List Char} (h : Stops isBlank cs) : stripLeft cs = cs := by
  simpa [stripLeft] using dropWhile_append_of_stops (u := []) (by simp) h

theorem stripLeft_append {bs cs : List Char} (hbs : ∀ c ∈ bs, isBlank c = true)
    (h : Stops isBlank cs) : stripLeft (bs ++ cs) = cs := dropWhile_append_of_stops hbs h

/-- A text that is written between blanks is what is left of them after trimming. -/
theorem strip_append {bs cs : List Char} (hbs : ∀ c ∈ bs, isBlank c = true)
    (h : Stops isBlank cs) (h' : Stops isBlank cs.reverse) : strip (bs ++ cs) = cs := by
  rw [strip, stripRight, stripLeft_append hbs h, stripLeft_eq_self h', List.reverse_reverse]

theorem strip_between {bs cs es : List Char} (hbs : ∀ c ∈ bs, isBlank c = true)
    (hes : ∀ c ∈ es, isBlank c = true) (hne : cs ≠ []) (h : Stops isBlank cs)
    (h' : Stops isBlank cs.reverse) : strip (bs ++ (cs ++ es)) = cs := by
  have hes' : ∀ c ∈ es.reverse, isBlank c = true := fun c hc ↦ hes c (List.mem_reverse.1 hc)
  rw [strip, stripRight, stripLeft_append hbs (h.append hne), List.reverse_append,
    stripLeft_append hes' h', List.reverse_reverse]

theorem strip_eq_self {cs : List Char} (h : Stops isBlank cs) (h' : Stops isBlank cs.reverse) :
    strip cs = cs := by
  rw [strip, stripRight, stripLeft_eq_self h, stripLeft_eq_self h', List.reverse_reverse]

theorem stops_stripLeft (cs : List Char) : Stops isBlank (stripLeft cs) := by
  induction cs with
  | nil => exact stops_nil _
  | cons c cs ih =>
    rw [stripLeft, List.dropWhile_cons]
    split
    · exact ih
    · rename_i hc
      exact stops_cons.2 (by simpa using hc)

theorem stripRight_append_blanks (cs : List Char) :
    ∃ bs, cs = stripRight cs ++ bs ∧ ∀ c ∈ bs, isBlank c = true := by
  have h := List.takeWhile_append_dropWhile (p := isBlank) (l := cs.reverse)
  refine ⟨(cs.reverse.takeWhile isBlank).reverse, ?_, fun c hc ↦ ?_⟩
  · rw [stripRight, stripLeft, ← List.reverse_append, h, List.reverse_reverse]
  · exact List.mem_takeWhile_imp (List.mem_reverse.1 hc)

theorem stops_strip (cs : List Char) : Stops isBlank (strip cs) := by
  obtain ⟨bs, hbs, -⟩ := stripRight_append_blanks (stripLeft cs)
  have h := stops_stripLeft cs
  rw [hbs] at h
  change Stops isBlank (stripRight (stripLeft cs))
  cases hs : stripRight (stripLeft cs) with
  | nil => exact stops_nil _
  | cons c cs' =>
    rw [hs] at h
    exact stops_cons.2 (stops_cons.1 h)

theorem stops_reverse_strip (cs : List Char) : Stops isBlank (strip cs).reverse := by
  rw [strip, stripRight, List.reverse_reverse]
  exact stops_stripLeft _

theorem strip_strip (cs : List Char) : strip (strip cs) = strip cs :=
  strip_eq_self (stops_strip cs) (stops_reverse_strip cs)

theorem strip_sublist (cs : List Char) : (strip cs).Sublist cs := by
  have hleft (cs : List Char) : (stripLeft cs).Sublist cs := List.dropWhile_sublist _
  have hright : (stripRight (stripLeft cs)).Sublist (stripLeft cs) := by
    have := (hleft (stripLeft cs).reverse).reverse
    rwa [List.reverse_reverse] at this
  exact hright.trans (hleft cs)

theorem count_dropWhile {p : Char → Bool} {d : Char} (hd : p d = false) (cs : List Char) :
    (cs.dropWhile p).count d = cs.count d := by
  have hnone : (cs.takeWhile p).count d = 0 := by
    refine List.count_eq_zero.2 fun h ↦ ?_
    rw [List.mem_takeWhile_imp h] at hd
    contradiction
  have hsum := congrArg (List.count d) (List.takeWhile_append_dropWhile (p := p) (l := cs))
  rwa [List.count_append, hnone, Nat.zero_add] at hsum

/-- Only blanks are taken off. -/
theorem count_stripLeft {d : Char} (hd : isBlank d = false) (cs : List Char) :
    (stripLeft cs).count d = cs.count d :=
  count_dropWhile hd cs

theorem count_strip {d : Char} (hd : isBlank d = false) (cs : List Char) :
    (strip cs).count d = cs.count d := by
  rw [strip, stripRight, List.count_reverse, count_stripLeft hd, List.count_reverse,
    count_stripLeft hd]

theorem mem_stripLeft {c : Char} {cs : List Char} (h : c ∈ cs) (hc : isBlank c = false) :
    c ∈ stripLeft cs :=
  List.count_pos_iff.1 (count_stripLeft hc cs ▸ List.count_pos_iff.2 h)

theorem mem_strip {c : Char} {cs : List Char} (h : c ∈ cs) (hc : isBlank c = false) :
    c ∈ strip cs :=
  List.mem_reverse.2 (mem_stripLeft (List.mem_reverse.2 (mem_stripLeft h hc)) hc)

theorem exists_strip_cons {c : Char} (hc : isBlank c = false) (cs : List Char) :
    ∃ ds, strip (c :: cs) = c :: ds := by
  have hleft : stripLeft (c :: cs) = c :: cs := stripLeft_eq_self (stops_cons.2 hc)
  have hmem : c ∈ strip (c :: cs) := mem_strip List.mem_cons_self hc
  obtain ⟨bs, hbs, -⟩ := stripRight_append_blanks (stripLeft (c :: cs))
  rw [hleft] at hbs
  rw [strip, hleft] at hmem ⊢
  cases hs : stripRight (c :: cs) with
  | nil =>
    rw [hs] at hmem
    contradiction
  | cons d ds =>
    rw [hs, List.cons_append] at hbs
    exact ⟨ds, by rw [(List.cons.inj hbs).1]⟩

/-! ## Sequencing -/

namespace Scanner

variable {α β : Type}

theorem run_bind_of_run {s : Scanner α} {f : α → Scanner β} {cs m : List Char} {a : α}
    (h : s.run cs = some (a, m)) : (s >>= f).run cs = (f a).run m := by
  rw [StateT.run_bind, h]
  rfl

theorem run_bind_of_none {s : Scanner α} {f : α → Scanner β} {cs : List Char}
    (h : s.run cs = none) : (s >>= f).run cs = none := by
  rw [StateT.run_bind, h]
  rfl

/-- What a sequence has read, its first part has read some of. -/
theorem exists_of_run_bind {s : Scanner α} {f : α → Scanner β} {cs : List Char}
    {p : β × List Char} (h : (s >>= f).run cs = some p) :
    ∃ a m, s.run cs = some (a, m) ∧ (f a).run m = some p := by
  rw [StateT.run_bind] at h
  obtain ⟨⟨a, m⟩, hs, hf⟩ := Option.bind_eq_some_iff.1 h
  exact ⟨a, m, hs, hf⟩

theorem run_orElse_of_run {s t : Scanner α} {cs : List Char} {p : α × List Char}
    (h : s.run cs = some p) : (s <|> t).run cs = some p := by
  change (s.run cs <|> t.run cs) = some p
  rw [h]
  rfl

theorem run_orElse_of_none {s t : Scanner α} {cs : List Char} (h : s.run cs = none) :
    (s <|> t).run cs = t.run cs := by
  change (s.run cs <|> t.run cs) = t.run cs
  rw [h]
  rfl

theorem run_map_of_run {s : Scanner α} {f : α → β} {cs m : List Char} {a : α}
    (h : s.run cs = some (a, m)) : (f <$> s).run cs = some (f a, m) := by
  rw [StateT.run_map, h]
  rfl

theorem run_map_of_none {s : Scanner α} {f : α → β} {cs : List Char} (h : s.run cs = none) :
    (f <$> s).run cs = none := by
  rw [StateT.run_map, h]
  rfl

theorem run_attempt_of_run {s : Scanner α} {cs m : List Char} {a : α}
    (h : s.run cs = some (a, m)) : (attempt s).run cs = some (some a, m) :=
  run_orElse_of_run (run_map_of_run h)

theorem run_attempt_of_none {s : Scanner α} {cs : List Char} (h : s.run cs = none) :
    (attempt s).run cs = some (none, cs) := by
  rw [attempt, run_orElse_of_none (run_map_of_none h)]
  rfl

/-! ## The value alone -/

theorem value?_of_run {s : Scanner α} {cs m : List Char} {a : α} (h : s.run cs = some (a, m)) :
    s.value? cs = some a := by
  rw [value?, h]
  rfl

theorem value?_of_none {s : Scanner α} {cs : List Char} (h : s.run cs = none) :
    s.value? cs = none := by
  rw [value?, h]
  rfl

theorem exists_of_value? {s : Scanner α} {cs : List Char} {a : α} (h : s.value? cs = some a) :
    ∃ r, s.run cs = some (a, r) := by
  obtain ⟨⟨b, r⟩, hrun, rfl⟩ := Option.map_eq_some_iff.1 h
  exact ⟨r, hrun⟩

theorem value?_orElse (s t : Scanner α) (cs : List Char) :
    (s <|> t).value? cs = (s.value? cs).or (t.value? cs) := by
  cases h : s.run cs with
  | none =>
    rw [value?_of_none h, value?, run_orElse_of_none h]
    rfl
  | some x =>
    rw [value?_of_run h, value?_of_run (run_orElse_of_run h)]
    rfl

/-! ## What a scanner yields -/

/-- Whatever is read has the property. -/
def Yields (p : α → Prop) (s : Scanner α) : Prop := ∀ cs a r, s.run cs = some (a, r) → p a

namespace Yields

variable {p : α → Prop} {q : β → Prop}

theorem pure {a : α} (h : p a) : Yields p (Pure.pure a) := by
  intro cs b r e
  obtain ⟨rfl, -⟩ := Prod.mk.inj (Option.some.inj e)
  exact h

theorem bind {s : Scanner α} {f : α → Scanner β} (hs : Yields p s)
    (hf : ∀ a, p a → Yields q (f a)) : Yields q (s >>= f) := by
  intro cs b r e
  obtain ⟨a, m, hrun, hrest⟩ := exists_of_run_bind e
  exact hf a (hs cs a m hrun) m b r hrest

/-- What comes first does not matter. -/
theorem after {s : Scanner α} {f : α → Scanner β} (hf : ∀ a, Yields q (f a)) :
    Yields q (s >>= f) := by
  intro cs b r e
  obtain ⟨a, m, -, hrest⟩ := exists_of_run_bind e
  exact hf a m b r hrest

theorem attempt {s : Scanner α} (h : Yields p s) : Yields (fun o ↦ ∀ a ∈ o, p a) (attempt s) := by
  intro cs o r e
  cases hs : s.run cs with
  | none =>
    obtain ⟨rfl, -⟩ := Prod.mk.inj (Option.some.inj ((run_attempt_of_none hs).symm.trans e))
    exact fun a ha ↦ nomatch ha
  | some x =>
    obtain ⟨rfl, -⟩ := Prod.mk.inj (Option.some.inj ((run_attempt_of_run hs).symm.trans e))
    rintro a ⟨⟩
    exact h cs x.1 x.2 hs

theorem orElse {s t : Scanner α} (hs : Yields p s) (ht : Yields p t) : Yields p (s <|> t) := by
  intro cs a r e
  cases h : s.run cs with
  | none => exact ht cs a r ((run_orElse_of_none h).symm.trans e)
  | some x => exact hs cs a r (h.trans ((run_orElse_of_run h).symm.trans e))

theorem of_value? {s : Scanner α} (h : Yields p s) {cs : List Char} {a : α}
    (e : s.value? cs = some a) : p a := by
  obtain ⟨r, hrun⟩ := exists_of_value? e
  exact h cs a r hrun

end Yields

/-! ## Elementary scanners -/

theorem run_blanks (cs : List Char) : blanks.run cs = some ((), stripLeft cs) := rfl

theorem run_blanks_of_stops {cs : List Char} (h : Stops isBlank cs) :
    blanks.run cs = some ((), cs) := by
  rw [run_blanks, stripLeft_eq_self h]

theorem run_blanks_cons {c : Char} {cs : List Char} (hc : isBlank c = true)
    (h : Stops isBlank cs) : blanks.run (c :: cs) = some ((), cs) := by
  rw [run_blanks, ← List.singleton_append, stripLeft_append (by simpa using hc) h]

theorem run_gap_of_stops {c : Char} {cs : List Char} (hc : isBlank c = true)
    (h : Stops isBlank cs) : gap.run (c :: cs) = some ((), cs) := by
  change (if isBlank c then some ((), stripLeft cs) else none) = _
  rw [if_pos hc, stripLeft_eq_self h]

theorem exists_of_run_gap {cs r : List Char} {u : Unit} (h : gap.run cs = some (u, r)) :
    r = stripLeft cs ∧ ∃ b t, cs = b :: t ∧ isBlank b = true := by
  cases cs with
  | nil => contradiction
  | cons b t =>
    change (if isBlank b then some ((), stripLeft t) else none) = _ at h
    split at h
    · rename_i hb
      refine ⟨?_, b, t, rfl, hb⟩
      rw [stripLeft, List.dropWhile_cons_of_pos hb, ← (Prod.mk.inj (Option.some.inj h)).2]
      rfl
    · contradiction

theorem run_gap_eq_none {cs : List Char} (h : Stops isBlank cs) : gap.run cs = none := by
  cases cs with
  | nil => rfl
  | cons c cs =>
    change (if isBlank c then some ((), stripLeft cs) else none) = none
    rw [if_neg (by simp [stops_cons.1 h])]

theorem run_keyword (w : String) (cs : List Char) :
    (keyword w).run cs = (dropFolded w.toList cs).map fun r ↦ ((), r) := rfl

theorem run_keyword_append {w : String} {u : List Char} (h : u.map fold = w.toList)
    (cs : List Char) : (keyword w).run (u ++ cs) = some ((), cs) := by
  have hdrop : ∀ {u v : List Char}, u.map fold = v → dropFolded v (u ++ cs) = some cs := by
    intro u v hv
    subst hv
    induction u with
    | nil => rfl
    | cons c u ih => rw [List.map_cons, List.cons_append, dropFolded, if_pos rfl, ih]
  rw [run_keyword, hdrop h]
  rfl

/-- The first word of a phrase ends at a blank. -/
theorem run_phrase_cons {w w' : String} {ws : List String} {u : List Char} {b : Char}
    {cs : List Char} (hu : u.map fold = w.toList) (hb : isBlank b = true) (h : Stops isBlank cs) :
    (phrase (w :: w' :: ws)).run (u ++ b :: cs) = (phrase (w' :: ws)).run cs := by
  rw [phrase, run_bind_of_run (run_keyword_append hu _), run_bind_of_run (run_gap_of_stops hb h)]
  exact List.cons_ne_nil _ _

/-- Two words and the blank between them. -/
theorem run_phrase_pair {w w' : String} {u v : List Char} (hu : u.map fold = w.toList)
    (hv : v.map fold = w'.toList) (h : v.head?.any (!isBlank ·) = true) (cs : List Char) :
    (phrase [w, w']).run (u ++ ' ' :: (v ++ cs)) = some ((), cs) := by
  rw [run_phrase_cons hu (by decide) (stops_append h cs), phrase, run_keyword_append hv]

/-- A keyword is refused at its first letter. -/
theorem run_keyword_cons_of_ne {w : String} {a c : Char} {ws cs : List Char}
    (hw : w.toList = a :: ws) (hc : fold c ≠ a) : (keyword w).run (c :: cs) = none := by
  rw [run_keyword, hw, dropFolded, if_neg hc]
  rfl

/-- A phrase is refused at the first letter of its first word. -/
theorem run_phrase_of_ne {w : String} {ws : List String} {a : Char} {r u : List Char}
    (hw : w.toList = a :: r) (hu : u.head?.any (fold · != a) = true) (cs : List Char) :
    (phrase (w :: ws)).run (u ++ cs) = none := by
  cases u with
  | nil => contradiction
  | cons c u =>
    have hc : fold c ≠ a := by simpa using hu
    cases ws with
    | nil => exact run_keyword_cons_of_ne hw hc
    | cons w' ws =>
      rw [phrase]
      · exact run_bind_of_none (run_keyword_cons_of_ne hw hc)
      · exact List.cons_ne_nil _ _

/-- A keyword is refused at its first letter. -/
theorem run_keyword_of_ne {w : String} {a : Char} {r u : List Char} (hw : w.toList = a :: r)
    (hu : u.head?.any (fold · != a) = true) (cs : List Char) : (keyword w).run (u ++ cs) = none :=
  @run_phrase_of_ne w [] a r u hw hu cs

/-- A phrase is refused at the first letter of its second word. -/
theorem run_phrase_pair_of_stops {w w' : String} {u cs : List Char} {a : Char} {r : List Char}
    (hu : u.map fold = w.toList) (hw : w'.toList = a :: r) (hb : Stops isBlank cs)
    (hcs : Stops (fold · == a) cs) : (phrase [w, w']).run (u ++ ' ' :: cs) = none := by
  rw [run_phrase_cons hu (by decide) hb]
  cases cs with
  | nil =>
    rw [phrase, run_keyword, hw]
    rfl
  | cons c cs => exact run_keyword_cons_of_ne hw (by simpa using stops_cons.1 hcs)

theorem run_symbol (c : Char) (cs : List Char) : (symbol c).run (c :: cs) = some ((), cs) := by
  change (if c = c then some ((), cs) else none) = _
  rw [if_pos rfl]

theorem run_symbol_of_ne {c d : Char} {cs : List Char} (h : d ≠ c) :
    (symbol c).run (d :: cs) = none := by
  change (if d = c then some ((), cs) else none) = _
  rw [if_neg h]

theorem exists_of_run_symbol {c : Char} {cs r : List Char} {u : Unit}
    (h : (symbol c).run cs = some (u, r)) : cs = c :: r := by
  cases cs with
  | nil => contradiction
  | cons d cs =>
    change (if d = c then some ((), cs) else none) = _ at h
    split at h
    · rename_i hd
      rw [hd, (Prod.mk.inj (Option.some.inj h)).2]
    · contradiction

theorem run_upTo {stop : Char} {u : List Char} (h : stop ∉ u) (cs : List Char) :
    (upTo stop).run (u ++ stop :: cs) = some (u, cs) := by
  induction u with
  | nil =>
    change (if stop = stop then some ([], cs) else _) = _
    rw [if_pos rfl]
  | cons c u ih =>
    obtain ⟨hc, hu⟩ : stop ≠ c ∧ stop ∉ u := by simpa using h
    change (if c = stop then _ else ((upTo stop).run (u ++ stop :: cs)).map _) = _
    rw [if_neg (Ne.symm hc), ih hu]
    rfl

theorem exists_of_run_upTo {stop : Char} {cs u m : List Char}
    (h : (upTo stop).run cs = some (u, m)) : stop ∉ u ∧ cs = u ++ stop :: m := by
  induction cs generalizing u m with
  | nil => contradiction
  | cons c cs ih =>
    change (if c = stop then some ([], cs) else ((upTo stop).run cs).map _) = _ at h
    split at h
    · rename_i hc
      obtain ⟨rfl, rfl⟩ := Prod.mk.inj (Option.some.inj h)
      exact ⟨List.not_mem_nil, by rw [hc]; rfl⟩
    · rename_i hc
      obtain ⟨⟨v, r⟩, hr, he⟩ := Option.map_eq_some_iff.1 h
      obtain ⟨rfl, rfl⟩ := Prod.mk.inj he
      obtain ⟨hv, rfl⟩ := ih hr
      refine ⟨fun hmem ↦ ?_, rfl⟩
      rcases List.mem_cons.1 hmem with e | hmem
      · exact hc e.symm
      · exact hv hmem

theorem run_chars {p : Char → Bool} {u cs : List Char} (hne : u ≠ []) (hu : ∀ c ∈ u, p c = true)
    (hcs : Stops p cs) : (chars p).run (u ++ cs) = some (u, cs) := by
  cases u with
  | nil => exact absurd rfl hne
  | cons c u =>
    have hu' : ∀ d ∈ u, p d = true := fun d hd ↦ hu d (List.mem_cons_of_mem c hd)
    change (if p c then some (c :: (u ++ cs).takeWhile p, (u ++ cs).dropWhile p) else none) = _
    rw [if_pos (hu c List.mem_cons_self), takeWhile_append_of_stops hu' hcs,
      dropWhile_append_of_stops hu' hcs]

theorem exists_of_run_chars {p : Char → Bool} {cs u r : List Char}
    (h : (chars p).run cs = some (u, r)) :
    cs = u ++ r ∧ u ≠ [] ∧ (∀ c ∈ u, p c = true) ∧ Stops p r := by
  cases cs with
  | nil => contradiction
  | cons c cs =>
    change (if p c then some (c :: cs.takeWhile p, cs.dropWhile p) else none) = _ at h
    split at h
    · rename_i hc
      obtain ⟨rfl, rfl⟩ := Prod.mk.inj (Option.some.inj h)
      refine ⟨?_, List.cons_ne_nil _ _, fun d hd ↦ ?_, ?_⟩
      · rw [List.cons_append, List.takeWhile_append_dropWhile]
      · rcases List.mem_cons.1 hd with rfl | hd
        · exact hc
        · exact List.mem_takeWhile_imp hd
      · intro d hd
        have hstop := List.head?_dropWhile_not p cs
        rw [Option.mem_def.1 hd] at hstop
        exact hstop
    · contradiction

theorem run_finished_nil : finished.run [] = some ((), []) := rfl

theorem run_finished_cons (c : Char) (cs : List Char) : finished.run (c :: cs) = none := rfl

theorem run_remainder (cs : List Char) : remainder.run cs = some (cs, []) := rfl

theorem run_wordEnd_of_stops {cs : List Char} (h : Stops isWordChar cs) :
    wordEnd.run cs = some ((), cs) := by
  change (if cs.head?.any isWordChar then none else some ((), cs)) = _
  rw [if_neg]
  cases cs with
  | nil => exact Bool.false_ne_true
  | cons c cs => simpa using stops_cons.1 h

/-! ## Words -/

theorem isNameChar_of_fold {c : Char} (h : isNameChar (fold c) = true) : isNameChar c = true := by
  rw [fold] at h
  split at h
  · rename_i hc
    rw [hc]
    decide
  · split at h
    · rename_i hc
      rw [hc]
      decide
    · rw [Char.toLower] at h
      split at h
      · rename_i hc
        have hupper : c.isUpper = true := by
          rw [Char.isUpper, decide_eq_true_eq]
          exact hc
        simp [isNameChar, isNameStart, Char.isAlpha, hupper]
      · exact h

theorem isBlank_eq_false_of_isNameChar {c : Char} (h : isNameChar c = true) :
    isBlank c = false := by
  have hc : c.isAlphanum = true ∨ c = '_' ∨ c = '\u017F' ∨ c = '\u212A' := by
    simp only [isNameChar, isNameStart, Bool.or_eq_true, decide_eq_true_eq] at h
    rw [Char.isAlphanum, Bool.or_eq_true]
    rcases h with (((h | h) | h) | h) | h
    · exact Or.inl (Or.inl h)
    · exact Or.inr (Or.inl h)
    · exact Or.inr (Or.inr (Or.inl h))
    · exact Or.inr (Or.inr (Or.inr h))
    · exact Or.inl (Or.inr h)
  rcases hc with h | rfl | rfl | rfl
  · exact isBlank_eq_false_of_isAlphanum h
  · decide
  · decide
  · decide

/-- What is left of a text when a keyword is taken off is the text behind as many characters. -/
theorem exists_of_dropFolded {w cs m : List Char} (h : dropFolded w cs = some m) :
    ∃ u, cs = u ++ m ∧ u.map fold = w := by
  induction w generalizing cs with
  | nil =>
    rw [dropFolded, Option.some_inj] at h
    exact ⟨[], h, rfl⟩
  | cons x w ih =>
    cases cs with
    | nil => contradiction
    | cons c cs =>
      rw [dropFolded] at h
      split at h
      · rename_i hc
        obtain ⟨u, rfl, hu⟩ := ih h
        exact ⟨c :: u, rfl, by rw [List.map_cons, hc, hu]⟩
      · contradiction

/-- A keyword is as many characters of a name. -/
theorem exists_of_run_keyword {w : String} (hw : w.toList.all isNameChar = true) {cs r : List Char}
    {x : Unit} (h : (keyword w).run cs = some (x, r)) :
    ∃ u, cs = u ++ r ∧ u.map fold = w.toList ∧ ∀ c ∈ u, isNameChar c = true := by
  rw [run_keyword, Option.map_eq_some_iff] at h
  obtain ⟨m, hdrop, he⟩ := h
  obtain ⟨u, hu, hfold⟩ := exists_of_dropFolded hdrop
  exact ⟨u, (Prod.mk.inj he).2 ▸ hu, hfold, fun c hc ↦
    isNameChar_of_fold (List.all_eq_true.1 hw _ (hfold ▸ List.mem_map_of_mem hc))⟩

/-- A keyword and the blanks behind it are read off a text that begins with a word only if the word
is the keyword. -/
theorem exists_of_run_keyword_gap {w : String} (hw : w.toList.all isNameChar = true)
    {u r : List Char} (hu : ∀ c ∈ u, isNameChar c = true) (hr : Stops isNameChar r)
    {f : Unit → Scanner α} {p : α × List Char}
    (h : (keyword w >>= fun _ ↦ gap >>= f).run (u ++ r) = some p) :
    u.map fold = w.toList ∧ ∃ m, gap.run r = some ((), m) ∧ (f ()).run m = some p := by
  obtain ⟨_, m', hkeyword, hrest⟩ := exists_of_run_bind h
  obtain ⟨⟨⟩, m, hgap, hf⟩ := exists_of_run_bind hrest
  obtain ⟨v, hv, hfold, hvname⟩ := exists_of_run_keyword hw hkeyword
  have hstops : Stops isNameChar m' := by
    cases m' with
    | nil => exact stops_nil _
    | cons b m' =>
      refine stops_cons.2 (Bool.eq_false_iff.2 fun hb ↦ ?_)
      rw [run_gap_eq_none (stops_cons.2 (isBlank_eq_false_of_isNameChar hb))] at hgap
      contradiction
  have huv : u = v := by
    rw [← takeWhile_append_of_stops hu hr, hv, takeWhile_append_of_stops hvname hstops]
  subst huv
  rw [List.append_cancel_left hv]
  exact ⟨hfold, m, hgap, hf⟩

end Scanner

end SchemaLedger.Text
