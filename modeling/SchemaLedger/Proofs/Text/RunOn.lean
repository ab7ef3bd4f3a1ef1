import Mathlib
import SchemaLedger.Proofs.Identifier
import SchemaLedger.Proofs.Text.Backticks

/-!
# Literals that run on

A backslash at the end of a name takes the backtick away that would close its literal, and the
literal runs on into the next name. From there on names are read inside out: their backticks come in
pairs, so behind each of them the scan is inside a literal again. A scan for a closing parenthesis
that has run on is therefore lost: it finds no parenthesis between the names any more, and if it
finds one inside a name, the text behind it has an odd number of backticks, which no list of names
uses up.

`Traps s u` says that a scan which meets `u` in the state `s` is lost behind it, `RunsOn u` that `u`
does not bring a lost scan back.
-/

namespace SchemaLedger.Text

open Identifier

/-- A scan that stopped before `rest` did so inside a name, or it is inside a literal at `r`. -/
def Lost (r rest : List Char) : Prop :=
  (backticks rest + backticks r) % 2 = 1 ∨
    ∃ q depth body, isQuote q = true ∧ enclosedFrom (.inside q) depth r = some (body, rest)

/-- A scan that meets the text in this state is lost behind it. -/
def Traps (s : Quotation) (u : List Char) : Prop :=
  ∀ depth r body rest, enclosedFrom s depth (u ++ r) = some (body, rest) → Lost r rest

/-- A scan that meets the text inside a literal is lost behind it, too. -/
structure RunsOn (u : List Char) : Prop where
  traps : ∀ q, isQuote q = true → Traps (.inside q) u
  even : backticks u % 2 = 0

/-- A scan that goes on leaves the same rest. -/
private theorem exists_of_map_fst {o : Option (List Char × List Char)}
    {f : List Char → List Char} {body rest : List Char}
    (h : o.map (fun p ↦ (f p.1, p.2)) = some (body, rest)) : ∃ body', o = some (body', rest) := by
  obtain ⟨⟨body', rest'⟩, ho, e⟩ := Option.map_eq_some_iff.1 h
  exact ⟨body', (Prod.mk.inj e).2 ▸ ho⟩

/-- At the end of the text a lost scan has stopped inside a name. -/
theorem Lost.odd {rest : List Char} (h : Lost [] rest) : backticks rest % 2 = 1 := by
  rcases h with h | ⟨q, depth, body, -, h⟩
  · exact h
  · rw [enclosedFrom] at h
    contradiction

theorem Traps.append {s : Quotation} {a b : List Char} (ha : Traps s a) (hb : RunsOn b) :
    Traps s (a ++ b) := by
  intro depth r body rest h
  rw [List.append_assoc] at h
  rcases ha depth (b ++ r) body rest h with hodd | ⟨q, depth', body', hq, h'⟩
  · have heven := hb.even
    rw [backticks_append] at hodd
    exact Or.inl (by omega)
  · exact hb.traps q hq depth' r body' rest h'

/-- What precedes a trap as a sealed text does not keep a scan from it. -/
theorem Sealed.traps_append {a b : List Char} (ha : Sealed a) (hb : Traps .outside b) :
    Traps .outside (a ++ b) := by
  intro depth r body rest h
  rw [List.append_assoc, ha.enclosedFrom_append] at h
  obtain ⟨body', h'⟩ := exists_of_map_fst h
  exact hb depth r body' rest h'

namespace RunsOn

theorem nil : RunsOn [] where
  traps q hq depth _ body _ h := Or.inr ⟨q, depth, body, hq, h⟩
  even := rfl

theorem append {a b : List Char} (ha : RunsOn a) (hb : RunsOn b) : RunsOn (a ++ b) where
  traps q hq := (ha.traps q hq).append hb
  even := by
    have hea := ha.even
    have heb := hb.even
    rw [backticks_append]
    omega

theorem intercalate {sep : List Char} (hsep : RunsOn sep) {ps : List (List Char)}
    (hps : ∀ p ∈ ps, RunsOn p) : RunsOn (sep.intercalate ps) := by
  induction ps with
  | nil => exact nil
  | cons p ps ih =>
    have hp := hps p List.mem_cons_self
    have ih := ih fun x hx ↦ hps x (List.mem_cons_of_mem p hx)
    cases ps with
    | nil => rwa [List.intercalate_singleton]
    | cons x ps =>
      rw [List.intercalate_cons_cons]
      exact (hp.append hsep).append ih

theorem flatMap {α : Type} {f : α → List Char} {xs : List α} (h : ∀ x ∈ xs, RunsOn (f x)) :
    RunsOn (xs.flatMap f) := by
  induction xs with
  | nil => exact nil
  | cons x xs ih =>
    rw [List.flatMap_cons]
    exact (h x List.mem_cons_self).append (ih fun y hy ↦ h y (List.mem_cons_of_mem x hy))

/-- Inside a literal, characters that neither quote nor escape are passed over. -/
theorem of_forall {u : List Char} (h : ∀ c ∈ u, isQuote c = false ∧ c ≠ '\\') : RunsOn u := by
  refine ⟨fun q hq ↦ ?_, ?_⟩
  · induction u with
    | nil => exact nil.traps q hq
    | cons c u ih =>
      intro depth r body rest hrun
      obtain ⟨hquote, hslash⟩ := h c List.mem_cons_self
      have hne : c ≠ q := by
        rintro rfl
        rw [hq] at hquote
        contradiction
      rw [List.cons_append, enclosedFrom_of_covers _ _ rfl,
        Quotation.next_inside hslash hne] at hrun
      obtain ⟨body', hrun⟩ := exists_of_map_fst hrun
      exact ih (fun d hd ↦ h d (List.mem_cons_of_mem c hd)) depth r body' rest hrun
  · rw [backticks_eq_zero]
    intro hmem
    exact absurd (h _ hmem).1 (by decide)

theorem of_all {u : List Char} (h : u.all (fun c ↦ !isQuote c && c != '\\') = true) : RunsOn u :=
  of_forall fun c hc ↦ by simpa using List.all_eq_true.1 h c hc

end RunsOn

/-! ## Names -/

/-- Not in a literal that a backtick opened. -/
private def Aside : Quotation → Prop
  | .outside => True
  | .inside q => isQuote q = true ∧ q ≠ '\x60'
  | .escaped q => isQuote q = true ∧ q ≠ '\x60'

private theorem Aside.next {s : Quotation} (h : Aside s) {c : Char} (hc : c ≠ '\x60') :
    Aside (s.next c) := by
  cases s with
  | outside =>
    rw [Quotation.next]
    split
    · exact ⟨‹_›, hc⟩
    · trivial
  | inside q =>
    rw [Quotation.next]
    split
    · exact h
    · split
      · trivial
      · exact h
  | escaped q => exact h

/-- A backtick takes every scan into a literal that was not in one of its own. -/
private theorem Aside.next_backtick {s : Quotation} (h : Aside s) :
    s.covers '\x60' = true ∧ ∃ q, isQuote q = true ∧ s.next '\x60' = .inside q := by
  cases s with
  | outside => exact ⟨by decide, '\x60', by decide, by decide⟩
  | inside q =>
    exact ⟨rfl, q, h.1, Quotation.next_inside (by decide) (Ne.symm h.2)⟩
  | escaped q => exact ⟨rfl, q, h.1, rfl⟩

/-- A name that is met inside out, and the backtick behind it. -/
private theorem traps_aside {n : List Char} (hn : '\x60' ∉ n) {s : Quotation} (hs : Aside s) :
    Traps s (n ++ ['\x60']) := by
  induction n generalizing s with
  | nil =>
    intro depth r body rest h
    obtain ⟨hcovers, q, hq, hnext⟩ := hs.next_backtick
    rw [List.nil_append, List.singleton_append, enclosedFrom_of_covers _ _ hcovers, hnext] at h
    obtain ⟨body', h⟩ := exists_of_map_fst h
    exact Or.inr ⟨q, depth, body', hq, h⟩
  | cons c n ih =>
    obtain ⟨hc, hn⟩ : '\x60' ≠ c ∧ '\x60' ∉ n := by simpa using hn
    -- Whatever the scan does with `c`, it goes on with the rest of the name.
    have hgo {s' : Quotation} (hs' : Aside s') {depth : Nat} {r body rest : List Char}
        (h : (enclosedFrom s' depth (n ++ ['\x60'] ++ r)).map (fun p ↦ (c :: p.1, p.2))
          = some (body, rest)) : Lost r rest := by
      obtain ⟨body', h⟩ := exists_of_map_fst h
      exact ih hn hs' depth r body' rest h
    intro depth r body rest h
    rw [List.cons_append, List.cons_append, enclosedFrom.eq_def] at h
    dsimp only at h
    split at h
    · exact hgo (hs.next (Ne.symm hc)) h
    · split at h
      · split at h
        · -- The scan stops here, before the backtick that closes the name.
          obtain rfl := (Prod.mk.inj (Option.some.inj h)).2
          left
          rw [backticks_append, backticks_append, backticks_eq_zero hn, backticks_cons_self]
          have hnil : backticks [] = 0 := rfl
          omega
        · exact hgo (show Aside .outside from trivial) h
      · exact hgo (show Aside .outside from trivial) h

/-- A written name does not bring a lost scan back. -/
theorem runsOn_quote {n : String} (hn : '\x60' ∉ n.toList) : RunsOn (quote n).toList := by
  cases hp : isPlain n with
  | true =>
    rw [quote_of_isPlain hp]
    refine RunsOn.of_forall fun c hc ↦ ⟨?_, ?_⟩
    · have := isInert_of_isPlain hp hc
      simp only [isInert, Bool.and_eq_true, Bool.not_eq_true'] at this
      exact this.1.1.1.1.1
    · rintro rfl
      exact ne_of_isPlain hp (by decide) (by decide) hc
  | false =>
    rw [toList_quote_of_not_isPlain hp, escape_eq_self hn]
    refine ⟨fun q hq depth r body rest h ↦ ?_, ?_⟩
    · rw [List.cons_append, enclosedFrom_of_covers _ _ rfl] at h
      obtain ⟨body', h⟩ := exists_of_map_fst h
      refine traps_aside hn ?_ depth r body' rest h
      rw [Quotation.next, if_neg (by decide)]
      split
      · trivial
      · exact ⟨hq, Ne.symm ‹_›⟩
    · rw [backticks_cons_self, backticks_append, backticks_eq_zero hn]
      rfl

/-- A written name that is not balanced is a trap. -/
theorem traps_quote {n : String} (hn : '\x60' ∉ n.toList) (hbalanced : ¬Balanced n) :
    Traps .outside (quote n).toList := by
  have hp : isPlain n = false := by
    by_contra hp
    have hp : isPlain n = true := by simpa using hp
    exact hbalanced ⟨hn, Quotation.after_inside hn (ne_of_isPlain hp (by decide) (by decide))⟩
  -- The name ends behind a backslash that takes the closing backtick.
  have hafter : (Quotation.inside '\x60').after n.toList = .escaped '\x60' :=
    (Quotation.Within.after (Or.inl rfl) hn).resolve_left fun h ↦ hbalanced ⟨hn, h⟩
  intro depth r body rest h
  rw [toList_quote_of_not_isPlain hp, escape_eq_self hn, List.cons_append, List.append_assoc,
    List.singleton_append, enclosedFrom_of_covers _ _ (by decide)] at h
  have hopen : Quotation.next .outside '\x60' = .inside '\x60' := by decide
  rw [hopen, enclosedFrom_within (Or.inl rfl) hn, hafter, enclosedFrom_of_covers _ _ rfl] at h
  obtain ⟨_, h⟩ := exists_of_map_fst h
  obtain ⟨_, h⟩ := exists_of_map_fst h
  obtain ⟨body', h⟩ := exists_of_map_fst h
  exact Or.inr ⟨'\x60', depth, body', by decide, h⟩

end SchemaLedger.Text
