import Mathlib
import SchemaLedger.Proofs.Text.Splitting

/-!
# Backticks come in pairs

A written name has no backtick or two, and so has everything that a scanner of names takes for one.
When a text is cut inside a name, an odd number of backticks is left on either side, and no sequence
of names uses those up. This is how it comes out that a closing parenthesis inside a name is never
taken for the end of a list without the statement being refused.

`Pairs n s` says that the scanner `s` reads backticks in pairs, and not more than `n` of them;
`Spares d s` says that it reads none of the character `d`, whatever that is.
-/

namespace SchemaLedger.Text

/-- The number of backticks. -/
def backticks (cs : List Char) : Nat := cs.count '\x60'

theorem backticks_append (a b : List Char) : backticks (a ++ b) = backticks a + backticks b :=
  List.count_append

theorem backticks_cons_self (cs : List Char) : backticks ('\x60' :: cs) = backticks cs + 1 :=
  List.count_cons_self

theorem backticks_cons_of_ne {c : Char} (hc : c ≠ '\x60') (cs : List Char) :
    backticks (c :: cs) = backticks cs :=
  List.count_cons_of_ne hc

/-! ## Taking texts apart -/

theorem backticks_eq_zero {cs : List Char} (h : '\x60' ∉ cs) : backticks cs = 0 :=
  List.count_eq_zero.2 h

theorem backticks_strip (cs : List Char) : backticks (strip cs) = backticks cs :=
  count_strip (by decide) cs

/-- Only commas are lost between the members of a list. -/
theorem sum_backticks_splitCommas (cs : List Char) :
    ((splitCommas cs).map backticks).sum = backticks cs := by
  have hcount := count_intercalate '\x60' (by decide : '\x60' ∉ [',']) (splitCommas cs)
  rw [intercalate_splitCommas] at hcount
  exact hcount.symm

namespace Scanner

variable {α β : Type}

/-! ## Scanners that leave a character alone -/

/-- Reads no `d`. -/
def Spares (d : Char) (s : Scanner α) : Prop :=
  ∀ cs a r, s.run cs = some (a, r) → cs.count d = r.count d

namespace Spares

variable {d : Char}

theorem pure (a : α) : Spares d (Pure.pure a : Scanner α) := by
  intro cs b r e
  obtain ⟨-, rfl⟩ := Prod.mk.inj (Option.some.inj e)
  rfl

theorem failure : Spares d (failure : Scanner α) := by
  intro cs a r e
  contradiction

theorem bind {s : Scanner α} {f : α → Scanner β} (hs : Spares d s) (hf : ∀ a, Spares d (f a)) :
    Spares d (s >>= f) := by
  intro cs b r e
  obtain ⟨a, t, hst, hft⟩ := exists_of_run_bind e
  exact (hs cs a t hst).trans (hf a t b r hft)

theorem attempt {s : Scanner α} (h : Spares d s) : Spares d (attempt s) := by
  intro cs b r e
  cases hs : s.run cs with
  | none =>
    rw [run_attempt_of_none hs] at e
    obtain ⟨-, rfl⟩ := Prod.mk.inj (Option.some.inj e)
    rfl
  | some p =>
    rw [run_attempt_of_run (show s.run cs = some (p.1, p.2) from hs)] at e
    obtain ⟨-, rfl⟩ := Prod.mk.inj (Option.some.inj e)
    exact h cs p.1 p.2 hs

theorem blanks (hd : isBlank d = false) : Spares d blanks := by
  intro cs a r e
  obtain ⟨-, rfl⟩ := Prod.mk.inj (Option.some.inj e)
  exact (count_stripLeft hd cs).symm

theorem gap (hd : isBlank d = false) : Spares d gap := by
  intro cs a r e
  cases cs with
  | nil => contradiction
  | cons c cs =>
    change (if isBlank c then some ((), stripLeft cs) else none) = _ at e
    split at e
    · rename_i hc
      have hne : c ≠ d := by
        rintro rfl
        rw [hd] at hc
        contradiction
      obtain ⟨-, rfl⟩ := Prod.mk.inj (Option.some.inj e)
      rw [count_stripLeft hd, List.count_cons_of_ne hne]
    · contradiction

theorem chars {p : Char → Bool} (hd : p d = false) : Spares d (chars p) := by
  intro cs a r e
  cases cs with
  | nil => contradiction
  | cons c cs =>
    change (if p c then some (c :: cs.takeWhile p, cs.dropWhile p) else none) = _ at e
    split at e
    · rename_i hc
      have hne : c ≠ d := by
        rintro rfl
        rw [hd] at hc
        contradiction
      obtain ⟨-, rfl⟩ := Prod.mk.inj (Option.some.inj e)
      rw [count_dropWhile hd, List.count_cons_of_ne hne]
    · contradiction

theorem finished : Spares d finished := by
  intro cs a r e
  cases cs with
  | nil =>
    obtain ⟨-, rfl⟩ := Prod.mk.inj (Option.some.inj e)
    rfl
  | cons c cs => contradiction

end Spares

/-! ## Scanners that read backticks in pairs -/

/-- Reads backticks in pairs, and at most `n` of them. -/
def Pairs (n : Nat) (s : Scanner α) : Prop :=
  ∀ cs a r, s.run cs = some (a, r) → ∃ k ≤ n, backticks cs = backticks r + 2 * k

theorem Pairs.of_spares {s : Scanner α} (h : Spares '\x60' s) : Pairs 0 s :=
  fun cs a r e ↦ ⟨0, Nat.le_refl 0, h cs a r e⟩

theorem Pairs.backticks_eq {s : Scanner α} (h : Pairs 0 s) {cs r : List Char} {a : α}
    (e : s.run cs = some (a, r)) : backticks cs = backticks r := by
  obtain ⟨k, hk, hcs⟩ := h cs a r e
  omega

theorem Pairs.mono {m n : Nat} {s : Scanner α} (h : Pairs m s) (hmn : m ≤ n) : Pairs n s := by
  intro cs a r e
  obtain ⟨k, hk, hcs⟩ := h cs a r e
  exact ⟨k, Nat.le_trans hk hmn, hcs⟩

theorem Pairs.bind {m n : Nat} {s : Scanner α} {f : α → Scanner β} (hs : Pairs m s)
    (hf : ∀ a, Pairs n (f a)) : Pairs (m + n) (s >>= f) := by
  intro cs b r e
  obtain ⟨a, t, hst, hft⟩ := exists_of_run_bind e
  obtain ⟨k, hk, hcs⟩ := hs cs a t hst
  obtain ⟨l, hl, ht⟩ := hf a t b r hft
  exact ⟨k + l, Nat.add_le_add hk hl, by omega⟩

/-- What comes first has no backticks. -/
theorem Pairs.after {n : Nat} {s : Scanner α} {f : α → Scanner β} (hs : Pairs 0 s)
    (hf : ∀ a, Pairs n (f a)) : Pairs n (s >>= f) :=
  (hs.bind hf).mono (Nat.le_of_eq (Nat.zero_add n))

/-- What comes last has no backticks. -/
theorem Pairs.before {n : Nat} {s : Scanner α} {f : α → Scanner β} (hs : Pairs n s)
    (hf : ∀ a, Pairs 0 (f a)) : Pairs n (s >>= f) :=
  hs.bind hf

theorem Pairs.orElse {n : Nat} {s t : Scanner α} (hs : Pairs n s) (ht : Pairs n t) :
    Pairs n (s <|> t) := by
  intro cs a r e
  cases h : s.run cs with
  | none => exact ht cs a r ((run_orElse_of_none h).symm.trans e)
  | some p => exact hs cs a r (h.trans ((run_orElse_of_run h).symm.trans e))

theorem Pairs.pure (a : α) : Pairs 0 (Pure.pure a : Scanner α) := .of_spares (.pure a)

theorem Pairs.failure {n : Nat} : Pairs n (failure : Scanner α) := by
  intro cs a r e
  contradiction

theorem Pairs.map {n : Nat} {s : Scanner α} (f : α → β) (h : Pairs n s) : Pairs n (f <$> s) := by
  intro cs b r e
  cases hs : s.run cs with
  | none =>
    rw [run_map_of_none hs] at e
    contradiction
  | some p =>
    obtain ⟨a, m⟩ := p
    rw [run_map_of_run hs] at e
    obtain ⟨-, rfl⟩ := Prod.mk.inj (Option.some.inj e)
    exact h cs a m hs

theorem Pairs.attempt {n : Nat} {s : Scanner α} (h : Pairs n s) : Pairs n (attempt s) :=
  (h.map some).orElse ((Pairs.pure none).mono (Nat.zero_le n))

theorem Pairs.blanks : Pairs 0 blanks := .of_spares (.blanks (by decide))

theorem Pairs.gap : Pairs 0 gap := .of_spares (.gap (by decide))

theorem Pairs.keyword {w : String} (hw : w.toList.all (· != '\x60') = true) :
    Pairs 0 (keyword w) := by
  refine .of_spares fun cs a r e ↦ ?_
  rw [run_keyword, Option.map_eq_some_iff] at e
  obtain ⟨m, hm, e⟩ := e
  obtain ⟨-, rfl⟩ := Prod.mk.inj e
  obtain ⟨u, rfl, hu⟩ := exists_of_dropFolded hm
  have hnone : '\x60' ∉ u := by
    intro h
    have := List.all_eq_true.1 hw (fold '\x60') (hu ▸ List.mem_map_of_mem h)
    contradiction
  rw [List.count_append, List.count_eq_zero.2 hnone, Nat.zero_add]

theorem Pairs.phrase {ws : List String}
    (hws : (ws.all fun w ↦ w.toList.all (· != '\x60')) = true) : Pairs 0 (phrase ws) := by
  induction ws with
  | nil => exact Pairs.pure ()
  | cons w ws ih =>
    rw [List.all_cons, Bool.and_eq_true] at hws
    cases ws with
    | nil => exact Pairs.keyword hws.1
    | cons w' ws =>
      rw [Scanner.phrase]
      · exact (Pairs.keyword hws.1).after fun _ ↦ Pairs.gap.after fun _ ↦ ih hws.2
      · exact List.cons_ne_nil _ _

theorem Pairs.symbol {c : Char} (hc : c ≠ '\x60') : Pairs 0 (symbol c) := by
  refine .of_spares fun cs a r e ↦ ?_
  cases cs with
  | nil => contradiction
  | cons d cs =>
    change (if d = c then some ((), cs) else none) = _ at e
    split at e
    · rename_i hd
      obtain ⟨-, rfl⟩ := Prod.mk.inj (Option.some.inj e)
      rw [hd, List.count_cons_of_ne hc]
    · contradiction

theorem Pairs.chars {p : Char → Bool} (hp : p '\x60' = false) : Pairs 0 (chars p) :=
  .of_spares (.chars hp)

theorem Pairs.finished : Pairs 0 finished := .of_spares .finished

/-- A text between backticks has one at either end and none inside. -/
theorem Pairs.quotedName : Pairs 1 quotedName := by
  intro cs a r e
  obtain ⟨_, m, hopen, hrest⟩ := exists_of_run_bind e
  obtain ⟨u, t, hclose, hlast⟩ := exists_of_run_bind hrest
  obtain ⟨hu, hm⟩ := exists_of_run_upTo hclose
  have hr : t = r := by
    split at hlast
    · contradiction
    · exact (Prod.mk.inj (Option.some.inj hlast)).2
  have hcs : cs = '\x60' :: m := by
    cases cs with
    | nil => contradiction
    | cons c cs =>
      change (if c = '\x60' then some ((), cs) else none) = _ at hopen
      split at hopen
      · rename_i hc
        rw [hc, (Prod.mk.inj (Option.some.inj hopen)).2]
      · contradiction
  refine ⟨1, Nat.le_refl 1, ?_⟩
  rw [hcs, hm, hr, backticks_cons_self, backticks_append, backticks_cons_self,
    backticks_eq_zero hu, Nat.zero_add]

theorem Pairs.bareName : Pairs 0 bareName := by
  refine .of_spares fun cs a r e ↦ ?_
  cases cs with
  | nil => contradiction
  | cons c cs =>
    change (if isNameStart c then (Scanner.chars isNameChar).run (c :: cs) else none) = _ at e
    split at e
    · exact (Pairs.chars (by decide)).backticks_eq e
    · contradiction

theorem Pairs.name : Pairs 1 name :=
  (Pairs.quotedName.orElse (Pairs.bareName.mono (Nat.zero_le 1))).map _

end Scanner

/-! ## Parentheses inside names -/

/-- Every closing parenthesis stands between backticks. -/
def Guarded (cs : List Char) : Prop := ∀ u v, cs = u ++ ')' :: v → backticks u % 2 = 1

theorem Guarded.of_notMem {cs : List Char} (h : ')' ∉ cs) : Guarded cs := by
  rintro u v rfl
  exact absurd (List.mem_append_right u List.mem_cons_self) h

theorem Guarded.append {a b : List Char} (ha : Guarded a) (heven : backticks a % 2 = 0)
    (hb : Guarded b) : Guarded (a ++ b) := by
  intro u v h
  rcases List.append_eq_append_iff.1 h with ⟨w, rfl, hw⟩ | ⟨w, rfl, hw⟩
  · have := hb w v hw
    rw [backticks_append]
    omega
  · cases w with
    | nil =>
      have := hb [] v (by simpa using hw.symm)
      contradiction
    | cons c w =>
      obtain ⟨rfl, -⟩ := List.cons.inj hw
      exact ha u w rfl

theorem Guarded.intercalate {sep : List Char} (hsep : ')' ∉ sep) (hsep' : '\x60' ∉ sep)
    {ps : List (List Char)} (h : ∀ p ∈ ps, Guarded p ∧ backticks p % 2 = 0) :
    Guarded (sep.intercalate ps) ∧ backticks (sep.intercalate ps) % 2 = 0 := by
  induction ps with
  | nil =>
    rw [List.intercalate_nil]
    exact ⟨.of_notMem List.not_mem_nil, rfl⟩
  | cons p ps ih =>
    obtain ⟨hp, heven⟩ := h p List.mem_cons_self
    obtain ⟨ih, iheven⟩ := ih fun x hx ↦ h x (List.mem_cons_of_mem p hx)
    have hsepeven : backticks sep = 0 := backticks_eq_zero hsep'
    cases ps with
    | nil =>
      rw [List.intercalate_singleton]
      exact ⟨hp, heven⟩
    | cons x ps =>
      have hpsep : backticks (p ++ sep) % 2 = 0 := by
        rw [backticks_append]
        omega
      rw [List.intercalate_cons_cons]
      constructor
      · exact (hp.append heven (.of_notMem hsep)).append hpsep ih
      · rw [backticks_append]
        omega

/-- A guarded text is read up to its end, or else cut between two backticks. -/
theorem Guarded.of_run_upTo {cs r u m : List Char} (h : Guarded cs)
    (hrun : (Scanner.upTo ')').run (cs ++ ')' :: r) = some (u, m)) :
    (')' ∉ cs ∧ u = cs ∧ m = r) ∨ backticks u % 2 = 1 := by
  by_cases hmem : ')' ∈ cs
  · right
    obtain ⟨a, b, rfl, ha⟩ := List.eq_append_cons_of_mem hmem
    rw [List.append_assoc, List.cons_append, Scanner.run_upTo ha] at hrun
    obtain ⟨rfl, -⟩ := Prod.mk.inj (Option.some.inj hrun)
    exact h a b rfl
  · left
    rw [Scanner.run_upTo hmem] at hrun
    obtain ⟨rfl, rfl⟩ := Prod.mk.inj (Option.some.inj hrun)
    exact ⟨hmem, rfl, rfl⟩

end SchemaLedger.Text
