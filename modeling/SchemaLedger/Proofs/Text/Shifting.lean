import Mathlib
import SchemaLedger.Proofs.Text.Splitting

/-!
# Scanners and brackets

What a scanner takes off the front of a text is itself a text through which the scans for the
closing parenthesis and for the outer commas pass. They come out at the depth at which they went in,
or deeper or less deep by the parentheses that the scanner has opened and closed. A `Shifting`
scanner says by how much; scanners in sequence shift one after another, and one that closes what it
opens takes off sealed texts.
-/

namespace SchemaLedger.Text

/-! ## Characters -/

theorem isInert_of_ne {c : Char} (h : ∀ d ∈ "'\"\x60,()<>".toList, c ≠ d) : isInert c = true := by
  simp only [isInert, isQuote, Bool.and_eq_true, bne_iff_ne, Bool.not_eq_true',
    Bool.or_eq_false_iff, decide_eq_false_iff_not]
  refine ⟨⟨⟨⟨⟨⟨⟨?_, ?_⟩, ?_⟩, ?_⟩, ?_⟩, ?_⟩, ?_⟩, ?_⟩ <;> exact h _ (by decide)

theorem isInert_of_isBlank {c : Char} (h : isBlank c = true) : isInert c = true := by
  refine isInert_of_ne fun d hd e ↦ ?_
  have hall : ("'\"\x60,()<>".toList.all (!isBlank ·)) = true := by decide
  rw [← e] at hd
  simpa [h] using List.all_eq_true.1 hall c hd

theorem isInert_of_isNameChar {c : Char} (h : isNameChar c = true) : isInert c = true := by
  refine isInert_of_ne fun d hd e ↦ ?_
  have hall : ("'\"\x60,()<>".toList.all (!isNameChar ·)) = true := by decide
  rw [← e] at hd
  simpa [h] using List.all_eq_true.1 hall c hd

theorem exists_stripLeft (cs : List Char) :
    ∃ p, cs = p ++ stripLeft cs ∧ ∀ c ∈ p, isBlank c = true :=
  ⟨cs.takeWhile isBlank, List.takeWhile_append_dropWhile.symm, fun _ h ↦ List.mem_takeWhile_imp h⟩

/-! ## Scanners -/

namespace Scanner

variable {α β : Type} {i j k : Nat}

/-- Takes off texts through which the scans pass from depth `i` to depth `j`. -/
def Shifting (i j : Nat) (s : Scanner α) : Prop :=
  ∀ cs a r, s.run cs = some (a, r) → ∃ p, cs = p ++ r ∧ Shifts i j p

namespace Shifting

theorem pure (a : α) : Shifting i i (Pure.pure a) := by
  intro cs b r e
  obtain ⟨-, rfl⟩ := Prod.mk.inj (Option.some.inj e)
  exact ⟨[], rfl, Sealed.nil.shifts i⟩

theorem bind {s : Scanner α} {f : α → Scanner β} (hs : Shifting i j s)
    (hf : ∀ a, Shifting j k (f a)) :
    Shifting i k (s >>= f) := by
  intro cs b r e
  obtain ⟨a, m, hrun, hrest⟩ := exists_of_run_bind e
  obtain ⟨p, rfl, hp⟩ := hs cs a m hrun
  obtain ⟨q, rfl, hq⟩ := hf a m b r hrest
  exact ⟨p ++ q, (List.append_assoc p q r).symm, hp.append hq⟩

theorem orElse {s t : Scanner α} (hs : Shifting i j s) (ht : Shifting i j t) :
    Shifting i j (s <|> t) := by
  intro cs a r e
  cases h : s.run cs with
  | none => exact ht cs a r ((run_orElse_of_none h).symm.trans e)
  | some x => exact hs cs a r (h.trans ((run_orElse_of_run h).symm.trans e))

theorem map {s : Scanner α} (f : α → β) (h : Shifting i j s) : Shifting i j (f <$> s) := by
  intro cs b r e
  cases hs : s.run cs with
  | none =>
    rw [run_map_of_none hs] at e
    contradiction
  | some p =>
    obtain ⟨a, m⟩ := p
    rw [run_map_of_run hs] at e
    obtain ⟨-, rfl⟩ := Prod.mk.inj (Option.some.inj e)
    exact h cs a m hs

theorem deeper {s : Scanner α} (h : Shifting i j s) (k : Nat) : Shifting (k + i) (k + j) s := by
  intro cs a r e
  obtain ⟨p, hp, hshifts⟩ := h cs a r e
  exact ⟨p, hp, hshifts.deeper k⟩

theorem blanks : Shifting i i blanks := by
  intro cs a r e
  obtain ⟨-, rfl⟩ := Prod.mk.inj (Option.some.inj e)
  obtain ⟨p, hp, hblank⟩ := exists_stripLeft cs
  exact ⟨p, hp, (Sealed.of_forall fun c hc ↦ isInert_of_isBlank (hblank c hc)).shifts i⟩

theorem gap : Shifting i i gap := by
  intro cs a r e
  cases cs with
  | nil => contradiction
  | cons c cs =>
    change (if isBlank c then some ((), stripLeft cs) else none) = _ at e
    split at e
    · rename_i hc
      have hrun : Scanner.blanks.run (c :: cs) = some (a, r) := by
        rw [← e, run_blanks, stripLeft, List.dropWhile_cons_of_pos hc]
        rfl
      exact blanks (c :: cs) a r hrun
    · contradiction

theorem keyword {w : String} (hw : w.toList.all isNameChar = true) : Shifting i i (keyword w) := by
  intro cs a r e
  rw [run_keyword, Option.map_eq_some_iff] at e
  obtain ⟨m, hm, e⟩ := e
  obtain ⟨-, rfl⟩ := Prod.mk.inj e
  obtain ⟨u, rfl, hu⟩ := exists_of_dropFolded hm
  have hname : ∀ c ∈ u, isNameChar c = true := fun c hc ↦
    isNameChar_of_fold (List.all_eq_true.1 hw _ (hu ▸ List.mem_map_of_mem hc))
  exact ⟨u, rfl, (Sealed.of_forall fun c hc ↦ isInert_of_isNameChar (hname c hc)).shifts i⟩

theorem phrase {ws : List String} (hws : (ws.all fun w ↦ w.toList.all isNameChar) = true) :
    Shifting i i (phrase ws) := by
  induction ws with
  | nil => exact pure ()
  | cons w ws ih =>
    rw [List.all_cons, Bool.and_eq_true] at hws
    cases ws with
    | nil => exact keyword hws.1
    | cons w' ws =>
      rw [Scanner.phrase]
      · exact (keyword hws.1).bind fun _ ↦ gap.bind fun _ ↦ ih hws.2
      · exact List.cons_ne_nil _ _

theorem symbol {c : Char} (hc : Shifts i j [c]) : Shifting i j (symbol c) := by
  intro cs a r e
  cases cs with
  | nil => contradiction
  | cons d cs =>
    change (if d = c then some ((), cs) else none) = _ at e
    split at e
    · rename_i hd
      obtain ⟨-, rfl⟩ := Prod.mk.inj (Option.some.inj e)
      exact ⟨[c], by rw [hd]; rfl, hc⟩
    · contradiction

theorem chars {p : Char → Bool} (hp : ∀ c, p c = true → isInert c = true) :
    Shifting i i (chars p) := by
  intro cs a r e
  cases cs with
  | nil => contradiction
  | cons c cs =>
    change (if p c then some (c :: cs.takeWhile p, cs.dropWhile p) else none) = _ at e
    split at e
    · rename_i hc
      obtain ⟨-, rfl⟩ := Prod.mk.inj (Option.some.inj e)
      refine ⟨c :: cs.takeWhile p, ?_, (Sealed.of_forall fun d hd ↦ hp d ?_).shifts i⟩
      · rw [List.cons_append, List.takeWhile_append_dropWhile]
      · rcases List.mem_cons.1 hd with rfl | hd
        · exact hc
        · exact List.mem_takeWhile_imp hd
    · contradiction

theorem wordEnd : Shifting i i wordEnd := by
  intro cs a r e
  change (if cs.head?.any isWordChar then none else some ((), cs)) = _ at e
  split at e
  · contradiction
  · obtain ⟨-, rfl⟩ := Prod.mk.inj (Option.some.inj e)
    exact ⟨[], rfl, Sealed.nil.shifts i⟩

end Shifting

end Scanner

end SchemaLedger.Text
