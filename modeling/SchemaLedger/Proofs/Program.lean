import Mathlib

/-!
# Programs over a state

A program ends in a state whether it succeeds or fails. What is shown of one is what it keeps in any
case, what it has done when it succeeds, or that it does what another program does.
-/

namespace SchemaLedger

variable {ε σ α β : Type}

/-- The state in which a program ends. -/
def ending (m : EStateM ε σ α) (s : σ) : σ :=
  match m s with
  | .ok _ t => t
  | .error _ t => t

theorem ending_of_ok {m : EStateM ε σ α} {s t : σ} {a : α} (h : m s = .ok a t) :
    ending m s = t := by
  rw [ending, h]

theorem ending_of_error {m : EStateM ε σ α} {s t : σ} {e : ε} (h : m s = .error e t) :
    ending m s = t := by
  rw [ending, h]

/-- A program whose value is known has succeeded. -/
theorem eq_ok_of_run' {m : EStateM ε σ α} {s : σ} {a : α} (h : m.run' s = some a) :
    m s = .ok a (ending m s) := by
  rw [EStateM.run', EStateM.run] at h
  rw [ending]
  generalize m s = x at h ⊢
  cases x with
  | ok b t => exact congrArg (EStateM.Result.ok · t) (Option.some.inj h)
  | error e t => contradiction

/-- What can be seen of a program that succeeds. -/
def seen (f : α → σ → β) (m : EStateM ε σ α) (s : σ) : Option β :=
  match m s with
  | .ok a t => some (f a t)
  | .error _ _ => none

theorem exists_of_seen {f : α → σ → β} {m : EStateM ε σ α} {s : σ} {b : β}
    (h : seen f m s = some b) :
    ∃ a t, m s = .ok a t ∧ f a t = b := by
  rw [seen] at h
  split at h
  · rename_i a t hm
    exact ⟨a, t, hm, Option.some.inj h⟩
  · contradiction

theorem isSome_seen {f : α → σ → β} {m : EStateM ε σ α} {s : σ} :
    (seen f m s).isSome = true ↔ ∃ a t, m s = .ok a t := by
  rw [seen]
  cases m s <;> simp

/-- Whether a program succeeds can be seen by running it. -/
instance decidableExistsOk (m : EStateM ε σ α) (s : σ) : Decidable (∃ a t, m s = .ok a t) :=
  decidable_of_iff _ (isSome_seen (f := fun _ _ ↦ ()))

theorem ending_congr {m n : EStateM ε σ α} {s t : σ} (h : m s = n t) : ending m s = ending n t := by
  rw [ending, ending, h]

theorem seen_congr {m n : EStateM ε σ α} {s t : σ} (h : m s = n t) (f : α → σ → β) :
    seen f m s = seen f n t := by
  rw [seen, seen, h]

section Bind

variable {m : EStateM ε σ α} {f : α → EStateM ε σ β} {s t : σ}

theorem run_bind_of_ok {a : α} (h : m s = .ok a t) : (m >>= f) s = f a t := by
  change EStateM.bind m f s = _
  rw [EStateM.bind, h]

theorem run_bind_of_error {e : ε} (h : m s = .error e t) : (m >>= f) s = .error e t := by
  change EStateM.bind m f s = _
  rw [EStateM.bind, h]

/-- A program succeeds if both of its parts do. -/
theorem exists_of_run_bind_ok {u : σ} {b : β} (h : (m >>= f) s = .ok b u) :
    ∃ a t, m s = .ok a t ∧ f a t = .ok b u := by
  cases hm : m s with
  | ok a t => exact ⟨a, t, rfl, (run_bind_of_ok hm).symm.trans h⟩
  | error e t =>
    rw [run_bind_of_error hm] at h
    contradiction

/-- A program fails if one of its parts does. -/
theorem exists_of_run_bind_error {u : σ} {e : ε} (h : (m >>= f) s = .error e u) :
    m s = .error e u ∨ ∃ a t, m s = .ok a t ∧ f a t = .error e u := by
  cases hm : m s with
  | ok a t => exact .inr ⟨a, t, rfl, (run_bind_of_ok hm).symm.trans h⟩
  | error e' t =>
    rw [run_bind_of_error hm] at h
    obtain ⟨rfl, rfl⟩ := EStateM.Result.error.inj h
    exact .inl rfl

/-- Going through a list successfully is a fold of what each of its members does. -/
theorem of_forM_ok {xs : List α} {f : α → EStateM ε σ PUnit} {p : β → σ → Prop} {step : β → α → β}
    (h : ∀ x ∈ xs, ∀ b s t, p b s → f x s = .ok ⟨⟩ t → p (step b x) t) {b : β} {s t : σ}
    (hs : p b s) (hok : xs.forM f s = .ok ⟨⟩ t) : p (xs.foldl step b) t := by
  induction xs generalizing b s with
  | nil =>
    obtain ⟨-, rfl⟩ := EStateM.Result.ok.inj hok
    exact hs
  | cons x xs ih =>
    obtain ⟨u, m, hx, hxs⟩ := exists_of_run_bind_ok hok
    exact ih (fun y hy ↦ h y (List.mem_cons_of_mem x hy)) (h x List.mem_cons_self b s m hs hx) hxs

theorem run_bind_congr {n : EStateM ε σ α} (h : m s = n s) : (m >>= f) s = (n >>= f) s := by
  change EStateM.bind m f s = EStateM.bind n f s
  rw [EStateM.bind, EStateM.bind, h]

theorem ending_bind_of_ok {a : α} (h : m s = .ok a t) : ending (m >>= f) s = ending (f a) t := by
  rw [ending, run_bind_of_ok h, ending]

theorem ending_bind_of_error {e : ε} (h : m s = .error e t) : ending (m >>= f) s = t :=
  ending_of_error (run_bind_of_error h)

/-- What holds after a first part holds after all if it does wherever that part succeeds. -/
theorem ending_bind {p : σ → Prop} (hm : p (ending m s))
    (hf : ∀ a t, m s = .ok a t → p t → p (ending (f a) t)) : p (ending (m >>= f) s) := by
  cases h : m s with
  | ok a t =>
    rw [ending_bind_of_ok h]
    exact hf a t h (ending_of_ok h ▸ hm)
  | error e t =>
    rw [ending_bind_of_error h]
    exact ending_of_error h ▸ hm

end Bind

/-! ## Lists -/

theorem forM_map {xs : List α} {f : α → β} {g : β → EStateM ε σ PUnit} :
    (xs.map f).forM g = xs.forM fun x ↦ g (f x) := by
  induction xs with
  | nil => rfl
  | cons x xs ih =>
    change (g (f x) >>= fun _ ↦ (xs.map f).forM g) = (g (f x) >>= fun _ ↦ xs.forM fun x ↦ g (f x))
    rw [ih]

theorem forM_congr {xs : List α} {f g : α → EStateM ε σ PUnit} (h : ∀ x ∈ xs, f x = g x) :
    xs.forM f = xs.forM g := by
  induction xs with
  | nil => rfl
  | cons x xs ih =>
    change (f x >>= fun _ ↦ xs.forM f) = (g x >>= fun _ ↦ xs.forM g)
    rw [h x List.mem_cons_self, ih fun y hy ↦ h y (List.mem_cons_of_mem x hy)]

/-! ## What a program keeps -/

/-- From a state with a property the program comes to one with it, whatever comes of it. -/
def Keeps (p : σ → Prop) (m : EStateM ε σ α) : Prop := ∀ s, p s → p (ending m s)

namespace Keeps

variable {p : σ → Prop}

theorem pure (a : α) : Keeps p (Pure.pure a : EStateM ε σ α) := fun _ h ↦ h

theorem throw (e : ε) : Keeps p (MonadExcept.throw e : EStateM ε σ α) := fun _ h ↦ h

theorem modify {f : σ → σ} (h : ∀ s, p s → p (f s)) :
    Keeps p (MonadState.modifyGet (fun s ↦ (⟨⟩, f s)) : EStateM ε σ Unit) := h

/-- What holds after a first part holds after all if the rest keeps it. -/
theorem ending_bind {m : EStateM ε σ α} {f : α → EStateM ε σ β} {s : σ} (hm : p (ending m s))
    (hf : ∀ a, Keeps p (f a)) : p (ending (m >>= f) s) :=
  SchemaLedger.ending_bind hm fun a t _ ↦ hf a t

theorem bind {m : EStateM ε σ α} {f : α → EStateM ε σ β} (hm : Keeps p m)
    (hf : ∀ a, Keeps p (f a)) :
    Keeps p (m >>= f) := fun s hs ↦ ending_bind (hm s hs) hf

/-- What is done with the state may depend on it. -/
theorem get_bind {f : σ → EStateM ε σ α} (hf : ∀ s, Keeps p (f s)) : Keeps p (get >>= f) :=
  fun s hs ↦ hf s s hs

theorem forM {xs : List α} {f : α → EStateM ε σ PUnit} (h : ∀ x ∈ xs, Keeps p (f x)) :
    Keeps p (xs.forM f) := by
  induction xs with
  | nil => exact .pure _
  | cons x xs ih =>
    exact .bind (h x List.mem_cons_self) fun _ ↦ ih fun y hy ↦ h y (List.mem_cons_of_mem x hy)

/-- Two properties that are kept are kept together. -/
theorem and {q : σ → Prop} {m : EStateM ε σ α} (hp : Keeps p m) (hq : Keeps q m) :
    Keeps (fun s ↦ p s ∧ q s) m :=
  fun s hs ↦ ⟨hp s hs.1, hq s hs.2⟩

theorem ite {c : Prop} [Decidable c] {m n : EStateM ε σ α} (hm : c → Keeps p m)
    (hn : ¬c → Keeps p n) :
    Keeps p (if c then m else n) := by
  split
  · exact hm ‹_›
  · exact hn ‹_›

end Keeps

/-! ## Programs that do the same -/

/-- From a state with a property two programs do the same, and come to a state with it. -/
def Agree (p : σ → Prop) (m n : EStateM ε σ α) : Prop := ∀ s, p s → m s = n s ∧ p (ending m s)

namespace Agree

variable {p : σ → Prop} {m n : EStateM ε σ α} {s : σ}

theorem of_eq (h : ∀ s, p s → m s = n s) (hkeeps : Keeps p m) : Agree p m n :=
  fun s hs ↦ ⟨h s hs, hkeeps s hs⟩

theorem refl (h : Keeps p m) : Agree p m m := of_eq (fun _ _ ↦ rfl) h

theorem ending_eq (h : Agree p m n) (hs : p s) : ending m s = ending n s := ending_congr (h s hs).1

theorem seen_eq (h : Agree p m n) (hs : p s) (f : α → σ → β) : seen f m s = seen f n s :=
  seen_congr (h s hs).1 f

theorem bind {f g : α → EStateM ε σ β} (h : Agree p m n) (hf : ∀ a, Agree p (f a) (g a)) :
    Agree p (m >>= f) (n >>= g) := by
  intro s hs
  obtain ⟨heq, hp⟩ := h s hs
  cases hm : m s with
  | ok a t =>
    obtain ⟨hsame, hq⟩ := hf a t (ending_of_ok hm ▸ hp)
    rw [ending_bind_of_ok hm, run_bind_of_ok hm, run_bind_of_ok (heq ▸ hm)]
    exact ⟨hsame, hq⟩
  | error e t =>
    rw [ending_bind_of_error hm, run_bind_of_error hm, run_bind_of_error (heq ▸ hm)]
    exact ⟨rfl, ending_of_error hm ▸ hp⟩

/-- What is done with the state may depend on it. -/
theorem get_bind {f g : σ → EStateM ε σ α} (h : ∀ s, Agree p (f s) (g s)) :
    Agree p (get >>= f) (get >>= g) := fun s hs ↦ h s s hs

theorem ite {c : Prop} [Decidable c] {m' n' : EStateM ε σ α} (h : c → Agree p m n)
    (h' : ¬c → Agree p m' n') :
    Agree p (if c then m else m') (if c then n else n') := by
  split
  · exact h ‹_›
  · exact h' ‹_›

end Agree

/-! ## How a program fails -/

/-- Where the program fails from a state, it does so with errors of one kind. -/
def FailsOnly (p : ε → Prop) (m : EStateM ε σ α) (s : σ) : Prop := ∀ e t, m s = .error e t → p e

namespace FailsOnly

variable {p : ε → Prop} {m : EStateM ε σ α} {f : α → EStateM ε σ β} {s t : σ}

theorem of_ok {a : α} (h : m s = .ok a t) : FailsOnly p m s := by
  intro e u he
  rw [h] at he
  contradiction

theorem congr {n : EStateM ε σ α} (h : m s = n t) (hn : FailsOnly p n t) : FailsOnly p m s :=
  fun e u he ↦ hn e u (h.symm.trans he)

theorem pure (a : α) (s : σ) : FailsOnly p (Pure.pure a : EStateM ε σ α) s := .of_ok rfl

theorem throw {e : ε} (h : p e) (s : σ) : FailsOnly p (MonadExcept.throw e : EStateM ε σ α) s := by
  intro e' t he
  obtain ⟨rfl, -⟩ := EStateM.Result.error.inj he
  exact h

theorem bind (hm : FailsOnly p m s) (hf : ∀ a t, m s = .ok a t → FailsOnly p (f a) t) :
    FailsOnly p (m >>= f) s := by
  intro e u he
  cases h : m s with
  | ok a t =>
    rw [run_bind_of_ok h] at he
    exact hf a t h e u he
  | error e' t =>
    rw [run_bind_of_error h] at he
    obtain ⟨rfl, -⟩ := EStateM.Result.error.inj he
    exact hm e' t h

theorem bind_of_ok {a : α} (h : m s = .ok a t) (hf : FailsOnly p (f a) t) :
    FailsOnly p (m >>= f) s := by
  intro e u he
  rw [run_bind_of_ok h] at he
  exact hf e u he

theorem forM {xs : List α} {f : α → EStateM ε σ PUnit} (h : ∀ x ∈ xs, ∀ s, FailsOnly p (f x) s)
    (s : σ) :
    FailsOnly p (xs.forM f) s := by
  induction xs generalizing s with
  | nil => exact .pure _ s
  | cons x xs ih =>
    exact .bind (h x List.mem_cons_self s) fun _ t _ ↦
      ih (fun y hy ↦ h y (List.mem_cons_of_mem x hy)) t

end FailsOnly

end SchemaLedger
