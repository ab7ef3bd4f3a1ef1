import Mathlib

/-!
# Computations that may fail

Lists gone through by a computation that may fail: it succeeds exactly when it does so on every
member of the list.
-/

namespace SchemaLedger

variable {α β γ ε : Type}

theorem ok_bind (a : α) (f : α → Except ε β) : (Except.ok a >>= f) = f a :=
  rfl

theorem bind_eq_ok {x : Except ε α} {f : α → Except ε β} {b : β} (h : (x >>= f) = .ok b) :
    ∃ a, x = .ok a ∧ f a = .ok b := by
  cases x with
  | error e => contradiction
  | ok a => exact ⟨a, rfl, h⟩

theorem bind_eq_error {x : Except ε α} {f : α → Except ε β} {e : ε} (h : (x >>= f) = .error e) :
    x = .error e ∨ ∃ a, x = .ok a ∧ f a = .error e := by
  cases x with
  | error e' => exact .inl (congrArg _ (Except.error.inj h))
  | ok a => exact .inr ⟨a, rfl, h⟩

theorem map_eq_error {f : α → β} {x : Except ε α} {e : ε} (h : f <$> x = .error e) :
    x = .error e := by
  cases x with
  | error e' => exact congrArg _ (Except.error.inj h)
  | ok a => contradiction

theorem map_eq_ok {f : α → β} {x : Except ε α} {b : β} (h : f <$> x = .ok b) :
    ∃ a, x = .ok a ∧ f a = b := by
  cases x with
  | error e => contradiction
  | ok a => exact ⟨a, rfl, Except.ok.inj h⟩

theorem mapError_eq_ok {ε' : Type} {f : ε → ε'} {x : Except ε α} {a : α}
    (h : x.mapError f = .ok a) : x = .ok a := by
  cases x with
  | error e => contradiction
  | ok b => exact congrArg _ (Except.ok.inj h)

theorem eq_ok_of_toOption {x : Except ε α} {a : α} (h : x.toOption = some a) : x = .ok a := by
  cases x with
  | error e => contradiction
  | ok b => exact congrArg _ (Option.some.inj h)

theorem exists_error_of_toOption {x : Except ε α} (h : x.toOption.isSome = false) :
    ∃ e, x = .error e := by
  cases x with
  | error e => exact ⟨e, rfl⟩
  | ok a => contradiction

theorem mapM_ok {f : β → Except ε γ} {text : α → β} {g : α → γ} {xs : List α}
    (h : ∀ x ∈ xs, f (text x) = .ok (g x)) : (xs.map text).mapM f = .ok (xs.map g) := by
  induction xs with
  | nil => rfl
  | cons x xs ih =>
    rw [List.map_cons, List.mapM_cons, h x List.mem_cons_self,
      ih fun y hy ↦ h y (List.mem_cons_of_mem x hy)]
    rfl

/-- What does at least as well on every member does as well on the list. -/
theorem mapM_mono {f g : α → Except ε β} {xs : List α}
    (hfg : ∀ x ∈ xs, ∀ y, f x = .ok y → g x = .ok y)
    {ys : List β} (h : xs.mapM f = .ok ys) : xs.mapM g = .ok ys := by
  induction xs generalizing ys with
  | nil => exact h
  | cons x xs ih =>
    rw [List.mapM_cons] at h
    obtain ⟨y, hy, h⟩ := bind_eq_ok h
    obtain ⟨ys', hys, h⟩ := bind_eq_ok h
    rw [List.mapM_cons, hfg x List.mem_cons_self y hy,
      ih (fun z hz ↦ hfg z (List.mem_cons_of_mem x hz)) hys]
    exact h

theorem mapM_some {f : β → Option γ} {text : α → β} {g : α → γ} {xs : List α}
    (h : ∀ x ∈ xs, f (text x) = some (g x)) : (xs.map text).mapM f = some (xs.map g) := by
  induction xs with
  | nil => rfl
  | cons x xs ih =>
    rw [List.map_cons, List.mapM_cons, h x List.mem_cons_self,
      ih fun y hy ↦ h y (List.mem_cons_of_mem x hy)]
    rfl

/-- What a list is turned into is turned into member by member. -/
theorem mapM_cons_eq_ok {f : α → Except ε β} {x : α} {xs : List α} {ys : List β}
    (h : (x :: xs).mapM f = .ok ys) :
    ∃ y ys', f x = .ok y ∧ xs.mapM f = .ok ys' ∧ ys = y :: ys' := by
  rw [List.mapM_cons] at h
  obtain ⟨y, hy, h⟩ := bind_eq_ok h
  obtain ⟨ys', hys, h⟩ := bind_eq_ok h
  exact ⟨y, ys', hy, hys, (Except.ok.inj h).symm⟩

theorem exists_of_mem_mapM {f : α → Except ε β} {xs : List α} {ys : List β} (h : xs.mapM f = .ok ys)
    {y : β} (hy : y ∈ ys) : ∃ x ∈ xs, f x = .ok y := by
  induction xs generalizing ys with
  | nil =>
    obtain rfl := Except.ok.inj h
    contradiction
  | cons x xs ih =>
    obtain ⟨y', ys', hx, hxs, rfl⟩ := mapM_cons_eq_ok h
    rcases List.mem_cons.1 hy with rfl | hy
    · exact ⟨x, List.mem_cons_self, hx⟩
    · obtain ⟨x', hx', hfx'⟩ := ih hxs hy
      exact ⟨x', List.mem_cons_of_mem x hx', hfx'⟩

theorem exists_of_mapM {f : α → Except ε β} {xs : List α} {ys : List β} (h : xs.mapM f = .ok ys)
    {x : α} (hx : x ∈ xs) : ∃ y ∈ ys, f x = .ok y := by
  induction xs generalizing ys with
  | nil => contradiction
  | cons x' xs ih =>
    obtain ⟨y', ys', hx', hxs, rfl⟩ := mapM_cons_eq_ok h
    rcases List.mem_cons.1 hx with rfl | hx
    · exact ⟨y', List.mem_cons_self, hx'⟩
    · obtain ⟨y, hy, hfx⟩ := ih hxs hx
      exact ⟨y, List.mem_cons_of_mem y' hy, hfx⟩

/-- Where it fails on a list, it does so on a member. -/
theorem exists_of_mapM_error {f : α → Except ε β} {xs : List α} {e : ε} (h : xs.mapM f = .error e) :
    ∃ x ∈ xs, f x = .error e := by
  induction xs with
  | nil => contradiction
  | cons x xs ih =>
    rw [List.mapM_cons] at h
    rcases bind_eq_error h with hx | ⟨y, -, h⟩
    · exact ⟨x, List.mem_cons_self, hx⟩
    · rcases bind_eq_error h with hxs | ⟨ys, -, h⟩
      · obtain ⟨z, hz, he⟩ := ih hxs
        exact ⟨z, List.mem_cons_of_mem x hz, he⟩
      · contradiction

theorem exists_of_foldlM_error {f : β → α → Except ε β} {xs : List α} {b : β} {e : ε}
    (h : xs.foldlM f b = .error e) : ∃ b', ∃ x ∈ xs, f b' x = .error e := by
  induction xs generalizing b with
  | nil => contradiction
  | cons x xs ih =>
    rw [List.foldlM_cons] at h
    rcases bind_eq_error h with hx | ⟨c, -, h⟩
    · exact ⟨b, x, List.mem_cons_self, hx⟩
    · obtain ⟨b', y, hy, he⟩ := ih h
      exact ⟨b', y, List.mem_cons_of_mem x hy, he⟩

theorem exists_mapM {f : α → Except ε β} {xs : List α} (h : ∀ x ∈ xs, ∃ y, f x = .ok y) :
    ∃ ys, xs.mapM f = .ok ys := by
  induction xs with
  | nil => exact ⟨[], rfl⟩
  | cons x xs ih =>
    obtain ⟨y, hy⟩ := h x List.mem_cons_self
    obtain ⟨ys, hys⟩ := ih fun z hz ↦ h z (List.mem_cons_of_mem x hz)
    exact ⟨y :: ys, by rw [List.mapM_cons, hy, hys]; rfl⟩

/-- What can be told of the members before and of those afterwards is told of the lists. -/
theorem map_eq_of_mapM {f : α → Except ε β} {p : α → γ} {q : β → γ} {xs : List α} {ys : List β}
    (h : xs.mapM f = .ok ys) (hpq : ∀ x ∈ xs, ∀ y, f x = .ok y → q y = p x) :
    ys.map q = xs.map p := by
  induction xs generalizing ys with
  | nil =>
    obtain rfl := Except.ok.inj h
    rfl
  | cons x xs ih =>
    obtain ⟨y, ys', hx, hxs, rfl⟩ := mapM_cons_eq_ok h
    rw [List.map_cons, List.map_cons, hpq x List.mem_cons_self y hx,
      ih hxs fun z hz ↦ hpq z (List.mem_cons_of_mem x hz)]

theorem eq_map_of_mapM {f : α → Except ε β} {g : α → β} {xs : List α} {ys : List β}
    (h : xs.mapM f = .ok ys) (hg : ∀ x ∈ xs, ∀ y, f x = .ok y → y = g x) : ys = xs.map g := by
  rw [← map_eq_of_mapM (q := id) h hg, List.map_id]

/-- Members that are passed over before are passed over afterwards. -/
theorem mapM_filter {f : α → Except ε β} {p : α → Bool} {q : β → Bool} {xs : List α} {ys : List β}
    (h : xs.mapM f = .ok ys) (hpq : ∀ x y, f x = .ok y → q y = p x) :
    (xs.filter p).mapM f = .ok (ys.filter q) := by
  induction xs generalizing ys with
  | nil =>
    obtain rfl := Except.ok.inj h
    rfl
  | cons x xs ih =>
    obtain ⟨y, ys, hx, hxs, rfl⟩ := mapM_cons_eq_ok h
    by_cases hp : p x = true
    · rw [List.filter_cons_of_pos hp, List.filter_cons_of_pos ((hpq x y hx).trans hp),
        List.mapM_cons, hx, ih hxs]
      rfl
    · rw [List.filter_cons_of_neg hp, List.filter_cons_of_neg (by rwa [hpq x y hx]), ih hxs]

theorem mapM_concat_eq_ok_iff {f : α → Except ε β} {xs : List α} {x : α} {zs : List β} :
    (xs ++ [x]).mapM f = .ok zs ↔ ∃ ys y, xs.mapM f = .ok ys ∧ f x = .ok y ∧ zs = ys ++ [y] := by
  rw [List.mapM_append, List.mapM_cons, List.mapM_nil]
  constructor
  · intro h
    obtain ⟨ys, hys, h⟩ := bind_eq_ok h
    obtain ⟨zs', hx, h⟩ := bind_eq_ok h
    obtain ⟨y, hy, hx⟩ := bind_eq_ok hx
    obtain rfl := Except.ok.inj hx
    exact ⟨ys, y, hys, hy, (Except.ok.inj h).symm⟩
  · rintro ⟨ys, y, hys, hy, rfl⟩
    rw [hys, hy]
    rfl

/-- In another order, a list is turned into the same in another order. -/
theorem mapM_perm {f : α → Except ε β} {xs xs' : List α} (hperm : xs.Perm xs') {ys : List β}
    (h : xs.mapM f = .ok ys) : ∃ ys', xs'.mapM f = .ok ys' ∧ ys.Perm ys' := by
  induction hperm generalizing ys with
  | nil => exact ⟨ys, h, .refl ys⟩
  | cons x _ ih =>
    obtain ⟨y, zs, hx, hxs, rfl⟩ := mapM_cons_eq_ok h
    obtain ⟨zs', hxs', hperm⟩ := ih hxs
    refine ⟨y :: zs', ?_, hperm.cons y⟩
    rw [List.mapM_cons, hx, hxs']
    rfl
  | swap x x' xs =>
    obtain ⟨y', ys', hx', hrest, rfl⟩ := mapM_cons_eq_ok h
    obtain ⟨y, zs, hx, hxs, rfl⟩ := mapM_cons_eq_ok hrest
    refine ⟨y :: y' :: zs, ?_, .swap y y' zs⟩
    rw [List.mapM_cons, List.mapM_cons, hx, hx', hxs]
    rfl
  | trans _ _ ih₁ ih₂ =>
    obtain ⟨zs, hzs, hperm₁⟩ := ih₁ h
    obtain ⟨ys', hys', hperm₂⟩ := ih₂ hzs
    exact ⟨ys', hys', hperm₁.trans hperm₂⟩

theorem perm_of_mapM {f : α → Except ε β} {xs xs' : List α} (hperm : xs.Perm xs') {ys ys' : List β}
    (h : xs.mapM f = .ok ys) (h' : xs'.mapM f = .ok ys') : ys.Perm ys' := by
  obtain ⟨zs, hzs, hperm⟩ := mapM_perm hperm h
  obtain rfl := Except.ok.inj (hzs.symm.trans h')
  exact hperm

end SchemaLedger
