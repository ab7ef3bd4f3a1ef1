import Mathlib
import SchemaLedger.Json.Token
import SchemaLedger.Json.Number

/-!
# Numbers as JSON

A number that is written can be taken apart again, into parts that say which number it is: an
integer has neither fraction nor exponent, a decimal has at least one of them. Wherever the point of
a decimal is put, its digits do not end in zero, so the parts say the same. Numbers with one text
are one number.
-/

namespace SchemaLedger.Json

/-- Where a run of characters ends, `span` cuts. -/
theorem span_append {p : Char → Bool} {xs ys : List Char} (hxs : ∀ x ∈ xs, p x = true)
    (hys : ∀ y ∈ ys.head?, p y = false) : (xs ++ ys).span p = (xs, ys) := by
  rw [List.span_eq_takeWhile_dropWhile, List.takeWhile_append_of_pos hxs,
    List.dropWhile_append_of_pos hxs]
  match ys, hys with
  | [], _ => rw [List.takeWhile_nil, List.append_nil, List.dropWhile_nil]
  | y :: ys, hys =>
    have hy : ¬p y = true := by simp [hys y rfl]
    rw [List.takeWhile_cons_of_neg hy, List.append_nil, List.dropWhile_cons_of_neg hy]

namespace Numeral

/-! ## What the parts of a number say -/

theorem digitsValue_append (ds es : List Char) :
    digitsValue (ds ++ es) = 10 ^ es.length * digitsValue ds + digitsValue es := by
  change Nat.ofDigitChars 10 (ds ++ es) 0 = _
  rw [Nat.ofDigitChars_append, Nat.ofDigitChars_eq_ofDigitChars_zero]
  rfl

theorem digitsValue_zeros (n : Nat) : digitsValue (List.replicate n '0') = 0 :=
  Nat.ofDigitChars_replicate_zero

theorem digitsValue_toDigits (n : Nat) : digitsValue (Nat.toDigits 10 n) = n :=
  Nat.ofDigitChars_ten_toDigits

/-- The number that the parts of a text stand for. -/
def Denotes (n : Numeral) : Number → Prop
  | .int i =>
    n.fraction = none ∧ n.exponent = none ∧
      i = if n.negative then -(digitsValue n.whole : Int) else digitsValue n.whole
  | .decimal d =>
    ¬(n.fraction = none ∧ n.exponent = none) ∧ n.negative = d.negative ∧
      ∃ j : Nat, digitsValue (n.whole ++ n.fraction.getD []) = d.digits * 10 ^ j ∧
        n.exponent.getD 0 - (n.fraction.getD []).length = d.exponent - j

/-- Digits that do not end in zero are known by what they are worth with a power of ten. -/
theorem eq_of_mul_pow {m m' j j' : Nat} {e e' : Int} (hm : m % 10 ≠ 0 ∨ m = 0 ∧ e = 0)
    (hm' : m' % 10 ≠ 0 ∨ m' = 0 ∧ e' = 0) (h : m * 10 ^ j = m' * 10 ^ j') (he : e - j = e' - j') :
    m = m' ∧ e = e' := by
  wlog hle : j ≤ j' generalizing m m' j j' e e'
  · obtain ⟨rfl, rfl⟩ := this hm' hm h.symm he.symm (by omega)
    exact ⟨rfl, rfl⟩
  obtain ⟨i, rfl⟩ := Nat.exists_eq_add_of_le hle
  have hshift : m = m' * 10 ^ i := by
    refine Nat.eq_of_mul_eq_mul_right (Nat.pow_pos (n := j) (by decide : 0 < 10)) ?_
    rw [h, pow_add, mul_assoc, mul_comm (10 ^ j)]
  cases i with
  | zero => exact ⟨by simpa using hshift, by omega⟩
  | succ i =>
    have hends : m % 10 = 0 := by
      rw [hshift, pow_succ, ← mul_assoc]
      exact Nat.mul_mod_left ..
    obtain ⟨rfl, rfl⟩ := hm.resolve_left (not_not.2 hends)
    have hzero : m' = 0 :=
      (Nat.mul_eq_zero.1 hshift.symm).resolve_right (Nat.pow_pos (by decide : 0 < 10)).ne'
    obtain ⟨-, rfl⟩ := hm'.resolve_left (by omega)
    omega

theorem Denotes.unique {n : Numeral} {x y : Number} (hx : n.Denotes x) (hy : n.Denotes y) :
    x = y := by
  match x, y, hx, hy with
  | .int i, .int k, hx, hy => rw [hx.2.2, hy.2.2]
  | .int i, .decimal d, hx, hy => exact absurd ⟨hx.1, hx.2.1⟩ hy.1
  | .decimal d, .int i, hx, hy => exact absurd ⟨hy.1, hy.2.1⟩ hx.1
  | .decimal d, .decimal d', ⟨_, hsign, j, hdigits, hpower⟩, ⟨_, hsign', j', hdigits', hpower'⟩ =>
    obtain ⟨hd, he⟩ := eq_of_mul_pow d.normal d'.normal (hdigits.symm.trans hdigits')
      (hpower.symm.trans hpower')
    exact congrArg Number.decimal ((Decimal.mk.injEq ..).mpr ⟨hsign.symm.trans hsign', hd, he⟩)

/-! ## Putting the parts together -/

/-- The point and the digits behind it. -/
def fractionText : Option (List Char) → List Char
  | none => []
  | some ds => '.' :: ds

/-- The text of parts, the exponent being written already. -/
def spelled (n : Numeral) (tail : List Char) : List Char :=
  (if n.negative then ['-'] else []) ++ (n.whole ++ (fractionText n.fraction ++ tail))

/-- The parts may be written so. -/
structure Spells (n : Numeral) (tail : List Char) : Prop where
  whole : isIntegerPart n.whole = true
  fraction : ∀ ds ∈ n.fraction, ds ≠ [] ∧ ds.all Char.isDigit = true
  exponent : exponent? tail = some n.exponent

theorem ne_of_isDigit {c d : Char} (hc : c.isDigit = true) (hd : d.isDigit = false) : c ≠ d := by
  rintro rfl
  rw [hc] at hd
  contradiction

theorem isIntegerPart_cons {c : Char} {cs : List Char} (hc : c ≠ '0')
    (h : (c :: cs).all Char.isDigit = true) : isIntegerPart (c :: cs) = true := by
  rw [isIntegerPart]
  · rw [h, Bool.and_true, bne_iff_ne]
    exact hc
  · rintro rfl
    exact absurd rfl hc

theorem exists_of_isIntegerPart {ds : List Char} (h : isIntegerPart ds = true) :
    ∃ c cs, ds = c :: cs ∧ (c :: cs).all Char.isDigit = true := by
  match ds, h with
  | c :: cs, h =>
    refine ⟨c, cs, rfl, ?_⟩
    by_cases hzero : c = '0' ∧ cs = []
    · obtain ⟨rfl, rfl⟩ := hzero
      rfl
    · rw [isIntegerPart] at h
      · exact (Bool.and_eq_true_iff.1 h).2
      · rintro rfl rfl
        exact hzero ⟨rfl, rfl⟩

theorem isWordChar_of_isDigit {c : Char} (hc : c.isDigit = true) : isWordChar c = true := by
  rw [isWordChar, Char.isAlphanum, hc, Bool.or_true]
  rfl

/-- An exponent is a mark, perhaps a sign, and digits. -/
theorem exponent?_cases {tail : List Char} {e : Option Int} (h : exponent? tail = some e) :
    tail = [] ∨ ∃ c cs, tail = c :: cs ∧ (c = 'e' ∨ c = 'E') ∧ ∀ x ∈ cs, isWordChar x = true := by
  match tail, h with
  | [], _ => exact Or.inl rfl
  | c :: cs, h =>
    refine Or.inr ⟨c, cs, rfl, ?_⟩
    have hdigit {ds : List Char} (hds : ds.all Char.isDigit = true) : ∀ x ∈ ds,
        isWordChar x = true :=
      fun x hx ↦ isWordChar_of_isDigit (List.all_eq_true.1 hds x hx)
    have hguard {p : Prop} [Decidable p] {x : Option Int}
        (h : (if p then some x else none) = some e) :
        p := by
      by_contra hp
      rw [if_neg hp] at h
      contradiction
    -- With either sign or with none, what is left are the digits.
    by_cases hminus : ∃ ds, cs = '-' :: ds
    · obtain ⟨ds, rfl⟩ := hminus
      rw [exponent?] at h
      obtain ⟨hmark, -, hds⟩ := hguard h
      exact ⟨hmark, List.forall_mem_cons.2 ⟨rfl, hdigit hds⟩⟩
    by_cases hplus : ∃ ds, cs = '+' :: ds
    · obtain ⟨ds, rfl⟩ := hplus
      rw [exponent?] at h
      obtain ⟨hmark, -, hds⟩ := hguard h
      exact ⟨hmark, List.forall_mem_cons.2 ⟨rfl, hdigit hds⟩⟩
    · rw [exponent?] at h
      · obtain ⟨hmark, -, hds⟩ := hguard h
        exact ⟨hmark, hdigit hds⟩
      · exact fun ds hds ↦ hminus ⟨ds, hds⟩
      · exact fun ds hds ↦ hplus ⟨ds, hds⟩

namespace Spells

variable {n : Numeral} {tail : List Char} (h : n.Spells tail)

include h

theorem isDigit_whole : ∀ c ∈ n.whole, c.isDigit = true := by
  obtain ⟨c, cs, hwhole, hdigits⟩ := exists_of_isIntegerPart h.whole
  exact fun x hx ↦ List.all_eq_true.1 hdigits x (hwhole ▸ hx)

theorem isDigit_or_point :
    ∀ c ∈ n.whole ++ fractionText n.fraction, c.isDigit = true ∨ c = '.' := by
  intro c hc
  rcases List.mem_append.1 hc with hc | hc
  · exact Or.inl (h.isDigit_whole c hc)
  · cases hf : n.fraction with
    | none =>
      rw [hf] at hc
      contradiction
    | some ds =>
      rw [hf] at hc
      rcases List.mem_cons.1 hc with rfl | hc
      · exact Or.inr rfl
      · exact Or.inl (List.all_eq_true.1 (h.fraction ds hf).2 c hc)

theorem fraction?_fractionText : fraction? (fractionText n.fraction) = some n.fraction := by
  cases hf : n.fraction with
  | none => rfl
  | some ds => rw [fractionText, fraction?, if_pos ⟨rfl, h.fraction ds hf⟩]

/-- The digits in front of the point end there. -/
theorem span_point : (n.whole ++ fractionText n.fraction).span (· != '.')
    = (n.whole, fractionText n.fraction) := by
  refine span_append (fun x hx ↦ bne_iff_ne.2 (ne_of_isDigit (h.isDigit_whole x hx) rfl)) ?_
  cases n.fraction with
  | none => rintro y ⟨⟩
  | some ds => rintro y ⟨⟩; rfl

/-- The exponent begins with the first mark. -/
theorem span_mark :
    (n.whole ++ (fractionText n.fraction ++ tail)).span (fun c ↦ c != 'e' && c != 'E')
    = (n.whole ++ fractionText n.fraction, tail) := by
  rw [← List.append_assoc]
  refine span_append (fun x hx ↦ ?_) ?_
  · rcases h.isDigit_or_point x hx with hx | rfl
    · rw [Bool.and_eq_true, bne_iff_ne, bne_iff_ne]
      exact ⟨ne_of_isDigit hx rfl, ne_of_isDigit hx rfl⟩
    · rfl
  · rcases exponent?_cases h.exponent with rfl | ⟨c, cs, rfl, rfl | rfl, -⟩
    · rintro y ⟨⟩
    · rintro y ⟨⟩; rfl
    · rintro y ⟨⟩; rfl

/-- What begins with a digit has no sign. -/
theorem ne_minus (ds : List Char) : n.whole ++ (fractionText n.fraction ++ tail) ≠ '-' :: ds := by
  obtain ⟨c, cs, hwhole, hdigits⟩ := exists_of_isIntegerPart h.whole
  intro e
  rw [hwhole] at e
  exact ne_of_isDigit (List.all_eq_true.1 hdigits c List.mem_cons_self) rfl (List.cons.inj e).1

end Spells

variable {n : Numeral} {tail : List Char}

/-- Parts that are written are found again. -/
theorem ofText?_spelled (h : n.Spells tail) : ofText? (n.spelled tail) = some n := by
  rw [spelled]
  cases hsign : n.negative with
  | true =>
    change ofText? ('-' :: (n.whole ++ (fractionText n.fraction ++ tail))) = _
    rw [ofText?]
    dsimp only
    rw [h.span_mark]
    dsimp only
    rw [h.span_point]
    dsimp only
    rw [h.fraction?_fractionText, h.exponent]
    change (if isIntegerPart n.whole = true then some _ else none) = _
    rw [if_pos h.whole, ← hsign]
  | false =>
    change ofText? (n.whole ++ (fractionText n.fraction ++ tail)) = _
    rw [ofText?]
    · dsimp only
      rw [h.span_mark]
      dsimp only
      rw [h.span_point]
      dsimp only
      rw [h.fraction?_fractionText, h.exponent]
      change (if isIntegerPart n.whole = true then some _ else none) = _
      rw [if_pos h.whole, ← hsign]
    · exact h.ne_minus

theorem isWordChar_of_mem_spelled (h : n.Spells tail) {c : Char} (hc : c ∈ n.spelled tail) :
    isWordChar c = true := by
  rcases List.mem_append.1 hc with hc | hc
  · split at hc
    · rw [List.mem_singleton.1 hc]
      rfl
    · contradiction
  rw [← List.append_assoc] at hc
  rcases List.mem_append.1 hc with hc | hc
  · rcases h.isDigit_or_point c hc with hc | rfl
    · exact isWordChar_of_isDigit hc
    · rfl
  · rcases exponent?_cases h.exponent with rfl | ⟨d, ds, rfl, hmark, hall⟩
    · contradiction
    · rcases List.mem_cons.1 hc with rfl | hc
      · rcases hmark with rfl | rfl <;> rfl
      · exact hall c hc

end Numeral

/-! ## Written numbers -/

section

variable {n : Nat}

theorem all_isDigit_toDigits (n : Nat) : (Nat.toDigits 10 n).all Char.isDigit = true :=
  List.all_eq_true.2 fun _ hc ↦ Nat.isDigit_of_mem_toDigits (by decide) (by decide) hc

/-- The digits of a positive number begin with one that is not zero. -/
theorem exists_toDigits_cons (hn : 0 < n) : ∃ c cs, Nat.toDigits 10 n = c :: cs ∧ c ≠ '0' := by
  induction n using Nat.strong_induction_on with
  | h n ih =>
    by_cases hlt : n < 10
    · refine ⟨n.digitChar, [], Nat.toDigits_of_lt_base hlt, ?_⟩
      have hdigit : ∀ m < 10, 0 < m → Nat.digitChar m ≠ '0' := by decide
      exact hdigit n hlt hn
    · obtain ⟨c, cs, hdigits, hc⟩ := ih (n / 10) (by omega) (by omega)
      refine ⟨c, cs ++ [(n % 10).digitChar], ?_, hc⟩
      rw [Nat.toDigits_of_base_le (by decide) (by omega), hdigits, List.cons_append]

theorem isIntegerPart_toDigits (n : Nat) : Numeral.isIntegerPart (Nat.toDigits 10 n) = true := by
  have hall := all_isDigit_toDigits n
  rcases Nat.eq_zero_or_pos n with rfl | hn
  · rfl
  · obtain ⟨c, cs, hdigits, hc⟩ := exists_toDigits_cons hn
    rw [hdigits] at hall ⊢
    exact Numeral.isIntegerPart_cons hc hall

theorem toList_toString (i : Int) :
    (toString i).toList = (if i < 0 then ['-'] else []) ++ Nat.toDigits 10 i.natAbs := by
  rw [Int.toString_eq_repr, Int.repr_eq_if]
  by_cases hi : 0 ≤ i
  · rw [if_pos hi, if_neg (by omega), Nat.toList_repr, List.nil_append,
      show i.toNat = i.natAbs by omega]
  · rw [if_neg hi, if_pos (by omega), String.toList_append, Nat.toList_repr,
      show (-i).toNat = i.natAbs by omega]
    rfl

/-- An exponent is written with its sign. -/
theorem exponent?_text (e : Int) :
    Numeral.exponent? ('e' :: ((if 0 ≤ e then ['+'] else []) ++ (toString e).toList)) =
      some (some e) := by
  have hdigits (n : Nat) : ('e' = 'e' ∨ 'e' = 'E') ∧ Nat.toDigits 10 n ≠ [] ∧
      (Nat.toDigits 10 n).all Char.isDigit = true :=
    ⟨Or.inl rfl, Nat.toDigits_ne_nil, all_isDigit_toDigits n⟩
  rw [toList_toString]
  by_cases he : 0 ≤ e
  · rw [if_pos he, if_neg (by omega)]
    change Numeral.exponent? ('e' :: '+' :: Nat.toDigits 10 e.natAbs) = _
    rw [Numeral.exponent?, if_pos (hdigits _), Numeral.digitsValue_toDigits,
      if_neg Bool.false_ne_true]
    exact congrArg _ (congrArg _ (Int.natAbs_of_nonneg he))
  · rw [if_neg he, if_pos (by omega)]
    change Numeral.exponent? ('e' :: '-' :: Nat.toDigits 10 e.natAbs) = _
    rw [Numeral.exponent?, if_pos (hdigits _), Numeral.digitsValue_toDigits, if_pos rfl]
    exact congrArg _ (congrArg _ (by omega))

end

namespace Decimal

/-- A decimal is written with parts that stand for it. -/
def Written (d : Decimal) : Prop :=
  ∃ (n : Numeral) (tail : List Char), n.Spells tail ∧ d.text = n.spelled tail ∧
    n.Denotes (.decimal d)

theorem Written.of_parts {d : Decimal} (whole : List Char) (fraction : Option (List Char))
    (exponent : Option Int) (tail : List Char) (j : Nat)
    (hmagnitude : d.magnitude = whole ++ (Numeral.fractionText fraction ++ tail))
    (hspells : (⟨d.negative, whole, fraction, exponent⟩ : Numeral).Spells tail)
    (hmarked : ¬(fraction = none ∧ exponent = none))
    (hdigits : Numeral.digitsValue (whole ++ fraction.getD []) = d.digits * 10 ^ j)
    (hpower : exponent.getD 0 - (fraction.getD []).length = d.exponent - j) : d.Written := by
  refine ⟨⟨d.negative, whole, fraction, exponent⟩, tail, hspells, ?_, hmarked, rfl, j,
    hdigits, hpower⟩
  rw [text, hmagnitude, Numeral.spelled]
  cases d.negative <;> rfl

theorem all_isDigit_of_sublist {n : Nat} {cs : List Char} (h : cs.Sublist (Nat.toDigits 10 n)) :
    cs.all Char.isDigit = true :=
  List.all_eq_true.2 fun c hc ↦ List.all_eq_true.1 (all_isDigit_toDigits n) c (h.subset hc)

theorem all_isDigit_zeros (n : Nat) : (List.replicate n '0').all Char.isDigit = true :=
  List.all_eq_true.2 fun _ hc ↦ (List.mem_replicate.1 hc).2 ▸ rfl

variable {d : Decimal}

theorem written_zero (hzero : d.digits = 0) : d.Written := by
  have hexponent := (d.normal.resolve_left (by omega)).2
  refine .of_parts ['0'] (some ['0']) none [] 1 ?_ ⟨rfl, ?_, rfl⟩ nofun ?_ ?_
  · rw [magnitude, if_pos hzero]
    rfl
  · rintro ds ⟨⟩
    exact ⟨nofun, rfl⟩
  · rw [hzero]
    rfl
  · rw [hexponent]
    rfl

section

variable (hd : d.digits ≠ 0)

include hd

/-- What begins with the first digits is an integer part. -/
theorem isIntegerPart_of_begins {whole : List Char} (hall : whole.all Char.isDigit = true)
    (hhead : whole.head? = (Nat.toDigits 10 d.digits).head?) :
    Numeral.isIntegerPart whole = true := by
  obtain ⟨c, cs, hcons, hc⟩ := exists_toDigits_cons (Nat.pos_of_ne_zero hd)
  rw [hcons] at hhead
  obtain ⟨ds, rfl⟩ := List.head?_eq_some_iff.1 hhead
  exact Numeral.isIntegerPart_cons hc hall

/-- The digits, zeros up to the point, and a zero behind it. -/
theorem written_integer (h : 0 ≤ d.exponent ∧ d.point ≤ 16) : d.Written := by
  refine .of_parts (Nat.toDigits 10 d.digits ++ List.replicate d.exponent.toNat '0')
    (some ['0']) none [] (d.exponent.toNat + 1) ?_ ⟨?_, ?_, rfl⟩ nofun ?_ ?_
  · rw [magnitude]
    dsimp only
    rw [if_neg hd, if_pos h]
    rfl
  · refine isIntegerPart_of_begins hd ?_ (List.head?_append_of_ne_nil _ Nat.toDigits_ne_nil)
    rw [List.all_append, all_isDigit_toDigits, all_isDigit_zeros]
    rfl
  · rintro ds ⟨⟩
    exact ⟨nofun, rfl⟩
  · change Numeral.digitsValue (_ ++ ['0']) = _
    rw [List.append_assoc, ← List.replicate_succ', Numeral.digitsValue_append,
      Numeral.digitsValue_zeros, List.length_replicate, Numeral.digitsValue_toDigits, Nat.add_zero,
      Nat.mul_comm]
  · change (0 : Int) - 1 = d.exponent - ((d.exponent.toNat + 1 : Nat) : Int)
    omega

/-- The point stands among the digits. -/
theorem written_inside (hnot : ¬(0 ≤ d.exponent ∧ d.point ≤ 16)) (h : 0 < d.point ∧ d.point ≤ 16) :
    d.Written := by
  have hpoint : d.point = (Nat.toDigits 10 d.digits).length + d.exponent := rfl
  refine .of_parts ((Nat.toDigits 10 d.digits).take d.point.toNat)
    (some ((Nat.toDigits 10 d.digits).drop d.point.toNat)) none [] 0 ?_ ⟨?_, ?_, rfl⟩ nofun ?_ ?_
  · rw [magnitude]
    dsimp only
    rw [if_neg hd, if_neg hnot, if_pos h, List.append_nil]
    rfl
  · refine isIntegerPart_of_begins hd (all_isDigit_of_sublist (List.take_sublist ..)) ?_
    rw [List.head?_take, if_neg (by omega)]
  · rintro ds ⟨⟩
    refine ⟨?_, all_isDigit_of_sublist (List.drop_sublist ..)⟩
    rw [ne_eq, List.drop_eq_nil_iff]
    omega
  · change Numeral.digitsValue (_ ++ List.drop _ _) = _
    rw [List.take_append_drop, Numeral.digitsValue_toDigits, pow_zero, Nat.mul_one]
  · change (0 : Int) - (List.drop _ _).length = d.exponent - (0 : Nat)
    rw [List.length_drop]
    omega

/-- The point stands before the digits. -/
theorem written_before (hnot : ¬(0 ≤ d.exponent ∧ d.point ≤ 16)) (h : -5 < d.point ∧ d.point ≤ 0) :
    d.Written := by
  have hpoint : d.point = (Nat.toDigits 10 d.digits).length + d.exponent := rfl
  refine .of_parts ['0'] (some (List.replicate (-d.point).toNat '0' ++ Nat.toDigits 10 d.digits))
    none
    [] 0 ?_ ⟨rfl, ?_, rfl⟩ nofun ?_ ?_
  · rw [magnitude]
    dsimp only
    rw [if_neg hd, if_neg hnot, if_neg (by omega), if_pos h, List.append_nil]
    rfl
  · rintro ds ⟨⟩
    refine ⟨fun hnil ↦ Nat.toDigits_ne_nil (List.append_eq_nil_iff.1 hnil).2, ?_⟩
    rw [List.all_append, all_isDigit_zeros, all_isDigit_toDigits]
    rfl
  · change Numeral.digitsValue (List.replicate 1 '0' ++ (_ ++ _)) = _
    rw [Numeral.digitsValue_append, Numeral.digitsValue_append, Numeral.digitsValue_zeros,
      Numeral.digitsValue_zeros, Numeral.digitsValue_toDigits, pow_zero, Nat.mul_one, Nat.mul_zero,
      Nat.mul_zero, Nat.zero_add, Nat.zero_add]
  · change (0 : Int) - (List.replicate (-d.point).toNat '0' ++ _).length = d.exponent - (0 : Nat)
    rw [List.length_append, List.length_replicate]
    omega

/-- One digit stands before the point, and an exponent behind. -/
theorem written_exponent (hnot : ¬(0 ≤ d.exponent ∧ d.point ≤ 16))
    (h : ¬(0 < d.point ∧ d.point ≤ 16)) (h' : ¬(-5 < d.point ∧ d.point ≤ 0)) : d.Written := by
  have hpoint : d.point = (Nat.toDigits 10 d.digits).length + d.exponent := rfl
  have hpos : 0 < (Nat.toDigits 10 d.digits).length := Nat.length_toDigits_pos
  let fraction := if (Nat.toDigits 10 d.digits).length = 1 then none
    else some ((Nat.toDigits 10 d.digits).drop 1)
  have hfraction : fraction.getD [] = (Nat.toDigits 10 d.digits).drop 1 := by
    change Option.getD (if _ then _ else _) _ = _
    split
    · exact (List.drop_eq_nil_iff.2 (by omega)).symm
    · rfl
  refine .of_parts ((Nat.toDigits 10 d.digits).take 1) fraction (some (d.point - 1))
    ('e' :: ((if 0 ≤ d.point - 1 then ['+'] else []) ++ (toString (d.point - 1)).toList))
    0 ?_ ⟨?_, ?_, exponent?_text _⟩ nofun ?_ ?_
  · have hsign : 0 < d.point ↔ 0 ≤ d.point - 1 := by omega
    have hmantissa :
        Numeral.fractionText fraction = if (Nat.toDigits 10 d.digits).length = 1 then []
        else '.' :: (Nat.toDigits 10 d.digits).drop 1 := by
      change Numeral.fractionText (if _ then _ else _) = _
      split <;> rfl
    rw [magnitude]
    dsimp only
    rw [if_neg hd, if_neg hnot, if_neg h, if_neg h', hmantissa, if_congr hsign rfl rfl]
    simp only [List.append_assoc, List.cons_append]
  · refine isIntegerPart_of_begins hd (all_isDigit_of_sublist (List.take_sublist ..)) ?_
    rw [List.head?_take, if_neg Nat.one_ne_zero]
  · intro ds hds
    change (if _ then _ else _) = _ at hds
    split at hds
    · contradiction
    · obtain rfl := Option.some.inj hds
      refine ⟨?_, all_isDigit_of_sublist (List.drop_sublist ..)⟩
      rw [ne_eq, List.drop_eq_nil_iff]
      omega
  · rw [hfraction, List.take_append_drop, Numeral.digitsValue_toDigits, pow_zero, Nat.mul_one]
  · rw [hfraction, List.length_drop]
    change d.point - 1 - _ = d.exponent - (0 : Nat)
    omega

end

theorem written (d : Decimal) : d.Written := by
  by_cases hd : d.digits = 0
  · exact written_zero hd
  by_cases hinteger : 0 ≤ d.exponent ∧ d.point ≤ 16
  · exact written_integer hd hinteger
  by_cases hinside : 0 < d.point ∧ d.point ≤ 16
  · exact written_inside hd hinteger hinside
  by_cases hbefore : -5 < d.point ∧ d.point ≤ 0
  · exact written_before hd hinteger hbefore
  · exact written_exponent hd hinteger hinside hbefore

end Decimal

namespace Number

/-- However a number is written, its parts say what it is. -/
theorem exists_spelled (x : Number) : ∃ (n : Numeral) (tail : List Char),
    n.Spells tail ∧ x.text = n.spelled tail ∧ n.Denotes x := by
  cases x with
  | decimal d => exact d.written
  | int i =>
    refine ⟨⟨i < 0, Nat.toDigits 10 i.natAbs, none, none⟩, [],
      ⟨isIntegerPart_toDigits _, nofun, rfl⟩, ?_, rfl, rfl, ?_⟩
    · rw [text, toList_toString, Numeral.spelled]
      simp only [decide_eq_true_eq, Numeral.fractionText, List.append_nil]
    · simp only [decide_eq_true_eq, Numeral.digitsValue_toDigits]
      split <;> omega

theorem text_injective {x y : Number} (h : x.text = y.text) : x = y := by
  obtain ⟨n, tail, hspells, htext, hdenotes⟩ := exists_spelled x
  obtain ⟨n', tail', hspells', htext', hdenotes'⟩ := exists_spelled y
  have hparts : some n = some n' := by
    rw [← Numeral.ofText?_spelled hspells, ← Numeral.ofText?_spelled hspells', ← htext, ← htext', h]
  exact hdenotes.unique (Option.some.inj hparts ▸ hdenotes')

theorem isWordChar_of_mem_text {x : Number} {c : Char} (hc : c ∈ x.text) : isWordChar c = true := by
  obtain ⟨n, tail, hspells, htext, -⟩ := exists_spelled x
  exact Numeral.isWordChar_of_mem_spelled hspells (htext ▸ hc)

/-- A number begins with a digit or a minus sign. -/
theorem head_text (x : Number) : ∃ c cs, x.text = c :: cs ∧ (c.isDigit = true ∨ c = '-') := by
  obtain ⟨n, tail, hspells, htext, -⟩ := exists_spelled x
  obtain ⟨c, cs, hwhole, hdigits⟩ := Numeral.exists_of_isIntegerPart hspells.whole
  rw [htext, Numeral.spelled, hwhole]
  cases n.negative with
  | true => exact ⟨'-', _, rfl, Or.inr rfl⟩
  | false => exact ⟨c, _, rfl, Or.inl (List.all_eq_true.1 hdigits c List.mem_cons_self)⟩

end Number

end SchemaLedger.Json
