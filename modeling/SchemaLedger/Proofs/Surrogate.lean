import Mathlib
import SchemaLedger.Proofs.Failing
import SchemaLedger.Proofs.Json.Number
import SchemaLedger.Surrogate

/-!
# What generators draw

A generator takes a fixed number of bytes off the supply and makes its value of these alone, so
calls that come one after another cut the supply into shares. A generated integer is the number that
its eight bytes spell, in decimal. Different bytes spell different numbers, and all 64 bits count:
where the first of the bytes has its high bit set, the number is beyond the signed range.
-/

namespace SchemaLedger

open Json

namespace Generation

/-- The number of bytes that a value takes. -/
def size : Generation → Nat
  | increment => 8
  | uuid => 16
  | custom _ => 0

/-- The value that is made of bytes. -/
def value? : Generation → List UInt8 → Option String
  | increment, bs => some (toString (Random.bigEndian bs))
  | uuid, bs => some (Random.uuidText (Random.stamp bs))
  | custom _, _ => none

end Generation

namespace Random

/-! ## Numbers that bytes spell -/

theorem bigEndian_eq_ofDigits (bs : List UInt8) :
    bigEndian bs = Nat.ofDigits 256 (bs.reverse.map UInt8.toNat) := by
  rw [bigEndian, Nat.ofDigits_eq_foldr, List.foldr_map, List.foldr_reverse]
  simp only [Nat.cast_id, Nat.add_comm]

theorem toNat_lt_of_mem_map {bs : List UInt8} {n : Nat} (h : n ∈ bs.map UInt8.toNat) : n < 256 := by
  obtain ⟨b, -, rfl⟩ := List.mem_map.1 h
  exact b.toNat_lt

theorem bigEndian_lt (bs : List UInt8) : bigEndian bs < 256 ^ bs.length := by
  rw [bigEndian_eq_ofDigits]
  have hdigits : ∀ n ∈ bs.reverse.map UInt8.toNat, n < 256 := fun n hn ↦ toNat_lt_of_mem_map hn
  have hlt := Nat.ofDigits_lt_base_pow_length (by decide) hdigits
  rwa [List.length_map, List.length_reverse] at hlt

theorem eq_of_bigEndian_eq {bs cs : List UInt8} (hlength : bs.length = cs.length)
    (h : bigEndian bs = bigEndian cs) : bs = cs := by
  rw [bigEndian_eq_ofDigits, bigEndian_eq_ofDigits] at h
  have hdigits := Nat.ofDigits_inj_of_len_eq (b := 256) (by decide)
    (by simpa only [List.length_map, List.length_reverse] using hlength)
    (fun n hn ↦ toNat_lt_of_mem_map hn) (fun n hn ↦ toNat_lt_of_mem_map hn) h
  exact List.reverse_injective
    (List.map_injective_iff.2 (fun b c hbc ↦ UInt8.toNat_inj.1 hbc) hdigits)

theorem bigEndian_cons (b : UInt8) (bs : List UInt8) :
    bigEndian (b :: bs) = b.toNat * 256 ^ bs.length + bigEndian bs := by
  rw [bigEndian_eq_ofDigits, bigEndian_eq_ofDigits, List.reverse_cons, List.map_append,
    Nat.ofDigits_append, List.length_map, List.length_reverse, List.map_singleton,
    Nat.ofDigits_singleton]
  ring

/-- The high bit of the first byte decides on which side of the middle a number lies. -/
theorem bigEndian_cons_lt_iff (b : UInt8) (bs : List UInt8) :
    bigEndian (b :: bs) < 128 * 256 ^ bs.length ↔ b < 128 := by
  have hlt := bigEndian_lt bs
  rw [bigEndian_cons, UInt8.lt_iff_toNat_lt]
  change _ ↔ b.toNat < 128
  constructor
  · intro h
    by_contra hb
    have := Nat.mul_le_mul_right (256 ^ bs.length) (Nat.not_lt.1 hb)
    omega
  · intro hb
    have := Nat.mul_le_mul_right (256 ^ bs.length) (Nat.succ_le_of_lt hb)
    rw [Nat.succ_mul] at this
    omega

/-! ## Calls -/

/-- A generator takes its bytes off the supply, if there are enough, and makes its value of them. -/
theorem run_generate (g : Generation) (supply : List UInt8) :
    (generate g).run supply =
      if g.size ≤ supply.length then .ok (g.value? (supply.take g.size), supply.drop g.size)
      else .error (.generation exhausted) := by
  cases g with
  | increment =>
    rw [generate, int64, word, StateT.run_map, StateT.run_map, StateT.run_map, StateT.run, bytes,
      Generation.size]
    split <;> rfl
  | uuid =>
    rw [generate, uuid, StateT.run_map, StateT.run_map, StateT.run, bytes, Generation.size]
    split <;> rfl
  | custom name => rfl

end Random

/-- A call of a generator: which it was, the bytes that it drew and what it gave. -/
structure Draw where
  generation : Generation
  bytes : List UInt8
  value : Option String

/-- It drew as many bytes as its value takes, and made the value of them. -/
structure Draw.Fair (d : Draw) : Prop where
  length_bytes : d.bytes.length = d.generation.size
  value_eq : d.value = d.generation.value? d.bytes

namespace Random

/-- Calls that succeed one after another draw bytes that lie one after another in the supply. -/
theorem exists_draws {gs : List Generation} {supply rest : List UInt8}
    {values : List (Option String)} (h : (gs.mapM generate).run supply = .ok (values, rest)) :
    ∃ draws : List Draw, draws.map (·.generation) = gs ∧ draws.map (·.value) = values ∧
      supply = draws.flatMap (·.bytes) ++ rest ∧ ∀ d ∈ draws, d.Fair := by
  induction gs generalizing supply values with
  | nil =>
    obtain ⟨rfl, rfl⟩ := Prod.mk.inj (Except.ok.inj h)
    exact ⟨[], rfl, rfl, rfl, fun d hd ↦ absurd hd List.not_mem_nil⟩
  | cons g gs ih =>
    rw [List.mapM_cons, StateT.run_bind, run_generate] at h
    split at h
    case isFalse => contradiction
    rename_i hsize
    rw [ok_bind, StateT.run_bind] at h
    obtain ⟨⟨vs, left⟩, hrest, h⟩ := bind_eq_ok h
    obtain ⟨rfl, rfl⟩ := Prod.mk.inj (Except.ok.inj h)
    obtain ⟨draws, rfl, rfl, hsupply, hfair⟩ := ih hrest
    refine ⟨⟨g, supply.take g.size, g.value? (supply.take g.size)⟩ :: draws, rfl, rfl, ?_, ?_⟩
    · rw [List.flatMap_cons, List.append_assoc, ← hsupply, List.take_append_drop]
    · exact List.forall_mem_cons.2 ⟨⟨List.length_take_of_le hsize, rfl⟩, hfair⟩

end Random

/-! ## Decimal texts -/

/-- The text consists of digits, without a zero in front that could be left out, and they spell the
number. -/
structure IsDecimal (text : String) (n : Nat) : Prop where
  digits : Numeral.isIntegerPart text.toList = true
  value : Numeral.digitsValue text.toList = n

theorem isDecimal_toString (n : Nat) : IsDecimal (toString n) n := by
  have htext : (toString n).toList = Nat.toDigits 10 n := Nat.toList_repr
  exact ⟨htext ▸ isIntegerPart_toDigits n, htext ▸ Numeral.digitsValue_toDigits n⟩

namespace Random

/-- Whatever generators are called one after another, as long as they succeed: each draws bytes of
its own, and an integer is the decimal of the number that its eight bytes spell. It takes 64 bits,
and 63 exactly if the first of the bytes is below 128. Two calls for an integer give one text only
if they drew the same bytes. -/
theorem integers_of_calls {gs : List Generation} {supply rest : List UInt8}
    {values : List (Option String)} (h : (gs.mapM generate).run supply = .ok (values, rest)) :
    ∃ draws : List Draw, draws.map (·.generation) = gs ∧ draws.map (·.value) = values ∧
      supply = draws.flatMap (·.bytes) ++ rest ∧ (∀ d ∈ draws, d.bytes.length = d.generation.size) ∧
      (∀ d ∈ draws, d.generation = .increment → ∃ text, d.value = some text ∧
        IsDecimal text (bigEndian d.bytes) ∧ bigEndian d.bytes < 2 ^ 64 ∧
        (bigEndian d.bytes < 2 ^ 63 ↔ ∀ b ∈ d.bytes.head?, b < 128)) ∧
      ∀ d ∈ draws, ∀ e ∈ draws, d.generation = .increment → e.generation = .increment →
        d.value = e.value → d.bytes = e.bytes := by
  obtain ⟨draws, hgenerations, hvalues, hsupply, hfair⟩ := exists_draws h
  have hlength {d : Draw} (hd : d ∈ draws) (hinteger : d.generation = .increment) :
      d.bytes.length = 8 := by
    rw [(hfair d hd).length_bytes, hinteger]
    rfl
  have hvalue {d : Draw} (hd : d ∈ draws) (hinteger : d.generation = .increment) :
      d.value = some (toString (bigEndian d.bytes)) := by
    rw [(hfair d hd).value_eq, hinteger]
    rfl
  refine ⟨draws, hgenerations, hvalues, hsupply, fun d hd ↦ (hfair d hd).length_bytes,
    fun d hd hinteger ↦ ?_, fun d hd e he hinteger hinteger' hsame ↦ ?_⟩
  · have hrange := bigEndian_lt d.bytes
    rw [hlength hd hinteger] at hrange
    refine ⟨_, hvalue hd hinteger, isDecimal_toString _, hrange, ?_⟩
    have height := hlength hd hinteger
    cases hbytes : d.bytes with
    | nil =>
      rw [hbytes] at height
      contradiction
    | cons b bs =>
      rw [hbytes, List.length_cons] at height
      have hmiddle := bigEndian_cons_lt_iff b bs
      rw [Nat.succ_injective height, show 128 * 256 ^ 7 = 2 ^ 63 by norm_num] at hmiddle
      simpa only [List.head?_cons, Option.mem_some_iff, forall_eq'] using hmiddle
  · rw [hvalue hd hinteger, hvalue he hinteger', Option.some_inj] at hsame
    have hdecimal := hsame ▸ isDecimal_toString (bigEndian d.bytes)
    exact eq_of_bigEndian_eq ((hlength hd hinteger).trans (hlength he hinteger').symm)
      (hdecimal.value.symm.trans (isDecimal_toString (bigEndian e.bytes)).value)

/-- The second of these calls draws a UUID, so the integers are those of the outer bytes. -/
theorem integers_around_uuid :
    ([Generation.increment, .uuid, .increment].mapM generate).run
        ([0, 0, 0, 0, 0, 0, 1, 0] ++ List.replicate 16 7 ++ List.replicate 8 255 ++ [9]) =
      .ok ([some "256", some "07070707-0707-4707-8707-070707070707", some "18446744073709551615"],
        [9]) ∧
    ∃ draws : List Draw, draws.map (·.generation) = [.increment, .uuid, .increment] ∧
      draws.map (·.value) =
        [some "256", some "07070707-0707-4707-8707-070707070707", some "18446744073709551615"] ∧
      ∀ d ∈ draws, d.generation = .increment → ∃ text, d.value = some text ∧
        IsDecimal text (bigEndian d.bytes) := by
  have hrun : ([Generation.increment, .uuid, .increment].mapM generate).run
      ([0, 0, 0, 0, 0, 0, 1, 0] ++ List.replicate 16 7 ++ List.replicate 8 255 ++ [9]) =
      .ok ([some "256", some "07070707-0707-4707-8707-070707070707", some "18446744073709551615"],
        [9]) := rfl
  obtain ⟨draws, hgenerations, hvalues, -, -, hintegers, -⟩ := integers_of_calls hrun
  refine ⟨hrun, draws, hgenerations, hvalues, fun d hd hinteger ↦ ?_⟩
  obtain ⟨text, htext, hdecimal, -⟩ := hintegers d hd hinteger
  exact ⟨text, htext, hdecimal⟩

/-- A first byte with a high bit that is set makes an integer that no signed 64-bit column holds. -/
theorem integer_beyond_signed :
    (generate .increment).run [128, 0, 0, 0, 0, 0, 0, 0] = .ok (some "9223372036854775808", []) ∧
      ¬ ∃ i : Int, -2 ^ 63 ≤ i ∧ i < 2 ^ 63 ∧ toString i = "9223372036854775808" := by
  refine ⟨rfl, ?_⟩
  rintro ⟨i, -, hlt, htext⟩
  cases i with
  | ofNat n =>
    have hdecimal := isDecimal_toString n
    rw [show toString n = toString (Int.ofNat n) from rfl, htext] at hdecimal
    have hvalue : Numeral.digitsValue "9223372036854775808".toList = 2 ^ 63 := by decide
    have : n = 2 ^ 63 := hdecimal.value.symm.trans hvalue
    subst this
    exact absurd hlt (by decide)
  | negSucc n =>
    have hsign : (toString (Int.negSucc n)).toList = '-' :: (Nat.repr (n + 1)).toList :=
      String.toList_append
    rw [htext] at hsign
    exact absurd (List.cons.inj hsign).1 (by decide)

end Random

end SchemaLedger
