import Mathlib.Tactic.SplitIfs
import NativeUi.Number
import NativeUi.Proofs.Text.Digits

/-!
# Doubles and the decimals that stand for them

Rounding depends on the ratio alone and leaves doubles as they are. So `toDouble?` does not tell two
spellings of one decimal apart, and a double is the nearest one to its shortest decimal, be it one
that the search has found or the exact one.

The quick `read?` agrees with `toDouble?` where both the digits and the power of ten are doubles
themselves: only one of its three roundings is left then.
-/
namespace NativeUi

namespace Double

/-! ### Rounding -/

theorem roundDiv_mul_right {c : Nat} (hc : 0 < c) (num den : Nat) :
    roundDiv (num * c) (den * c) = roundDiv num den := by
  have hlt (a b : Nat) : a * c < b * c ↔ a < b := Nat.mul_lt_mul_right hc
  simp only [roundDiv, Nat.mul_div_mul_right _ _ hc, Nat.mul_mod_mul_right, ← Nat.mul_assoc, hlt]

theorem roundDiv_mul_self {den : Nat} (hd : 0 < den) (n : Nat) : roundDiv (n * den) den = n := by
  simp [roundDiv, Nat.mul_div_cancel _ hd, hd]

theorem ofRatio_mul_right (negative : Bool) {c : Nat} (hc : 0 < c) (num den : Nat) :
    ofRatio negative (num * c) (den * c) = ofRatio negative num den := by
  have hs : scaleOf (num * c) (den * c) = scaleOf num den := by
    rw [scaleOf, scaleOf, Nat.mul_div_mul_right _ _ hc]
  have hm (s : Nat) : roundDiv (num * c) (den * c * 2 ^ s) = roundDiv num (den * 2 ^ s) := by
    rw [Nat.mul_right_comm, roundDiv_mul_right hc]
  simp only [ofRatio, hs, hm]

theorem ofRatio_mul_self (negative : Bool) {c : Nat} (hc : 0 < c) (n : Nat) :
    ofRatio negative (n * c) c = ofRatio negative n 1 := by
  have h := ofRatio_mul_right negative hc n 1
  rwa [Nat.one_mul] at h

theorem scaleOf_magnitude (x : Double) : scaleOf x.magnitude 1 = x.scale := by
  obtain ⟨hm, -, hn⟩ := x.canonical
  rw [scaleOf, magnitude, Nat.div_one]
  by_cases h : 2 ^ 52 ≤ x.mantissa
  · have hne : x.mantissa * 2 ^ x.scale ≠ 0 :=
      Nat.mul_ne_zero (by omega) (Nat.pos_iff_ne_zero.mp (Nat.two_pow_pos _))
    have hl : Nat.log2 (x.mantissa * 2 ^ x.scale) = 52 + x.scale := by
      rw [Nat.log2_eq_iff hne, Nat.add_right_comm, Nat.pow_add, Nat.pow_add]
      exact ⟨Nat.mul_le_mul_right _ h, Nat.mul_lt_mul_of_pos_right hm (Nat.two_pow_pos _)⟩
    omega
  · have hs : x.scale = 0 := hn.resolve_left h
    rw [hs, Nat.pow_zero, Nat.mul_one]
    by_cases h0 : x.mantissa = 0
    · simp [h0]
    · have hl : Nat.log2 x.mantissa < 52 := (Nat.log2_lt h0).mpr (by omega)
      omega

theorem ofRatio_magnitude (x : Double) : ofRatio x.negative x.magnitude 1 = some x := by
  have hm : x.mantissa ≠ 2 ^ 53 := Nat.ne_of_lt x.canonical.1
  have hr : roundDiv x.magnitude (1 * 2 ^ x.scale) = x.mantissa := by
    rw [Nat.one_mul, magnitude, roundDiv_mul_self (Nat.two_pow_pos _)]
  rw [ofRatio, scaleOf_magnitude, hr, if_neg hm, ofParts?, dif_pos x.canonical]

end Double

/-! ### Two spellings of a decimal -/

theorem decimalLength_le_iff {n k : Nat} (hk : 0 < k) : decimalLength n ≤ k ↔ n < 10 ^ k := by
  unfold decimalLength
  split
  · next hn =>
    rw [hn]
    exact iff_of_true (Nat.zero_le k) (Nat.pow_pos (by decide))
  · exact Nat.length_toDigits_le_iff (by decide) hk

theorem decimalLength_mul_ten {n : Nat} (h : n ≠ 0) :
    decimalLength (n * 10) = decimalLength n + 1 := by
  rw [decimalLength, decimalLength, if_neg h, if_neg (by omega), Text.length_decimalChars_mul_ten h]

namespace Decimal

theorem toDouble?_mul_ten (negative : Bool) {n : Nat} (hn : n ≠ 0) (e : Int) :
    toDouble? negative ⟨n * 10, e - 1⟩ = toDouble? negative ⟨n, e⟩ := by
  have hn' : n * 10 ≠ 0 := by omega
  have ho : ((decimalLength (n * 10) : Nat) : Int) + (e - 1) = decimalLength n + e := by
    rw [decimalLength_mul_ten hn]
    omega
  simp only [toDouble?, hn, hn', ho, false_or]
  generalize 2 ^ 1074 = unit
  split_ifs with h1 h2 h3 h4 h5
  · rfl
  · rfl
  · -- a zero more among the digits is a power less
    have he : e.toNat = (e - 1).toNat + 1 := by omega
    rw [he, Nat.pow_succ, Nat.mul_comm (10 ^ _) 10, Nat.mul_assoc n 10]
  · omega
  · have he : e.toNat = 0 := by omega
    have he' : (-(e - 1)).toNat = 1 := by omega
    have hr := Double.ofRatio_mul_right negative (c := 10) (by decide) (n * unit) 1
    rw [he, he', Nat.pow_one, Nat.pow_zero, Nat.mul_one, Nat.mul_right_comm]
    simpa using hr
  · have he : (-(e - 1)).toNat = (-e).toNat + 1 := by omega
    rw [he, Nat.pow_succ, Nat.mul_right_comm]
    exact Double.ofRatio_mul_right negative (by decide) _ _

theorem toDouble?_mul_pow (negative : Bool) {n : Nat} (hn : n ≠ 0) (e : Int) (k : Nat) :
    toDouble? negative ⟨n * 10 ^ k, e - k⟩ = toDouble? negative ⟨n, e⟩ := by
  induction k with
  | zero => simp
  | succ k ih =>
    have hk : n * 10 ^ k ≠ 0 :=
      Nat.mul_ne_zero hn (Nat.pos_iff_ne_zero.mp (Nat.pow_pos (by decide)))
    have he : e - ((k + 1 : Nat) : Int) = e - k - 1 := by omega
    rw [he, Nat.pow_succ, ← Nat.mul_assoc, toDouble?_mul_ten negative hk, ih]

end Decimal

theorem stripZeros_spec (fuel n : Nat) (e : Int) :
    ∃ k : Nat, n = (stripZeros fuel n e).digits * 10 ^ k ∧
      e = (stripZeros fuel n e).exponent - k := by
  induction fuel generalizing n e with
  | zero => exact ⟨0, by simp [stripZeros]⟩
  | succ fuel ih =>
    rw [stripZeros]
    split
    · next h =>
      obtain ⟨k, hn, he⟩ := ih (n / 10) (e + 1)
      refine ⟨k + 1, ?_, by omega⟩
      rw [Nat.pow_succ, ← Nat.mul_assoc, ← hn]
      omega
    · exact ⟨0, by simp⟩

theorem toDouble?_stripZeros (negative : Bool) (fuel : Nat) {d : Decimal} (hd : d.digits ≠ 0) :
    (stripZeros fuel d.digits d.exponent).digits ≠ 0 ∧
      (stripZeros fuel d.digits d.exponent).toDouble? negative = d.toDouble? negative := by
  obtain ⟨n, e⟩ := d
  obtain ⟨k, hk, he⟩ := stripZeros_spec fuel n e
  have hs : (stripZeros fuel n e).digits ≠ 0 := by
    intro h
    rw [h, Nat.zero_mul] at hk
    exact hd hk
  have ht := Decimal.toDouble?_mul_pow negative hs (stripZeros fuel n e).exponent k
  rw [← hk, ← he] at ht
  exact ⟨hs, ht.symm⟩

/-! ### The shortest decimal -/

namespace Double

theorem ten_pow (k : Nat) : 10 ^ k = 5 ^ k * 2 ^ k := by rw [← Nat.mul_pow]

theorem two_pow_le_ten_pow {j k : Nat} (h : j ≤ 3 * k) : 2 ^ j ≤ 10 ^ k := by
  apply Nat.le_trans (Nat.pow_le_pow_right (by decide) h)
  rw [Nat.pow_mul]
  exact Nat.pow_le_pow_left (by decide) k

theorem ten_pow_le_five_pow {i j k : Nat} (hi : i = j + k) (h : i ≤ 3 * k) : 10 ^ j ≤ 5 ^ i := by
  apply Nat.le_of_mul_le_mul_right _ (Nat.two_pow_pos i)
  rw [← ten_pow, hi, Nat.pow_add 10]
  exact Nat.mul_le_mul_left _ (two_pow_le_ten_pow (hi ▸ h))

theorem mul_five_pow_lt_ten_pow {v : Nat} (i : Nat) {j k : Nat} (h : j ≤ 3 * k)
    (hv : v < 2 ^ (i + j)) : v * 5 ^ i < 10 ^ (i + k) := by
  calc v * 5 ^ i < 2 ^ (i + j) * 5 ^ i := Nat.mul_lt_mul_of_pos_right hv (Nat.pow_pos (by decide))
    _ = 10 ^ i * 2 ^ j := by rw [Nat.pow_add, ten_pow, Nat.mul_right_comm, Nat.mul_comm (2 ^ i)]
    _ ≤ 10 ^ i * 10 ^ k := Nat.mul_le_mul_left _ (two_pow_le_ten_pow h)
    _ = 10 ^ (i + k) := (Nat.pow_add 10 i k).symm

theorem ofRatio_mul_five_pow (negative : Bool) (v k : Nat) :
    ofRatio negative (v * 5 ^ k * 2 ^ k) (10 ^ k) = ofRatio negative v 1 := by
  rw [Nat.mul_assoc, ten_pow]
  exact ofRatio_mul_self negative (Nat.mul_pos (Nat.pow_pos (by decide)) (Nat.two_pow_pos k)) v

theorem exact_order {x : Double} (h : x.mantissa ≠ 0) :
    -400 ≤ (decimalLength x.exact.digits : Int) + x.exact.exponent ∧
      (decimalLength x.exact.digits : Int) + x.exact.exponent ≤ 400 := by
  obtain ⟨hm, hs, -⟩ := x.canonical
  have hlow : ¬ decimalLength x.exact.digits ≤ 716 := by
    rw [decimalLength_le_iff (by decide), Nat.not_lt]
    have h5 := ten_pow_le_five_pow (i := 1074) (j := 716) (k := 358) rfl (by decide)
    have hv : 1 ≤ x.magnitude := Nat.mul_pos (by omega) (Nat.two_pow_pos _)
    exact Nat.le_trans h5 (Nat.le_mul_of_pos_left _ hv)
  have hhigh : decimalLength x.exact.digits ≤ 1074 + 342 := by
    rw [decimalLength_le_iff (by decide)]
    apply mul_five_pow_lt_ten_pow (j := 1026) 1074 (by decide)
    calc x.magnitude < 2 ^ 53 * 2 ^ x.scale := Nat.mul_lt_mul_of_pos_right hm (Nat.two_pow_pos _)
      _ = 2 ^ (53 + x.scale) := (Nat.pow_add 2 53 x.scale).symm
      _ ≤ 2 ^ (1074 + 1026) := Nat.pow_le_pow_right (by decide) (by omega)
  have he : x.exact.exponent = -1074 := rfl
  omega

theorem isNearest_exact {x : Double} (h : x.mantissa ≠ 0) : x.isNearest x.exact = true := by
  have hv : x.magnitude ≠ 0 := Nat.mul_ne_zero h (Nat.pos_iff_ne_zero.mp (Nat.two_pow_pos _))
  have hp (k : Nat) : x.magnitude * 5 ^ k ≠ 0 :=
    Nat.mul_ne_zero hv (Nat.pos_iff_ne_zero.mp (Nat.pow_pos (by decide)))
  have hd : x.exact.digits ≠ 0 := hp 1074
  have he : x.exact.exponent = -1074 := rfl
  obtain ⟨hlow, hhigh⟩ := exact_order h
  have ht : x.exact.toDouble? x.negative = some x := by
    rw [Decimal.toDouble?, if_neg (by omega), if_neg (by omega), if_neg (by omega),
      ← ofRatio_magnitude, ← ofRatio_mul_five_pow _ _ 1074]
    rfl
  rw [isNearest, ht]
  exact beq_self_eq_true _

theorem toDouble?_shortest {x : Double} (h : x.mantissa ≠ 0) :
    x.shortest.digits ≠ 0 ∧ x.shortest.toDouble? x.negative = some x := by
  have hr : x.isNearest x.shortest = true := by
    unfold shortest
    cases hf : (List.range 17).findSome? fun n => (x.neighbours (n + 1)).find? x.isNearest with
    | none => exact isNearest_exact h
    | some d =>
      obtain ⟨n, -, hn⟩ := List.exists_of_findSome?_eq_some hf
      exact List.find?_some hn
  have ht : x.shortest.toDouble? x.negative = some x := eq_of_beq hr
  refine ⟨fun h0 => ?_, ht⟩
  rw [Decimal.toDouble?, if_pos (.inl h0)] at ht
  exact h (congrArg mantissa (Option.some.inj ht)).symm

end Double

/-! ### The quick way -/

namespace Double

theorem exists_magnitude (negative : Bool) {n scale : Nat} (hn : n < 2 ^ 53) (hs : scale ≤ 2045) :
    ∃ x : Double, x.negative = negative ∧ x.magnitude = n * 2 ^ scale := by
  induction scale generalizing n with
  | zero => exact ⟨⟨negative, n, 0, hn, by decide, .inr rfl⟩, rfl, rfl⟩
  | succ scale ih =>
    by_cases h : 2 ^ 52 ≤ n
    · exact ⟨⟨negative, n, scale + 1, hn, hs, .inl h⟩, rfl, rfl⟩
    · -- one bit is free, and the scale may be smaller by one
      obtain ⟨x, hx, hm⟩ := ih (n := n * 2) (by omega) (by omega)
      exact ⟨x, hx, by rw [hm, Nat.pow_succ', Nat.mul_assoc]⟩

theorem exists_ofRatio (negative : Bool) {n scale : Nat} (hn : n < 2 ^ 53) (hs : scale ≤ 2045) :
    ∃ x : Double, ofRatio negative (n * 2 ^ scale) 1 = some x ∧ x.negative = negative ∧
      x.magnitude = n * 2 ^ scale := by
  obtain ⟨x, rfl, hm⟩ := exists_magnitude negative hn hs
  exact ⟨x, hm ▸ ofRatio_magnitude x, rfl, hm⟩

theorem exists_tenPow {k : Nat} (hk : k ≤ 22) :
    ∃ x : Double, Decimal.toDouble? false ⟨1, k⟩ = some x ∧ x.magnitude = 10 ^ k * 2 ^ 1074 := by
  have h5 : 5 ^ k < 2 ^ 53 :=
    Nat.lt_of_le_of_lt (Nat.pow_le_pow_right (by decide) hk) (by decide : 5 ^ 22 < 2 ^ 53)
  have hten : 10 ^ k * 2 ^ 1074 = 5 ^ k * 2 ^ (k + 1074) := by
    rw [ten_pow, Nat.pow_add, Nat.mul_assoc]
  have hscale : k + 1074 ≤ 2045 := by omega
  obtain ⟨x, hx, -, hm⟩ := exists_ofRatio false h5 hscale
  have hlength : decimalLength 1 = 1 := by decide
  refine ⟨x, ?_, hm.trans hten.symm⟩
  rw [Decimal.toDouble?, if_neg (by simp only [hlength]; omega),
    if_neg (by simp only [hlength]; omega), if_pos (by simp)]
  simpa only [Nat.one_mul, Int.toNat_natCast, hten] using hx

end Double

/-- The quick way is exact for digits of 53 bits and powers of ten up to `10 ^ 22`. -/
theorem Decimal.read?_eq_toDouble? (negative : Bool) {d : Decimal} (h0 : d.digits ≠ 0)
    (hd : d.digits < 2 ^ 53) (he : d.exponent.natAbs ≤ 22) :
    d.read? negative = d.toDouble? negative := by
  have hlow : 0 < decimalLength d.digits := by
    rw [Nat.pos_iff_ne_zero, decimalLength, if_neg h0]
    simpa using Text.decimalChars_ne_nil d.digits
  have hhigh : decimalLength d.digits ≤ 16 :=
    (decimalLength_le_iff (by decide)).mpr (Nat.lt_trans hd (by decide))
  obtain ⟨x, hx, rfl, hm⟩ := Double.exists_ofRatio negative hd (by decide : 1074 ≤ 2045)
  have hsmall : ¬(d.digits = 0 ∨ (decimalLength d.digits : Int) + d.exponent < -400) := by omega
  have hlarge : ¬400 < (decimalLength d.digits : Int) + d.exponent := by omega
  rw [toDouble?, if_neg hsmall, if_neg hlarge, read?, hx, Option.bind_eq_bind, Option.bind_some,
    if_neg (by omega)]
  by_cases hpos : 0 ≤ d.exponent
  · obtain ⟨power, hp, hpm⟩ := Double.exists_tenPow (k := d.exponent.toNat) (by omega)
    rw [if_pos hpos, if_pos hpos, Double.timesTenPow, hp, Option.bind_eq_bind, Option.bind_some,
      hm, hpm, ← Nat.mul_assoc, Nat.mul_right_comm d.digits]
    exact Double.ofRatio_mul_self x.negative (Nat.two_pow_pos 1074) _
  · obtain ⟨power, hp, hpm⟩ := Double.exists_tenPow (k := (-d.exponent).toNat) (by omega)
    have hone : ((-d.exponent).toNat - 1) / 308 = 0 := by omega
    rw [if_neg hpos, if_neg hpos]
    simp only [hone, Nat.zero_mul, Nat.sub_zero, Double.shrink]
    rw [Double.overTenPow, hp, Option.bind_eq_bind, Option.bind_some, hm, hpm]
    exact Double.ofRatio_mul_right x.negative (Nat.two_pow_pos 1074) _ _

end NativeUi
