import Mathlib.Algebra.Order.Field.Power
import Mathlib.Tactic.Ring
import SafePath.Number.Binary64
import SafePath.Proofs.Number.Rounding

/-!
# Numbers that are not rounded

A number `a / 2 ^ s` with at most 53 binary digits in `a` has a place among the 64-bit numbers, so the
rounding of an exact result leaves it as it is:

    ofRatio num den  is exactly  num / den,  if  num / den * 2 ^ s = a < 2 ^ 53     (isExactly_ofRatio)

This holds of whole numbers (`isExactly_ofInt`) and of their quotients by powers of two (`IsExactly.div`).
What is written with some places is then rounded once, from the exact value (`IsExactly.fixed`).
-/

namespace SafePath.Binary64

/-- `x` is the number `q`, without a minus sign. -/
def IsExactly (x : Binary64) (q : ℚ) : Prop := ∃ m e, x = .finite false m e ∧ (m : ℚ) * 2 ^ e = q

theorem powerOfTwo_pos (k : ℤ) : 0 < (powerOfTwo k).1 ∧ 0 < (powerOfTwo k).2 :=
  ⟨Nat.pow_pos (by decide), Nat.pow_pos (by decide)⟩

theorem powerOfTwo_eq (k : ℤ) : ((powerOfTwo k).1 : ℚ) / (powerOfTwo k).2 = 2 ^ k := by
  unfold powerOfTwo
  rcases Int.le_total 0 k with h | h
  · obtain ⟨n, rfl⟩ := Int.eq_ofNat_of_zero_le h
    simp
  · obtain ⟨n, hn⟩ := Int.eq_ofNat_of_zero_le (Int.neg_nonneg_of_nonpos h)
    obtain rfl : k = -n := by omega
    simp

theorem magnitude_pos (m : ℕ) (e : ℤ) : 0 < (magnitude m e).2 := (powerOfTwo_pos e).2

theorem magnitude_eq (m : ℕ) (e : ℤ) : ((magnitude m e).1 : ℚ) / (magnitude m e).2 = m * 2 ^ e := by
  rw [← powerOfTwo_eq, ← mul_div_assoc]
  simp only [magnitude, Nat.cast_mul]

/-- A ratio is not below the power of two that its logarithm gives. -/
theorem floorLog2_le {num den : ℕ} (hnum : 0 < num) (hden : 0 < den) :
    (2 : ℚ) ^ floorLog2 num den ≤ num / den := by
  have hpos : (0 : ℚ) < den := by exact_mod_cast hden
  unfold floorLog2
  simp only
  generalize hk : (num.log2 : ℤ) - den.log2 = k
  split
  · have hlow : (2 : ℚ) ^ num.log2 ≤ num := by exact_mod_cast Nat.log2_self_le hnum.ne'
    have hhigh : (den : ℚ) ≤ 2 ^ (den.log2 + 1) := by exact_mod_cast Nat.lt_log2_self.le
    calc (2 : ℚ) ^ (k - 1) = 2 ^ num.log2 / 2 ^ (den.log2 + 1) := by
          rw [show k - 1 = (num.log2 : ℤ) - (den.log2 + 1 : ℕ) by omega, zpow_sub₀ two_ne_zero,
            zpow_natCast, zpow_natCast]
      _ ≤ num / den := div_le_div₀ (by positivity) hlow hpos hhigh
  · next hle =>
    have hdown : (0 : ℚ) < (powerOfTwo k).2 := by exact_mod_cast (powerOfTwo_pos k).2
    rw [← powerOfTwo_eq, div_le_div_iff₀ hdown hpos]
    have : den * (powerOfTwo k).1 ≤ num * (powerOfTwo k).2 := Nat.le_of_not_lt hle
    rw [mul_comm]
    exact_mod_cast this

theorem floorLog2_le_log2 (num den : ℕ) : floorLog2 num den ≤ num.log2 := by
  unfold floorLog2
  simp only
  split
  · omega
  · omega

/-- A ratio has a place among the finite numbers as long as its numerator has. -/
theorem isFinite_ofRatio {num : ℕ} (h : num < 2 ^ 256) (negative : Bool) (den : ℕ) :
    (ofRatio negative num den).isFinite = true := by
  unfold ofRatio
  split
  · rfl
  next hne =>
  have hlog : num.log2 < 256 := (Nat.log2_lt hne).mpr h
  have hexponent := floorLog2_le_log2 num den
  simp only
  rw [if_neg (by omega)]
  rfl

/-- **A ratio with at most 53 binary digits is not rounded.** -/
theorem isExactly_ofRatio {num den a s : ℕ} (hden : 0 < den) (h : (num : ℚ) / den * 2 ^ s = a)
    (ha : a < 2 ^ 53) (hs : s ≤ 1074) : IsExactly (ofRatio false num den) (num / den) := by
  unfold ofRatio
  split
  · next hzero => exact ⟨0, 0, rfl, by rw [hzero]; simp⟩
  next hne =>
  have hratio : (num : ℚ) / den = a * 2 ^ (-s : ℤ) := by
    rw [zpow_neg, zpow_natCast, ← h]
    field_simp
  have hlog : floorLog2 num den < 53 - s := by
    have hlt : (2 : ℚ) ^ floorLog2 num den < 2 ^ (53 - s : ℤ) := by
      refine lt_of_le_of_lt (floorLog2_le (Nat.pos_of_ne_zero hne) hden) ?_
      rw [hratio, sub_eq_add_neg, zpow_add₀ two_ne_zero]
      have : (a : ℚ) < 2 ^ (53 : ℤ) := by exact_mod_cast ha
      gcongr
    exact (zpow_lt_zpow_iff_right₀ one_lt_two).mp hlt
  -- the last digit of the mantissa stands for `2 ^ exponent`, which divides the ratio
  have hexponent : max (floorLog2 num den - 52) (-1074) ≤ -(s : ℤ) := by omega
  generalize max (floorLog2 num den - 52) (-1074) = exponent at *
  obtain ⟨t, ht⟩ := Int.eq_ofNat_of_zero_le (show 0 ≤ -(s : ℤ) - exponent by omega)
  have hwhole : (num : ℚ) / den = (a * 2 ^ t : ℕ) * 2 ^ exponent := by
    rw [hratio, show -(s : ℤ) = t + exponent by omega, zpow_add₀ two_ne_zero, zpow_natCast]
    push_cast
    ring
  have hdigits : roundDiv (num * (powerOfTwo exponent).2) (den * (powerOfTwo exponent).1) = a * 2 ^ t := by
    rw [roundDiv_eq_iff (Nat.mul_pos hden (powerOfTwo_pos exponent).1)]
    have hquotient : ((num * (powerOfTwo exponent).2 : ℕ) : ℚ) / (den * (powerOfTwo exponent).1 : ℕ) =
        (a * 2 ^ t : ℕ) := by
      have hpow : (0 : ℚ) < 2 ^ exponent := by positivity
      rw [← mul_div_cancel_right₀ ((a * 2 ^ t : ℕ) : ℚ) hpow.ne', ← hwhole, ← powerOfTwo_eq, div_div_div_eq]
      push_cast
      rfl
    rw [hquotient]
    exact isNearest_natCast _
  simp only
  rw [if_neg (by omega), hdigits]
  exact ⟨_, _, rfl, hwhole.symm⟩

theorem isExactly_ofInt {n : ℕ} (hn : n < 2 ^ 53) : IsExactly (ofInt n) n := by
  have h : IsExactly (ofRatio false n 1) ((n : ℚ) / (1 : ℕ)) :=
    isExactly_ofRatio Nat.one_pos (by simp) hn (Nat.zero_le _)
  rw [Nat.cast_one, div_one] at h
  have hsign : decide ((n : ℤ) < 0) = false := by simp
  rwa [ofInt, hsign, Int.natAbs_natCast]

/-- A quotient with at most 53 binary digits is not rounded. -/
theorem IsExactly.div {x y : Binary64} {p q : ℚ} {a s : ℕ} (hx : IsExactly x p) (hy : IsExactly y q) (hq : q ≠ 0)
    (h : p / q * 2 ^ s = a) (ha : a < 2 ^ 53) (hs : s ≤ 1074) : IsExactly (x.div y) (p / q) := by
  obtain ⟨m, e, rfl, hp⟩ := hx
  obtain ⟨n, f, rfl, rfl⟩ := hy
  have hn : n ≠ 0 := by
    rintro rfl
    simp at hq
  have hden : 0 < (magnitude m e).2 * (magnitude n f).1 :=
    Nat.mul_pos (magnitude_pos m e) (Nat.mul_pos (Nat.pos_of_ne_zero hn) (powerOfTwo_pos f).1)
  have hquotient : (((magnitude m e).1 * (magnitude n f).2 : ℕ) : ℚ) / ((magnitude m e).2 * (magnitude n f).1 : ℕ) =
      p / (n * 2 ^ f) := by
    rw [← hp, ← magnitude_eq, ← magnitude_eq, div_div_div_eq]
    push_cast
    rfl
  rw [← hquotient] at h ⊢
  simp only [Binary64.div, if_neg hn]
  exact isExactly_ofRatio hden h ha hs

/-- What is written is rounded from the exact value. -/
theorem IsExactly.fixed {x : Binary64} {q : ℚ} (hx : IsExactly x q) (places : ℕ) :
    ∃ n, IsNearest (q * 10 ^ places) n ∧ x.fixed places = Numeral.withPlaces places n := by
  obtain ⟨m, e, rfl, rfl⟩ := hx
  refine ⟨roundDiv ((magnitude m e).1 * Nat.pow 10 places) (magnitude m e).2, ?_, rfl⟩
  have h := isNearest_roundDiv ((magnitude m e).1 * Nat.pow 10 places) (magnitude_pos m e)
  rw [Nat.cast_mul, mul_div_right_comm, magnitude_eq] at h
  simpa using h

end SafePath.Binary64
