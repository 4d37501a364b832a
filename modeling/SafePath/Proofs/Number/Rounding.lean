import Mathlib.Algebra.Order.Archimedean.Basic
import Mathlib.Algebra.Order.Field.Basic
import Mathlib.Data.Rat.Cast.Order
import Mathlib.Tactic.FieldSimp
import Mathlib.Tactic.Linarith
import SafePath.Number.Binary64

/-!
# The nearest whole number

`IsNearest x n`: the whole number `n` is nearest to the rational `x`, and even if another one is as near.
There is one such number only, and it grows with `x`; `roundDiv` finds it.

    roundDiv num den = n  exactly if  IsNearest (num / den) n        (roundDiv_eq_iff)
-/

namespace SafePath

/-- The whole number nearest to `x`, of two equally near ones the even one. -/
structure IsNearest (x : ℚ) (n : ℕ) : Prop where
  within : |x - n| ≤ 1 / 2
  tie : |x - n| = 1 / 2 → Even n

/-- **A larger number is not rounded to a smaller one.** -/
theorem IsNearest.mono {x y : ℚ} {m n : ℕ} (hm : IsNearest x m) (hn : IsNearest y n) (hle : x ≤ y) : m ≤ n := by
  by_contra hlt
  have hgap : (n : ℚ) + 1 ≤ m := by exact_mod_cast Nat.lt_of_not_ge hlt
  have hx := abs_le.mp hm.within
  have hy := abs_le.mp hn.within
  -- both lie half way between two neighbours, of which one only is even
  have hmx : |x - m| = 1 / 2 := by
    rw [abs_of_nonpos (by linarith)]
    linarith
  have hny : |y - n| = 1 / 2 := by
    rw [abs_of_nonneg (by linarith)]
    linarith
  have hnext : m = n + 1 := by
    have : (m : ℚ) = n + 1 := by linarith
    exact_mod_cast this
  have heven := hm.tie hmx
  rw [hnext, Nat.even_add_one] at heven
  exact heven (hn.tie hny)

theorem IsNearest.unique {x : ℚ} {m n : ℕ} (hm : IsNearest x m) (hn : IsNearest x n) : m = n :=
  Nat.le_antisymm (hm.mono hn le_rfl) (hn.mono hm le_rfl)

theorem isNearest_natCast (n : ℕ) : IsNearest n n where
  within := by norm_num
  tie h := by norm_num at h

theorem isNearest_roundDiv (num : ℕ) {den : ℕ} (hden : 0 < den) :
    IsNearest ((num : ℚ) / den) (roundDiv num den) := by
  have hpos : (0 : ℚ) < den := by exact_mod_cast hden
  have hsplit : (num : ℚ) / den - (num / den : ℕ) = (num % den : ℕ) / den := by
    rw [eq_div_iff hpos.ne', sub_mul, div_mul_cancel₀ _ hpos.ne']
    have : (num : ℚ) = (den * (num / den) + num % den : ℕ) := by rw [Nat.div_add_mod]
    rw [this]
    push_cast
    ring
  have hmod := Nat.mod_lt num hden
  unfold roundDiv
  generalize num / den = q at *
  generalize num % den = r at *
  generalize (num : ℚ) / den = x at *
  simp only
  split
  · next hlow =>
    have hr : (r : ℚ) / den < 1 / 2 := by
      rw [div_lt_iff₀ hpos]
      have : (2 * r : ℚ) < den := by exact_mod_cast hlow
      linarith
    have habs : |x - q| < 1 / 2 := by rwa [hsplit, abs_of_nonneg (by positivity)]
    exact ⟨habs.le, fun h => absurd h habs.ne⟩
  split
  · next _ hhigh =>
    have hr : 1 / 2 < (r : ℚ) / den := by
      rw [lt_div_iff₀ hpos]
      have : (den : ℚ) < 2 * r := by exact_mod_cast hhigh
      linarith
    have hone : (r : ℚ) / den < 1 := by
      rw [div_lt_one hpos]
      exact_mod_cast hmod
    have habs : |x - (q + 1 : ℕ)| < 1 / 2 := by
      push_cast
      rw [abs_of_nonpos (by linarith)]
      linarith
    exact ⟨habs.le, fun h => absurd h habs.ne⟩
  · next hlow hhigh =>
    have hr : (r : ℚ) / den = 1 / 2 := by
      rw [div_eq_iff hpos.ne']
      have : (2 * r : ℚ) = den := by exact_mod_cast (show 2 * r = den by omega)
      linarith
    rw [hr] at hsplit
    rcases Nat.even_or_odd q with heven | hodd
    · rw [Nat.even_iff.mp heven, Nat.add_zero]
      refine ⟨?_, fun _ => heven⟩
      rw [hsplit]
      norm_num
    · rw [Nat.odd_iff.mp hodd]
      refine ⟨?_, fun _ => hodd.add_one⟩
      push_cast
      rw [abs_of_nonpos (by linarith)]
      linarith

/-- **A rounded quotient is the nearest whole number.** -/
theorem roundDiv_eq_iff {num den n : ℕ} (hden : 0 < den) :
    roundDiv num den = n ↔ IsNearest ((num : ℚ) / den) n := by
  constructor
  · rintro rfl
    exact isNearest_roundDiv num hden
  · exact (isNearest_roundDiv num hden).unique

end SafePath
