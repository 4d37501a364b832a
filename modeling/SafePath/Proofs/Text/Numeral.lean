import Mathlib.Algebra.Ring.Nat
import Mathlib.Data.List.Basic
import SafePath.Number.Literal

/-!
# Written numbers

`IsDecimal places t n` says from the text alone that `t` is a number with so many decimal places: digits, a
point, more digits, and no zero in front that could be left out.  `n` counts the units of its last place, which
the text determines (`IsDecimal.unique`).

    IsDecimal places (withPlaces places n) n        (isDecimal_withPlaces)
-/

namespace SafePath

namespace Literal

theorem foldl_digits (base : ℕ) (ds : List ℕ) (n : ℕ) :
    ds.foldl (fun n d => n * base + d) n = n * base ^ ds.length + valueOf base ds := by
  unfold valueOf
  induction ds generalizing n with
  | nil => simp
  | cons d ds ih =>
    rw [List.foldl_cons, ih, List.foldl_cons, ih (0 * base + d), List.length_cons, Nat.pow_succ']
    simp only [Nat.zero_mul, Nat.zero_add, Nat.add_mul, Nat.mul_assoc, Nat.add_assoc]

theorem valueOf_append (base : ℕ) (ds es : List ℕ) :
    valueOf base (ds ++ es) = valueOf base ds * base ^ es.length + valueOf base es := by
  rw [valueOf, List.foldl_append, foldl_digits]
  rfl

theorem valueOf_replicate_zero (base k : ℕ) : valueOf base (List.replicate k 0) = 0 := by
  induction k with
  | zero => rfl
  | succ k ih =>
    rw [List.replicate_succ', valueOf_append, ih]
    simp [valueOf]

end Literal

namespace Numeral

/-- Digits below ten as they are written. -/
def written (ds : List ℕ) : Text := ds.map fun d => CodePoint.ofChar (Nat.digitChar d)

/-- `t` is a number with `places` decimal places, in all `n` units of the last of them. -/
def IsDecimal (places : ℕ) (t : Text) (n : ℕ) : Prop :=
  ∃ whole fraction : List ℕ, t = written whole ++ "." ++ written fraction ∧ (∀ d ∈ whole ++ fraction, d < 10) ∧
    whole ≠ [] ∧ (whole.head? = some 0 → whole = [0]) ∧ fraction.length = places ∧
    Literal.valueOf 10 (whole ++ fraction) = n

/-! ## Digits -/

section
variable {base : ℕ}

theorem digits_of_lt {n : ℕ} (h : n < base) : digits base n = [n] := by
  rw [digits, if_neg (by omega)]

theorem digits_of_le {n : ℕ} (hbase : 2 ≤ base) (h : base ≤ n) :
    digits base n = digits base (n / base) ++ [n % base] := by
  rw [digits, if_pos ⟨hbase, h⟩]

/-- Induction over the digits of a number from the right. -/
theorem digits_induction (hbase : 2 ≤ base) {motive : ℕ → Prop} (small : ∀ n < base, motive n)
    (large : ∀ n, base ≤ n → motive (n / base) → motive n) (n : ℕ) : motive n := by
  induction n using Nat.strongRecOn with
  | ind n ih =>
    rcases Nat.lt_or_ge n base with h | h
    · exact small n h
    · exact large n h (ih _ (Nat.div_lt_self (by omega) hbase))

theorem digits_lt (hbase : 2 ≤ base) (n : ℕ) : ∀ d ∈ digits base n, d < base := by
  induction n using digits_induction hbase with
  | small n h =>
    rw [digits_of_lt h, List.forall_mem_singleton]
    exact h
  | large n h ih =>
    rw [digits_of_le hbase h, List.forall_mem_append, List.forall_mem_singleton]
    exact ⟨ih, Nat.mod_lt n (by omega)⟩

theorem valueOf_digits (hbase : 2 ≤ base) (n : ℕ) : Literal.valueOf base (digits base n) = n := by
  induction n using digits_induction hbase with
  | small n h =>
    rw [digits_of_lt h]
    simp [Literal.valueOf]
  | large n h ih =>
    rw [digits_of_le hbase h, Literal.valueOf_append, ih, List.length_singleton, Nat.pow_one]
    simp only [Literal.valueOf, List.foldl_cons, List.foldl_nil, Nat.zero_mul, Nat.zero_add]
    exact Nat.div_add_mod' n base

theorem digits_ne_nil (hbase : 2 ≤ base) (n : ℕ) : digits base n ≠ [] := by
  induction n using digits_induction hbase with
  | small n h =>
    rw [digits_of_lt h]
    exact List.cons_ne_nil _ _
  | large n h ih =>
    rw [digits_of_le hbase h]
    exact List.append_ne_nil_of_left_ne_nil ih _

/-- Only zero is written with a zero in front. -/
theorem eq_zero_of_head?_digits (hbase : 2 ≤ base) (n : ℕ) (hzero : (digits base n).head? = some 0) : n = 0 := by
  induction n using digits_induction hbase with
  | small n h =>
    rw [digits_of_lt h] at hzero
    exact Option.some.inj hzero
  | large n h ih =>
    rw [digits_of_le hbase h, List.head?_append_of_ne_nil _ (digits_ne_nil hbase _)] at hzero
    have := ih hzero
    have := Nat.div_pos h (by omega)
    omega

theorem length_digits_le (hbase : 2 ≤ base) {places : ℕ} (hplaces : 0 < places) {n : ℕ} (h : n < base ^ places) :
    (digits base n).length ≤ places := by
  induction n using digits_induction hbase generalizing places with
  | small n hlt =>
    rw [digits_of_lt hlt]
    exact hplaces
  | large n hle ih =>
    obtain ⟨places, rfl⟩ : ∃ k, places = k + 1 := ⟨places - 1, by omega⟩
    have hrest : n / base < base ^ places := by
      rw [Nat.div_lt_iff_lt_mul (by omega), ← Nat.pow_succ]
      exact h
    have hpos : 0 < places := by
      by_contra hnone
      obtain rfl : places = 0 := by omega
      have := Nat.div_pos hle (by omega)
      rw [Nat.pow_zero] at hrest
      omega
    rw [digits_of_le hbase hle, List.length_append, List.length_singleton]
    exact Nat.succ_le_succ (ih hpos hrest)

end

/-! ## Digits as text -/

theorem val_digitChar : ∀ d < 10, (CodePoint.ofChar (Nat.digitChar d)).val = 48 + d := by decide

theorem capitals_getD : ∀ d < 10, capitals.getD d '0' = Nat.digitChar d := by decide

theorem written_append (ds es : List ℕ) : written (ds ++ es) = written ds ++ written es := List.map_append

/-- The digits can be read off. -/
theorem map_val_written {ds : List ℕ} (h : ∀ d ∈ ds, d < 10) : (written ds).map (fun c => c.val - 48) = ds := by
  rw [written, List.map_map]
  conv => rhs; rw [← List.map_id ds]
  refine List.map_congr_left fun d hd => ?_
  rw [Function.comp_apply, val_digitChar d (h d hd), Nat.add_sub_cancel_left, id]

theorem le_val_of_mem_written {ds : List ℕ} (h : ∀ d ∈ ds, d < 10) {c : CodePoint} (hc : c ∈ written ds) :
    48 ≤ c.val := by
  obtain ⟨d, hd, rfl⟩ := List.mem_map.mp hc
  rw [val_digitChar d (h d hd)]
  omega

theorem decimal_eq_written (n : ℕ) : decimal n = written (digits 10 n) :=
  List.map_congr_left fun d hd => by rw [capitals_getD d (digits_lt (by decide) n d hd)]

theorem padLeft_written (width : ℕ) (ds : List ℕ) :
    padLeft width (written ds) = written (List.replicate (width - ds.length) 0 ++ ds) := by
  rw [written_append, padLeft, written, List.length_map, written, List.map_replicate]
  rfl

/-! ## Decimal fractions -/

theorem isDecimal_withPlaces {places : ℕ} (hplaces : 0 < places) (n : ℕ) :
    IsDecimal places (withPlaces places n) n := by
  have hmod : n % 10 ^ places < 10 ^ places := Nat.mod_lt n (Nat.pow_pos (by decide))
  have hlength := length_digits_le (by decide) hplaces hmod
  refine ⟨digits 10 (n / 10 ^ places),
    List.replicate (places - (digits 10 (n % 10 ^ places)).length) 0 ++ digits 10 (n % 10 ^ places),
    ?_, ?_, digits_ne_nil (by decide) _, fun hzero => ?_, ?_, ?_⟩
  · rw [← padLeft_written, ← decimal_eq_written, ← decimal_eq_written]
    rfl
  · simp only [List.forall_mem_append]
    refine ⟨digits_lt (by decide) _, fun d hd => ?_, digits_lt (by decide) _⟩
    rw [List.eq_of_mem_replicate hd]
    decide
  · rw [eq_zero_of_head?_digits (by decide) _ hzero]
    exact digits_of_lt (by decide)
  · rw [List.length_append, List.length_replicate]
    omega
  · rw [Literal.valueOf_append, Literal.valueOf_append, valueOf_digits (by decide), valueOf_digits (by decide),
      Literal.valueOf_replicate_zero, List.length_append, List.length_replicate, Nat.sub_add_cancel hlength,
      Nat.zero_mul, Nat.zero_add]
    exact Nat.div_add_mod' n (10 ^ places)

theorem IsDecimal.le_val_of_mem {places : ℕ} {t : Text} {n : ℕ} (h : IsDecimal places t n) {c : CodePoint}
    (hc : c ∈ t) : 46 ≤ c.val := by
  obtain ⟨whole, fraction, rfl, hdigits, -⟩ := h
  rw [List.forall_mem_append] at hdigits
  rw [List.append_assoc, List.mem_append, List.mem_append] at hc
  rcases hc with hc | hc | hc
  · have := le_val_of_mem_written hdigits.1 hc
    omega
  · rw [List.mem_singleton.mp hc]
    decide
  · have := le_val_of_mem_written hdigits.2 hc
    omega

/-- A text is one number at most. -/
theorem IsDecimal.unique {places places' : ℕ} {t : Text} {m n : ℕ} (hm : IsDecimal places t m)
    (hn : IsDecimal places' t n) : m = n := by
  obtain ⟨whole, fraction, ht, hdigits, -, -, -, rfl⟩ := hm
  obtain ⟨whole', fraction', ht', hdigits', -, -, -, rfl⟩ := hn
  rw [List.forall_mem_append] at hdigits hdigits'
  have hpoint : ∀ {ds : List ℕ}, (∀ d ∈ ds, d < 10) → CodePoint.ofChar '.' ∉ written ds := fun h hmem =>
    absurd (le_val_of_mem_written h hmem) (by decide)
  have hsplit : written whole ++ CodePoint.ofChar '.' :: written fraction =
      written whole' ++ CodePoint.ofChar '.' :: written fraction' := by
    simpa [Text.ofString] using ht.symm.trans ht'
  rw [List.append_cons_inj_of_notMem (hpoint hdigits.1) (hpoint hdigits.2)] at hsplit
  obtain ⟨hwhole, -, hfraction⟩ := hsplit
  rw [← map_val_written hdigits.1, ← map_val_written hdigits.2, hwhole, hfraction, map_val_written hdigits'.1,
    map_val_written hdigits'.2]

end Numeral

end SafePath
