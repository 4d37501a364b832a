import SafePath.Proofs.Number.Binary64
import SafePath.Proofs.Text.Numeral
import SafePath.Size

/-!
# What a size shows

A size is shown in the unit that it fits (`Fits`), as a number with two decimal places (`Shows`).  Below `2 ^ 53`
the quotient of a size and its unit is not rounded, so the places are rounded once:

    hundredths is nearest to  n / 1024 ^ power * 100                      (exists_format?)
    what a larger size shows is not less, over the units too              (shownBytes_mono)
    1024.00 is shown from  1023.995 * 1024 ^ power  on, and no more       (hundredths_le, hundredths_eq_iff)
-/

namespace SafePath.Size

/-- `u` is the unit for `n` bytes: it does not exceed them, and the next larger one does. -/
def Fits (n : ℕ) (u : Scale) : Prop := (u = .b ∨ 1024 ^ u.power ≤ n) ∧ (u = .tib ∨ n < 1024 ^ (u.power + 1))

/-- `t` is a number with two decimal places, in all `hundredths` hundredths, and behind a blank the unit `u`. -/
def Shows (t : Text) (hundredths : ℕ) (u : Scale) : Prop :=
  ∃ number, Numeral.IsDecimal 2 number hundredths ∧ t = number ++ " " ++ Text.ofString u.symbol

/-- The bytes that are shown, as an exact number. -/
def shownBytes (hundredths : ℕ) (u : Scale) : ℚ := hundredths / 100 * 1024 ^ u.power

/-! ## The unit -/

/-- The unit that is chosen is the one that fits. -/
theorem fits_iff (n : ℕ) (u : Scale) : Fits n u ↔ u = scaleWhere fun bound => n < bound := by
  have hscale : scaleWhere (fun bound => n < bound) =
      if n < 1024 then .b else if n < 1048576 then .kib else if n < 1073741824 then .mib
      else if n < 1099511627776 then .gib else .tib := by
    simp only [scaleWhere, Scale.bytes, Scale.power, List.find?_cons, List.find?_nil]
    split_ifs <;> simp [*]
  rw [hscale]
  unfold Fits
  split_ifs <;> cases u <;> simp [Scale.power] <;> omega

theorem Fits.power_le {m n : ℕ} {u v : Scale} (hm : Fits m u) (hn : Fits n v) (hle : m ≤ n) : u.power ≤ v.power := by
  by_contra hlt
  have hstep : 1024 ^ (v.power + 1) ≤ 1024 ^ u.power := Nat.pow_le_pow_right (by decide) (by omega)
  rcases hm.1 with rfl | hlow
  · exact hlt (Nat.zero_le _)
  rcases hn.2 with rfl | hhigh
  · cases u <;> simp [Scale.power] at hlt
  · omega

theorem Scale.power_injective : Function.Injective Scale.power := by
  intro u v h
  cases u <;> cases v <;> first | rfl | cases h

/-! ## The text -/

theorem Scale.blank_not_mem_symbol (u : Scale) : CodePoint.ofChar ' ' ∉ Text.ofString u.symbol := by
  cases u <;> decide

theorem Scale.symbol_injective : Function.Injective fun u : Scale => Text.ofString u.symbol := by
  intro u v h
  cases u <;> cases v <;> first | rfl | exact absurd h (by decide)

/-- A number that is written with two places shows so many hundredths. -/
theorem Shows.of_withPlaces {t : Text} {hundredths : ℕ} {u : Scale}
    (h : Numeral.withPlaces 2 hundredths ++ " " ++ Text.ofString u.symbol = t) : Shows t hundredths u :=
  ⟨_, Numeral.isDecimal_withPlaces (by decide) hundredths, h.symm⟩

/-- A text shows one number and one unit at most. -/
theorem Shows.unique {t : Text} {h k : ℕ} {u v : Scale} (hu : Shows t h u) (hv : Shows t k v) : h = k ∧ u = v := by
  obtain ⟨number, hnumber, ht⟩ := hu
  obtain ⟨number', hnumber', ht'⟩ := hv
  have hblank : CodePoint.ofChar ' ' ∉ number := fun hmem => absurd (hnumber.le_val_of_mem hmem) (by decide)
  have hsplit : number ++ CodePoint.ofChar ' ' :: Text.ofString u.symbol =
      number' ++ CodePoint.ofChar ' ' :: Text.ofString v.symbol := by
    rw [ht, List.append_assoc, List.append_assoc] at ht'
    exact ht'
  rw [List.append_cons_inj_of_notMem hblank u.blank_not_mem_symbol] at hsplit
  obtain ⟨rfl, -, hsymbol⟩ := hsplit
  exact ⟨hnumber.unique hnumber', Scale.symbol_injective hsymbol⟩

theorem Shows.iff {t : Text} {h : ℕ} {u : Scale} (hu : Shows t h u) (k : ℕ) (v : Scale) :
    Shows t k v ↔ k = h ∧ v = u := by
  constructor
  · exact fun hv => hv.unique hu
  · rintro ⟨rfl, rfl⟩
    exact hu

/-! ## The quotient -/

theorem isExactly_bytes (u : Scale) : Binary64.IsExactly (Binary64.ofInt u.bytes) (1024 ^ u.power) := by
  have h : Binary64.IsExactly (Binary64.ofInt u.bytes) u.bytes := Binary64.isExactly_ofInt (by cases u <;> decide)
  have hbytes : (u.bytes : ℚ) = 1024 ^ u.power := by simp [Scale.bytes]
  rwa [hbytes] at h

/-- A unit is a power of two, so the size in it has as many binary digits as the size. -/
theorem isExactly_quotient {n : ℕ} (hn : n < 2 ^ 53) (u : Scale) :
    Binary64.IsExactly ((Binary64.ofInt n).div (Binary64.ofInt u.bytes)) (n / 1024 ^ u.power) := by
  have hpow : (2 : ℚ) ^ (10 * u.power) = 1024 ^ u.power := by
    rw [pow_mul]
    norm_num
  have hwhole : (n : ℚ) / 1024 ^ u.power * 2 ^ (10 * u.power) = n := by
    rw [hpow, div_mul_cancel₀ _ (by positivity)]
  exact (Binary64.isExactly_ofInt hn).div (isExactly_bytes u) (by positivity) hwhole hn (by cases u <;> decide)

theorem toBinary64?_count {n : ℤ} (hn : n.natAbs < 2 ^ 53) :
    (Quantity.count n).toBinary64? = some (Binary64.ofInt n.natAbs) := by
  obtain ⟨m, e, hfinite, -⟩ := Binary64.isExactly_ofInt hn
  simp only [Quantity.toBinary64?, hfinite]

/-- **What is shown is rounded once.** -/
theorem exists_format? {n : ℤ} (hn : n.natAbs < 2 ^ 53) :
    ∃ t hundredths u, (Quantity.count n).format? = some t ∧ Shows t hundredths u ∧ Fits n.natAbs u ∧
      IsNearest ((n.natAbs : ℚ) / 1024 ^ u.power * 100) hundredths := by
  obtain ⟨hundredths, hnearest, hwritten⟩ := (isExactly_quotient hn (Quantity.count n).scale).fixed 2
  refine ⟨_, hundredths, (Quantity.count n).scale, ?_, .of_withPlaces rfl, (fits_iff _ _).mpr rfl, ?_⟩
  · rw [Quantity.format?, toBinary64?_count hn, Option.map_some]
    simp only [hwritten]
  · rwa [show (10 : ℚ) ^ 2 = 100 by norm_num] at hnearest

/-! ## The number -/

section
variable {n power hundredths : ℕ} (h : IsNearest ((n : ℚ) / 1024 ^ power * 100) hundredths)

include h

/-- A size of at least one unit is shown as at least `1.00`. -/
theorem le_hundredths (hlow : 1024 ^ power ≤ n) : 100 ≤ hundredths := by
  refine (isNearest_natCast 100).mono h ?_
  have hn : (1024 ^ power : ℚ) ≤ n := by exact_mod_cast hlow
  have hone : 1 ≤ (n : ℚ) / 1024 ^ power := by rwa [le_div_iff₀ (by positivity), one_mul]
  push_cast
  linarith

/-- A size below the next unit is shown as at most `1024.00`. -/
theorem hundredths_le (hhigh : n < 1024 ^ (power + 1)) : hundredths ≤ 102400 := by
  refine h.mono (isNearest_natCast 102400) ?_
  have hn : (n : ℚ) ≤ 1024 * 1024 ^ power := by
    rw [← pow_succ']
    exact_mod_cast hhigh.le
  have hquotient : (n : ℚ) / 1024 ^ power ≤ 1024 := by rwa [div_le_iff₀ (by positivity)]
  push_cast
  linarith

/-- It is shown as `1024.00` from `1023.995` units on. -/
theorem hundredths_eq_iff (hhigh : n < 1024 ^ (power + 1)) :
    hundredths = 102400 ↔ 204799 * 1024 ^ power ≤ 200 * n := by
  have hbound : 204799 * 1024 ^ power ≤ 200 * n ↔ (102399.5 : ℚ) ≤ (n : ℚ) / 1024 ^ power * 100 := by
    have hcast : (204799 * 1024 ^ power : ℚ) ≤ 200 * n ↔ 204799 * 1024 ^ power ≤ 200 * n := by exact_mod_cast Iff.rfl
    rw [← hcast, div_mul_eq_mul_div, le_div_iff₀ (by positivity)]
    constructor <;> intro hle <;> linarith
  rw [hbound]
  constructor
  · rintro rfl
    have hwithin := (abs_le.mp h.within).1
    push_cast at hwithin
    linarith
  · intro hle
    -- half way between 102399 and 102400, the even one is taken
    have heven : IsNearest 102399.5 102400 := by
      refine ⟨by norm_num [abs_le], fun _ => by decide⟩
    exact Nat.le_antisymm (hundredths_le h hhigh) (heven.mono h hle)

end

/-- **What a larger size shows is not less.**  In one unit, a larger number is not rounded to a smaller one;
a smaller unit shows at most `1024.00`, a larger one at least `1.00`. -/
theorem shownBytes_mono {m n h k : ℕ} {u v : Scale} (hle : m ≤ n) (hu : Fits m u) (hv : Fits n v)
    (hm : IsNearest ((m : ℚ) / 1024 ^ u.power * 100) h) (hn : IsNearest ((n : ℚ) / 1024 ^ v.power * 100) k) :
    shownBytes h u ≤ shownBytes k v := by
  unfold shownBytes
  rcases (hu.power_le hv hle).eq_or_lt with hsame | hless
  · obtain rfl := Scale.power_injective hsame
    have hhk : (h : ℚ) ≤ k := by
      have : (m : ℚ) ≤ n := by exact_mod_cast hle
      exact_mod_cast hm.mono hn (by gcongr)
    gcongr
  · have hh : (h : ℚ) / 100 ≤ 1024 := by
      have : (h : ℚ) ≤ 102400 := by
        rcases hu.2 with rfl | hhigh
        · cases v <;> simp [Scale.power] at hless
        · exact_mod_cast hundredths_le hm hhigh
      linarith
    have hk : 1 ≤ (k : ℚ) / 100 := by
      have : (100 : ℚ) ≤ k := by
        rcases hv.1 with rfl | hlow
        · exact absurd hless (Nat.not_lt_zero _)
        · exact_mod_cast le_hundredths hn hlow
      linarith
    calc (h : ℚ) / 100 * 1024 ^ u.power ≤ 1024 * 1024 ^ u.power := by gcongr
      _ = 1024 ^ (u.power + 1) := by rw [pow_succ']
      _ ≤ 1024 ^ v.power := pow_le_pow_right₀ (by norm_num) hless
      _ ≤ k / 100 * 1024 ^ v.power := le_mul_of_one_le_left (by positivity) hk

/-! ## Whole sizes -/

theorem format?_neg (n : ℤ) : (Quantity.count (-n)).format? = (Quantity.count n).format? := by
  have hscale : (Quantity.count (-n)).scale = (Quantity.count n).scale := by
    simp only [Quantity.scale, Int.natAbs_neg]
  have hnumber : (Quantity.count (-n)).toBinary64? = (Quantity.count n).toBinary64? := by
    simp only [Quantity.toBinary64?, Int.natAbs_neg]
  rw [Quantity.format?, Quantity.format?, hscale, hnumber]

/-- **A whole size below `2 ^ 53` is shown accurately**, without its sign: in the one unit that fits it, by the
number that is nearest to the exact quotient with two places, of two equally near ones the even one; and a
larger size never shows less. -/
theorem format?_accurate :
    (∀ n : ℤ, n.natAbs < 2 ^ 53 → ∃ t hundredths u,
      (Quantity.count n).format? = some t ∧ (Quantity.count (-n)).format? = some t ∧
      (∀ k v, Shows t k v ↔ k = hundredths ∧ v = u) ∧ (∀ v, Fits n.natAbs v ↔ v = u) ∧
      IsNearest ((n.natAbs : ℚ) / 1024 ^ u.power * 100) hundredths) ∧
    ∀ m n : ℤ, m.natAbs ≤ n.natAbs → n.natAbs < 2 ^ 53 → ∀ s t h k u v,
      (Quantity.count m).format? = some s → Shows s h u → (Quantity.count n).format? = some t → Shows t k v →
      shownBytes h u ≤ shownBytes k v := by
  constructor
  · intro n hn
    obtain ⟨t, hundredths, u, hformat, hshows, hfits, hnearest⟩ := exists_format? hn
    refine ⟨t, hundredths, u, hformat, (format?_neg n).trans hformat, hshows.iff, fun v => ?_, hnearest⟩
    rw [fits_iff, (fits_iff _ u).mp hfits]
  · intro m n hle hn s t h k u v hs hu ht hv
    obtain ⟨s', h', u', hs', hu', hfitsm, hm⟩ := exists_format? (Nat.lt_of_le_of_lt hle hn)
    obtain ⟨t', k', v', ht', hv', hfitsn, hnearest⟩ := exists_format? hn
    obtain rfl := Option.some.inj (hs.symm.trans hs')
    obtain rfl := Option.some.inj (ht.symm.trans ht')
    obtain ⟨rfl, rfl⟩ := hu.unique hu'
    obtain ⟨rfl, rfl⟩ := hv.unique hv'
    exact shownBytes_mono hle hfitsm hfitsn hm hnearest

/-- The last size of one unit, of either sign, and the first size of the next show the same. -/
theorem format?_accurate_mebibyte :
    Fits 1048575 .kib ∧ IsNearest (1048575 / 1024 ^ 1 * 100) 102400 ∧
      (Quantity.count (-1048575)).format? = some "1024.00 KiB" ∧ Shows "1024.00 KiB" 102400 .kib ∧
      (Quantity.count 1048576).format? = some "1.00 MiB" ∧ Shows "1.00 MiB" 100 .mib ∧
      shownBytes 102400 .kib ≤ shownBytes 100 .mib := by
  obtain ⟨haccurate, hmono⟩ := format?_accurate
  have hless : (Quantity.count (-1048575)).format? = some "1024.00 KiB" := by decide +kernel
  have hmore : (Quantity.count 1048576).format? = some "1.00 MiB" := by decide +kernel
  have hshown : Shows "1024.00 KiB" 102400 .kib := .of_withPlaces (by decide +kernel)
  have hshown' : Shows "1.00 MiB" 100 .mib := .of_withPlaces (by decide +kernel)
  obtain ⟨t, hundredths, u, ht, -, hshows, hfits, hnearest⟩ := haccurate (-1048575) (by decide)
  obtain rfl := Option.some.inj (hless.symm.trans ht)
  obtain ⟨rfl, rfl⟩ := (hshows _ _).mp hshown
  exact ⟨(hfits .kib).mpr rfl, hnearest, hless, hshown, hmore, hshown',
    hmono (-1048575) 1048576 (by decide) (by decide) _ _ _ _ _ _ hless hshown hmore hshown'⟩

/-- **Below the largest unit at most `1024.00` is shown, and that exactly for the sizes from `1023.995` units
on**, which are rounded up to a whole next unit. -/
theorem format?_full_iff {n : ℤ} (hn : n.natAbs < 2 ^ 53) :
    ∃ t hundredths u, (Quantity.count n).format? = some t ∧ (∀ k v, Shows t k v ↔ k = hundredths ∧ v = u) ∧
      (u ≠ .tib → hundredths ≤ 102400 ∧ (hundredths = 102400 ↔ 204799 * 1024 ^ u.power ≤ 200 * n.natAbs)) := by
  obtain ⟨t, hundredths, u, hformat, hshows, hfits, hnearest⟩ := exists_format? hn
  refine ⟨t, hundredths, u, hformat, hshows.iff, fun hu => ?_⟩
  have hhigh := hfits.2.resolve_left hu
  exact ⟨hundredths_le hnearest hhigh, hundredths_eq_iff hnearest hhigh⟩

/-- One byte makes the difference: 1048570 bytes are `1023.99` KiB still. -/
theorem format?_full_iff_last_below :
    (1048570 : ℤ).natAbs < 2 ^ 53 ∧ (Quantity.count 1048570).format? = some "1023.99 KiB" ∧
      Shows "1023.99 KiB" 102399 .kib ∧ 200 * 1048570 < 204799 * 1024 ^ 1 := by
  have hn : (1048570 : ℤ).natAbs < 2 ^ 53 := by decide
  have hformat : (Quantity.count 1048570).format? = some "1023.99 KiB" := by decide +kernel
  have hshown : Shows "1023.99 KiB" 102399 .kib := .of_withPlaces (by decide +kernel)
  obtain ⟨t, hundredths, u, ht, hshows, hfull⟩ := format?_full_iff hn
  obtain rfl := Option.some.inj (hformat.symm.trans ht)
  obtain ⟨rfl, rfl⟩ := (hshows _ _).mp hshown
  have hbelow := (hfull (by decide)).2.not.mp (by decide)
  exact ⟨hn, hformat, hshown, Nat.lt_of_not_le hbelow⟩

/-- The last size below a mebibyte is not shown by less than 1024 of the unit below. -/
theorem exists_format?_full :
    ∃ (n : ℤ) (t : Text) (hundredths : ℕ) (u : Scale), n.natAbs < 2 ^ 53 ∧ (Quantity.count n).format? = some t ∧
      Shows t hundredths u ∧ u ≠ .tib ∧ ¬hundredths < 102400 :=
  ⟨1048575, "1024.00 KiB", 102400, .kib, by decide, by decide +kernel, .of_withPlaces (by decide +kernel),
    by decide, by decide⟩

end SafePath.Size
