import SafePath.Proofs.Utf8.CutPoint

/-!
# The cut within a budget

`cutBelow` leaves out a code point that ends exactly on the budget; `cutWithin` looks one code point past that
cut and puts it back.  Whatever stands in the bytes, the outcome is a boundary within the budget
(`exists_isBoundary_cutWithin`).  Where no NUL stands in front of a size that is a boundary, it is the last one:

    cutWithin data size budget is the last boundary that is at most min budget size
    cutWithin and cutBelow differ exactly if 0 < budget < size and the budget is itself a boundary
-/

namespace SafePath.Utf8

theorem lastBoundary_eq_budget_iff {data : Bytes} {budget : Nat} :
    lastBoundary budget data = budget ↔ IsBoundary data budget := by
  constructor
  · intro h
    rw [← h]
    exact isBoundary_lastBoundary budget data
  · intro h
    exact Nat.le_antisymm (lastBoundary_le budget data)
      ((lastBoundary_isGreatest budget data).2 ⟨h, Nat.le_refl budget⟩)

section
variable {data : Bytes} {size budget : Nat}

theorem cutWithin_of_le (h : size ≤ budget) : cutWithin data size budget = size :=
  if_pos (Int.ofNat_le.mpr h)

/-- A size within the budget is kept by both cuts, if the bytes go as far. -/
theorem cutBelow_of_le (hsize : size ≤ data.length) (h : size ≤ budget) : cutBelow data size budget = size := by
  rcases Nat.eq_zero_or_pos size with rfl | hpos
  · exact if_pos (Or.inr (Or.inl (Int.le_refl 0)))
  · rw [cutBelow_of_fits (List.ne_nil_of_length_pos (by omega)) (Int.natCast_pos.mpr hpos)
      (Int.ofNat_le.mpr h), Int.toNat_natCast]

/-- Where something is to be cut, `cutWithin` is a boundary within the budget, whatever is cut: the one that
`cutBelow` finds, or the end of the code point behind it. -/
theorem exists_isBoundary_cutWithin (hsize : size ≤ data.length) (hlt : budget < size) :
    ∃ kept : Nat, cutWithin data size budget = kept ∧ IsBoundary (data.take size) kept ∧ kept ≤ budget := by
  obtain ⟨hbound, hle⟩ := isBoundary_cutBelow hsize hlt
  unfold cutWithin
  rw [if_neg (by omega)]
  simp only [scanAt_natCast]
  split
  · next s hs =>
    split
    · next hon =>
      have hend := hbound.add (isBoundary_size hs)
      rw [show cutBelow data size budget + s.size = budget by omega] at hend
      exact ⟨budget, rfl, hend, Nat.le_refl budget⟩
    · exact ⟨_, rfl, hbound, hle⟩
  · exact ⟨_, rfl, hbound, hle⟩

/-- **The cut within a budget repairs the cut below it.**  If no NUL stands in front of a size that is a
boundary, the last boundary is found that is at most the budget and the size; the cut below the budget
finds another one exactly if the budget is a boundary too, and neither nothing nor all that there is. -/
theorem cutWithin_repairs_cutBelow (hbound : IsBoundary data size) (hnul : 0 ∉ data.take size) (budget : Nat) :
    ∃ kept : Nat, cutWithin data size budget = kept ∧
      IsGreatest {n | IsBoundary data n ∧ n ≤ min budget size} kept ∧
      (kept ≠ cutBelow data size budget ↔ 0 < budget ∧ budget < size ∧ IsBoundary data budget) := by
  rcases Nat.lt_or_ge budget size with hlt | hfits
  · have hsame : ∀ {n}, n ≤ budget → (IsBoundary (data.take size) n ↔ IsBoundary data n) :=
      fun hn => isBoundary_take_iff (Nat.le_trans hn (Nat.le_of_lt hlt))
    obtain ⟨⟨hlast, hwithin⟩, hmax⟩ := lastBoundary_isGreatest budget (data.take size)
    refine ⟨_, cutWithin_eq_lastBoundary hbound.1 hnul hlt, ?_, ?_⟩
    · rw [Nat.min_eq_left (Nat.le_of_lt hlt)]
      exact ⟨⟨(hsame hwithin).mp hlast, hwithin⟩, fun n hn => hmax ⟨(hsame hn.2).mpr hn.1, hn.2⟩⟩
    · rw [← hsame (Nat.le_refl budget), ← lastBoundary_eq_budget_iff]
      simp only [hlt, true_and]
      obtain ⟨hbelow, hle, hbest⟩ := cutBelow_spec hbound.1 hnul hlt
      have hfrom := hmax ⟨hbelow, hle⟩
      constructor
      · intro hne
        -- a boundary behind the one below the budget is not below the budget
        have hreach : ¬lastBoundary budget (data.take size) < budget := fun h =>
          hne (Nat.le_antisymm (hbest _ hlast h) hfrom)
        omega
      · rintro ⟨hpos, hon⟩
        obtain ⟨⟨-, -, hstrict⟩, -⟩ :=
          cutBelow_isGreatest (List.ne_nil_of_length_pos (Nat.lt_of_lt_of_le (by omega) hbound.1))
            (Int.natCast_pos.mpr hpos) (Int.ofNat_lt.mpr hlt)
        omega
  · refine ⟨size, cutWithin_of_le hfits, ?_, ?_⟩
    · rw [Nat.min_eq_right hfits]
      exact ⟨⟨hbound, Nat.le_refl size⟩, fun n hn => hn.2⟩
    · rw [cutBelow_of_le hbound.1 hfits]
      simp only [ne_eq, not_true_eq_false, false_iff, not_and]
      omega

end

/-- A budget that ends a character of three bytes, where the cut below keeps two bytes only; what stands behind
the size is not looked at. -/
theorem cutWithin_repairs_cutBelow_euro :
    IsBoundary [0xC3, 0xA9, 0xE2, 0x82, 0xAC, 0x78, 0x00, 0xFF] 6 ∧
    0 ∉ ([0xC3, 0xA9, 0xE2, 0x82, 0xAC, 0x78, 0x00, 0xFF] : Bytes).take 6 ∧
    cutWithin [0xC3, 0xA9, 0xE2, 0x82, 0xAC, 0x78, 0x00, 0xFF] 6 5 = 5 ∧
    IsGreatest {n | IsBoundary [0xC3, 0xA9, 0xE2, 0x82, 0xAC, 0x78, 0x00, 0xFF] n ∧ n ≤ min 5 6} 5 ∧
    5 ≠ cutBelow [0xC3, 0xA9, 0xE2, 0x82, 0xAC, 0x78, 0x00, 0xFF] 6 5 := by
  have hbound : IsBoundary [0xC3, 0xA9, 0xE2, 0x82, 0xAC, 0x78, 0x00, 0xFF] 6 := ⟨by decide, by decide +kernel⟩
  have hnul : 0 ∉ ([0xC3, 0xA9, 0xE2, 0x82, 0xAC, 0x78, 0x00, 0xFF] : Bytes).take 6 := by decide
  have hcut : cutWithin [0xC3, 0xA9, 0xE2, 0x82, 0xAC, 0x78, 0x00, 0xFF] 6 5 = 5 := by decide +kernel
  obtain ⟨kept, hkept, hgreatest, hdiffer⟩ := cutWithin_repairs_cutBelow hbound hnul 5
  obtain rfl : kept = 5 := by
    have := hkept.symm.trans hcut
    omega
  exact ⟨hbound, hnul, hcut, hgreatest, hdiffer.mpr ⟨by decide, by decide, ⟨by decide, by decide +kernel⟩⟩⟩

end SafePath.Utf8
