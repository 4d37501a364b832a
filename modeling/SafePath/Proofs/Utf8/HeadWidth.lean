import SafePath.Proofs.Utf8.Boundary

/-!
# What a cut leaves of UTF-8

A code point takes at most four bytes (`headWidth_le_four`).  So the last boundary within a budget is
less than four bytes below it (`lt_lastBoundary_add_four`), and it is the very front exactly if the first
code point alone is wider than the budget (`lastBoundary_eq_zero_iff`).
-/

namespace SafePath.Utf8

/-- How many bytes the code point at the front takes, none where no code point stands. -/
def headWidth (data : Bytes) : Nat :=
  match scanHead data with
  | some s => s.size
  | none => 0

theorem headWidth_of_scanHead {data : Bytes} {s : Scanned} (h : scanHead data = some s) :
    headWidth data = s.size := by
  unfold headWidth
  rw [h]

theorem size_le_four {data : Bytes} {s : Scanned} (h : scanHead data = some s) : s.size ≤ 4 := by
  obtain ⟨-, hsize, -⟩ := scanHead_eq_some_iff.mp h
  have := encodedSize_cases s.value
  omega

theorem headWidth_le_four (data : Bytes) : headWidth data ≤ 4 := by
  unfold headWidth
  split
  · next h => exact size_le_four h
  · omega

theorem isBoundary_headWidth (data : Bytes) : IsBoundary data (headWidth data) := by
  unfold headWidth
  split
  · next h => exact isBoundary_size h
  · exact isBoundary_zero data

theorem headWidth_le_length (data : Bytes) : headWidth data ≤ data.length :=
  (isBoundary_headWidth data).1

theorem WellFormed.headWidth_pos {data : Bytes} (h : WellFormed data) (hne : data ≠ []) :
    0 < headWidth data := by
  obtain ⟨s, hs⟩ := h.exists_scanHead hne
  rw [headWidth_of_scanHead hs]
  exact (scanHead_size hs).1

theorem WellFormed.isBoundary_length {data : Bytes} (h : WellFormed data) :
    IsBoundary data data.length :=
  ⟨Nat.le_refl _, by rwa [List.take_length]⟩

/-- **A cut leaves nothing exactly if the first code point does not fit.** -/
theorem lastBoundary_eq_zero_iff {data : Bytes} (h : WellFormed data) (hne : data ≠ []) (budget : Nat) :
    lastBoundary budget data = 0 ↔ budget < headWidth data := by
  constructor
  · intro hzero
    by_contra hfits
    have hwidth : headWidth data ≤ lastBoundary budget data :=
      (lastBoundary_isGreatest budget data).2 ⟨isBoundary_headWidth data, by omega⟩
    have := h.headWidth_pos hne
    omega
  · intro hwide
    by_contra hpos
    obtain ⟨s, hs, hsize⟩ := (isBoundary_lastBoundary budget data).exists_scanHead (by omega)
    have hle := lastBoundary_le budget data
    rw [headWidth_of_scanHead hs] at hwide
    omega

/-- **A cut loses less than four bytes of the budget.** -/
theorem lt_lastBoundary_add_four {data : Bytes} (h : WellFormed data) {budget : Nat}
    (hlong : budget < data.length) : budget < lastBoundary budget data + 4 := by
  have hle := lastBoundary_le budget data
  obtain ⟨s, hs, -, hnext⟩ :=
    (isBoundary_lastBoundary budget data).next h.isBoundary_length (by omega)
  have hsize := size_le_four hs
  have hpos := (scanHead_size hs).1
  by_contra hfar
  have hwithin : lastBoundary budget data + s.size ≤ lastBoundary budget data :=
    (lastBoundary_isGreatest budget data).2 ⟨hnext, by omega⟩
  omega

end SafePath.Utf8
