import SafePath.Name.Basic
import SafePath.Proofs.Utf8.HeadWidth
import SafePath.Proofs.Utf8.Reading

/-!
# The cut below a budget

A byte string that does not fit is cut at the last boundary below the budget that no NUL stands in front of
(`cutBelow_isGreatest`): behind as many characters as end below the budget, up to the first NUL or malformed
sequence (`safeBelow_iff`).  For a whole byte string there are three ways:

    cutPoint data budget = 0                        where the budget is not positive    (cutPoint_of_nonpos)
    cutPoint data budget = data.length              where all of it fits                (cutPoint_of_fits)
    cutPoint data budget is the last such boundary  in between                          (cutPoint_isGreatest)

So a larger budget never keeps less, also where it passes from the last boundary to all of the bytes
(`cutPoint_mono`).
-/

namespace SafePath.Utf8

/-! ## Characters other than NUL -/

theorem zero_mem_utf8EncodeChar_iff (c : Char) : 0 ∈ String.utf8EncodeChar c ↔ c.toNat = 0 := by
  have hlt : c.toNat < 0x110000 := (CodePoint.ofChar c).lt
  rw [← encodeValue_toNat, mem_encodeValue_iff_of_ascii hlt (by decide)]
  rfl

theorem zero_mem_flatMap_utf8EncodeChar_iff (cs : List Char) :
    0 ∈ cs.flatMap String.utf8EncodeChar ↔ ∃ c ∈ cs, c.toNat = 0 := by
  rw [List.mem_flatMap]
  simp only [zero_mem_utf8EncodeChar_iff]

/-- UTF-8 without NUL is the encoding of characters other than NUL. -/
theorem wellFormed_noNul_iff {data : Bytes} :
    WellFormed data ∧ 0 ∉ data ↔
      ∃ cs : List Char, (∀ c ∈ cs, c.toNat ≠ 0) ∧ data = cs.flatMap String.utf8EncodeChar := by
  constructor
  · rintro ⟨hwf, hnul⟩
    obtain ⟨cs, hcs⟩ := exists_chars_of_isScalar fun v (hv : v ∈ values data) => isScalar_of_mem_values hv
    have hdata : data = cs.flatMap String.utf8EncodeChar := by
      rw [← flatMap_encodeValue_map_toNat, hcs, hwf.flatMap_values]
    refine ⟨cs, fun c hc hzero => hnul ?_, hdata⟩
    rw [hdata]
    exact (zero_mem_flatMap_utf8EncodeChar_iff cs).mpr ⟨c, hc, hzero⟩
  · rintro ⟨cs, hne, rfl⟩
    constructor
    · rw [← flatMap_encodeValue_map_toNat]
      apply wellFormed_flatMap
      rw [List.forall_mem_map]
      exact fun c _ => isScalar_iff_exists_char.mpr ⟨c, rfl⟩
    · rw [zero_mem_flatMap_utf8EncodeChar_iff]
      rintro ⟨c, hc, hzero⟩
      exact hne c hc hzero

/-- The first `r` bytes are below the budget and made of characters other than NUL. -/
structure SafeBelow (data : Bytes) (budget : Int) (r : Nat) : Prop where
  below : (r : Int) < budget
  inside : r ≤ data.length
  characters : ∃ cs : List Char, (∀ c ∈ cs, c.toNat ≠ 0) ∧ data.take r = cs.flatMap String.utf8EncodeChar

theorem safeBelow_iff {data : Bytes} {budget : Int} {r : Nat} :
    SafeBelow data budget r ↔ IsBoundary data r ∧ 0 ∉ data.take r ∧ (r : Int) < budget := by
  constructor
  · rintro ⟨hbelow, hinside, hchars⟩
    obtain ⟨hwf, hnul⟩ := wellFormed_noNul_iff.mpr hchars
    exact ⟨⟨hinside, hwf⟩, hnul, hbelow⟩
  · rintro ⟨⟨hinside, hwf⟩, hnul, hbelow⟩
    exact ⟨hbelow, hinside, wellFormed_noNul_iff.mp ⟨hwf, hnul⟩⟩

/-! ## A whole byte string -/

section
variable {data : Bytes} {budget : Int}

theorem cutBelow_of_fits {size : Int} (hne : data ≠ []) (hsize : 0 < size) (h : size ≤ budget) :
    cutBelow data size budget = size.toNat := by
  unfold cutBelow
  rw [if_neg (by simp only [hne, false_or]; omega), if_pos h]

theorem cutPoint_of_nonpos (h : budget ≤ 0) : cutPoint data budget = 0 :=
  if_pos (Or.inr (Or.inr h))

theorem cutPoint_of_fits (h : (data.length : Int) ≤ budget) : cutPoint data budget = data.length := by
  by_cases hne : data = []
  · subst hne
    rw [cutPoint, cutBelow, if_pos (Or.inl rfl)]
    rfl
  · have hpos := List.length_pos_of_ne_nil hne
    rw [cutPoint, cutBelow_of_fits hne (by omega) h, Int.toNat_natCast]

theorem cutPoint_isGreatest (hpos : 0 < budget) (hlt : budget < data.length) :
    IsGreatest {n : Nat | IsBoundary data n ∧ 0 ∉ data.take n ∧ (n : Int) < budget}
      (cutPoint data budget) :=
  cutBelow_isGreatest (List.ne_nil_of_length_pos (by omega)) hpos hlt

/-- What is kept is within the budget and within the bytes. -/
theorem cutPoint_le (data : Bytes) (budget : Int) :
    (cutPoint data budget : Int) ≤ max 0 (min budget data.length) := by
  rcases le_or_gt budget 0 with hnone | hpos
  · rw [cutPoint_of_nonpos hnone]
    exact Int.le_max_left 0 _
  rcases lt_or_ge budget data.length with hlt | hfits
  · obtain ⟨⟨⟨hlength, -⟩, -, hbelow⟩, -⟩ := cutPoint_isGreatest hpos hlt
    omega
  · rw [cutPoint_of_fits hfits]
    omega

/-- **A larger budget never keeps less.** -/
theorem cutPoint_mono {larger : Int} (hle : budget ≤ larger) (data : Bytes) :
    cutPoint data budget ≤ cutPoint data larger := by
  rcases le_or_gt budget 0 with hnone | hpos
  · rw [cutPoint_of_nonpos hnone]
    exact Nat.zero_le _
  rcases lt_or_ge larger data.length with hlt | hfits
  · -- the boundary that is kept is one for the larger budget too
    obtain ⟨hbound, hnul, hbelow⟩ := (cutPoint_isGreatest hpos (Int.lt_of_le_of_lt hle hlt)).1
    exact (cutPoint_isGreatest (Int.lt_of_lt_of_le hpos hle) hlt).2
      ⟨hbound, hnul, Int.lt_of_lt_of_le hbelow hle⟩
  · have hkept := cutPoint_le data budget
    rw [cutPoint_of_fits hfits]
    omega

/-- No code point of UTF-8 is split. -/
theorem WellFormed.isBoundary_cutPoint (h : WellFormed data) (budget : Int) :
    IsBoundary data (cutPoint data budget) := by
  rcases le_or_gt budget 0 with hnone | hpos
  · rw [cutPoint_of_nonpos hnone]
    exact isBoundary_zero data
  rcases lt_or_ge budget data.length with hlt | hfits
  · exact (cutPoint_isGreatest hpos hlt).1.1
  · rw [cutPoint_of_fits hfits]
    exact h.isBoundary_length

end

/-- **The cut below a budget keeps the most that is safe**: nothing of no bytes, or for a size or a budget that
is not positive; the size if it is within the budget; and else the longest part from the left below the budget
that is made of characters other than NUL, whatever stands behind it and whatever the size is.  So for every
name, what is kept grows with the budget, stays within the budget and the name, and splits no code point of
UTF-8. -/
theorem cutBelow_keeps_most :
    (∀ (data : Bytes) (size budget : Int),
      if data = [] ∨ size ≤ 0 ∨ budget ≤ 0 then cutBelow data size budget = 0
      else if size ≤ budget then (cutBelow data size budget : Int) = size
      else IsGreatest {r | SafeBelow data budget r} (cutBelow data size budget)) ∧
    ∀ name : Name,
      (∀ budget larger : Int, budget ≤ larger → cutPoint name.toBytes budget ≤ cutPoint name.toBytes larger) ∧
      (∀ budget : Int, (cutPoint name.toBytes budget : Int) ≤ max 0 (min budget name.toBytes.length)) ∧
      (WellFormed name.toBytes → ∀ budget : Int, IsBoundary name.toBytes (cutPoint name.toBytes budget)) := by
  constructor
  · intro data size budget
    by_cases hnothing : data = [] ∨ size ≤ 0 ∨ budget ≤ 0
    · rw [if_pos hnothing]
      exact if_pos hnothing
    rw [if_neg hnothing]
    simp only [not_or, Int.not_le] at hnothing
    obtain ⟨hne, hsize, hbudget⟩ := hnothing
    by_cases hfits : size ≤ budget
    · rw [if_pos hfits, cutBelow_of_fits hne hsize hfits]
      exact Int.toNat_of_nonneg (Int.le_of_lt hsize)
    · rw [if_neg hfits]
      simp only [safeBelow_iff]
      exact cutBelow_isGreatest hne hbudget (Int.lt_of_not_ge hfits)
  · intro name
    exact ⟨fun budget larger hle => cutPoint_mono hle name.toBytes, cutPoint_le name.toBytes,
      fun h budget => h.isBoundary_cutPoint budget⟩

/-- A size beyond the end, and a NUL between the last character that is kept and the budget; and a name that is
cut in front of its last character. -/
theorem cutBelow_keeps_most_before_nul :
    cutBelow [0x61, 0xC3, 0xA9, 0x00, 0x62] 9 5 = 3 ∧
      IsGreatest {r | SafeBelow [0x61, 0xC3, 0xA9, 0x00, 0x62] 5 r} 3 ∧
      WellFormed (Name.text "é€").toBytes ∧ cutPoint (Name.text "é€").toBytes 4 = 2 ∧
      IsBoundary (Name.text "é€").toBytes 2 := by
  obtain ⟨hgreatest, hname⟩ := cutBelow_keeps_most
  have hcut : cutBelow [0x61, 0xC3, 0xA9, 0x00, 0x62] 9 5 = 3 := by decide +kernel
  have hwf : WellFormed (Name.text "é€").toBytes := by decide +kernel
  have hpoint : cutPoint (Name.text "é€").toBytes 4 = 2 := by decide +kernel
  have hwhole := hgreatest [0x61, 0xC3, 0xA9, 0x00, 0x62] 9 5
  rw [if_neg (by decide), if_neg (by decide), hcut] at hwhole
  have hbound := (hname (Name.text "é€")).2.2 hwf 4
  rw [hpoint] at hbound
  exact ⟨hcut, hwhole, hwf, hpoint, hbound⟩

end SafePath.Utf8
