import Mathlib.Data.Nat.Find
import Mathlib.Order.Bounds.Basic
import SafePath.Proofs.Utf8.WellFormed
import SafePath.Utf8.Boundary

/-!
# Boundaries between code points

A cut must not split a code point: it falls on a boundary (`IsBoundary`), and the last boundary within a
budget (`lastBoundary`) loses the least.  The walk below a budget stops too early where the budget is
itself a boundary or a NUL comes before it; for parts without NUL, one code point more makes up for it.

    cutWithin data size budget = lastBoundary budget (data.take size)       (cutWithin_eq_lastBoundary)
-/

namespace SafePath.Utf8

/-- The first `n` bytes are UTF-8: no code point is split at `n`. -/
def IsBoundary (data : Bytes) (n : Nat) : Prop := n ≤ data.length ∧ WellFormed (data.take n)

/-- The last boundary within a budget. -/
def lastBoundary (budget : Nat) (data : Bytes) : Nat :=
  Nat.findGreatest (fun n => WellFormed (data.take n)) (min budget data.length)

/-! ## Boundaries -/

theorem isBoundary_zero (data : Bytes) : IsBoundary data 0 := ⟨Nat.zero_le _, .nil⟩

theorem isBoundary_size {data : Bytes} {s : Scanned} (h : scanHead data = some s) :
    IsBoundary data s.size := by
  refine ⟨(scanHead_size h).2, ?_⟩
  rw [take_size_of_scanHead h]
  exact wellFormed_encodeValue (eq_append_of_scanHead h).1

theorem IsBoundary.add {data : Bytes} {m n : Nat} (hm : IsBoundary data m)
    (hn : IsBoundary (data.drop m) n) : IsBoundary data (m + n) := by
  obtain ⟨hle, hwf⟩ := hn
  rw [List.length_drop] at hle
  refine ⟨by have := hm.1; omega, ?_⟩
  rw [List.take_add]
  exact hm.2.append hwf

theorem IsBoundary.sub {data : Bytes} {m n : Nat} (hm : IsBoundary data m) (hn : IsBoundary data n)
    (hle : m ≤ n) : IsBoundary (data.drop m) (n - m) := by
  refine ⟨by rw [List.length_drop]; have := hn.1; omega, ?_⟩
  have hwf := hn.2
  rwa [← Nat.add_sub_cancel' hle, List.take_add, hm.2.append_iff] at hwf

/-- A code point stands in front of every boundary but the first, and does not reach beyond it. -/
theorem IsBoundary.exists_scanHead {data : Bytes} {n : Nat} (h : IsBoundary data n) (hn : 0 < n) :
    ∃ s, scanHead data = some s ∧ s.size ≤ n := by
  have hlen : (data.take n).length = n := List.length_take_of_le h.1
  obtain ⟨s, hs⟩ := h.2.exists_scanHead (List.ne_nil_of_length_pos (by omega))
  have hsize := (scanHead_size hs).2
  obtain ⟨hscalar, hencoded, rest, hrest⟩ := scanHead_eq_some_iff.mp hs
  refine ⟨s, scanHead_eq_some_iff.mpr ⟨hscalar, hencoded, rest ++ data.drop n, ?_⟩, by omega⟩
  rw [← List.append_assoc, ← hrest, List.take_append_drop]

theorem lastBoundary_isGreatest (budget : Nat) (data : Bytes) :
    IsGreatest {n | IsBoundary data n ∧ n ≤ budget} (lastBoundary budget data) := by
  have hle : lastBoundary budget data ≤ min budget data.length := Nat.findGreatest_le _
  have hwf : WellFormed (data.take (lastBoundary budget data)) :=
    Nat.findGreatest_spec (P := fun n => WellFormed (data.take n)) (Nat.zero_le _) .nil
  refine ⟨⟨⟨by omega, hwf⟩, by omega⟩, ?_⟩
  rintro n ⟨hn, hbudget⟩
  exact Nat.le_findGreatest (le_min hbudget hn.1) hn.2

theorem isBoundary_lastBoundary (budget : Nat) (data : Bytes) :
    IsBoundary data (lastBoundary budget data) :=
  (lastBoundary_isGreatest budget data).1.1

theorem lastBoundary_le (budget : Nat) (data : Bytes) : lastBoundary budget data ≤ budget :=
  (lastBoundary_isGreatest budget data).1.2

theorem lastBoundary_mono {budget larger : Nat} (hle : budget ≤ larger) (data : Bytes) :
    lastBoundary budget data ≤ lastBoundary larger data :=
  (lastBoundary_isGreatest larger data).2
    ⟨isBoundary_lastBoundary budget data, Nat.le_trans (lastBoundary_le budget data) hle⟩

/-- A cut at the last boundary is settled by one cut. -/
theorem lastBoundary_lastBoundary (budget : Nat) (data : Bytes) :
    lastBoundary (lastBoundary budget data) data = lastBoundary budget data := by
  apply Nat.le_antisymm
  · exact lastBoundary_le _ data
  · exact (lastBoundary_isGreatest _ data).2 ⟨isBoundary_lastBoundary budget data, Nat.le_refl _⟩

/-! ## The walk below a budget -/

theorem mem_encodeValue_iff_of_ascii {v : Nat} (hv : v < 0x110000) {c : UInt8} (hc : c < 0x80) :
    c ∈ encodeValue v ↔ v = c.toNat := by
  constructor
  · intro h
    obtain ⟨lead, tail, he, ⟨top, hlead, hvalue⟩, hcont⟩ := announces_encodeValue hv
    rw [he] at h
    rcases List.mem_cons.mp h with rfl | htail
    · unfold leadShape at hlead
      rw [if_pos hc] at hlead
      simp only [Option.some.injEq, Prod.mk.injEq] at hlead
      obtain rfl := List.length_eq_zero_iff.mp (show tail.length = 0 by omega)
      rw [List.foldl_nil] at hvalue
      omega
    · exact absurd hc (not_ascii_of_mem_tail_encodeValue hv (by rwa [he]))
  · rintro rfl
    simp only [UInt8.lt_iff_toNat_lt, UInt8.reduceToNat] at hc
    rw [encodeValue_of_ascii hc, UInt8.ofNat_toNat]
    exact List.mem_singleton_self c

/-- The walk ends at the last boundary that is below the budget and not behind a NUL. -/
theorem boundaryBelow_isGreatest {budget : Nat} (hb : 0 < budget) (data : Bytes) :
    IsGreatest {n | IsBoundary data n ∧ 0 ∉ data.take n ∧ n < budget} (boundaryBelow budget data) := by
  induction budget, data using boundaryBelow.induct with
  | case1 budget data h =>
    rw [boundaryBelow, h]
    refine ⟨⟨isBoundary_zero data, by simp, hb⟩, ?_⟩
    rintro n ⟨hn, -, -⟩
    by_contra hpos
    obtain ⟨s, hs, -⟩ := hn.exists_scanHead (by omega)
    rw [h] at hs
    cases hs
  | case2 budget data s h hc ih =>
    obtain ⟨hscalar, -, -⟩ := eq_append_of_scanHead h
    obtain ⟨⟨hbound, hnul, hlt⟩, hmax⟩ := ih (by omega)
    rw [boundaryBelow, h]
    simp only [hc, ne_eq, not_false_eq_true, and_self, if_true]
    refine ⟨⟨(isBoundary_size h).add hbound, ?_, by omega⟩, ?_⟩
    · rw [List.take_add, take_size_of_scanHead h, List.mem_append,
        mem_encodeValue_iff_of_ascii hscalar.lt (by decide)]
      rintro (hzero | hzero)
      · exact hc.1 hzero
      · exact hnul hzero
    · rintro n ⟨hn, hnonul, hbelow⟩
      rcases Nat.eq_zero_or_pos n with rfl | hpos
      · exact Nat.zero_le _
      obtain ⟨s', hs', hsize⟩ := hn.exists_scanHead hpos
      rw [h] at hs'
      cases hs'
      have hrest : n - s.size ≤ boundaryBelow (budget - s.size) (data.drop s.size) := by
        apply hmax
        refine ⟨(isBoundary_size h).sub hn hsize, ?_, by omega⟩
        rw [← Nat.add_sub_cancel' hsize, List.take_add, List.mem_append, not_or] at hnonul
        exact hnonul.2
      omega
  | case3 budget data s h hc =>
    rw [boundaryBelow, h]
    simp only [hc, if_false]
    refine ⟨⟨isBoundary_zero data, by simp, hb⟩, ?_⟩
    rintro n ⟨hn, hnonul, hbelow⟩
    by_contra hpos
    obtain ⟨s', hs', hsize⟩ := hn.exists_scanHead (by omega)
    rw [h] at hs'
    cases hs'
    obtain ⟨hscalar, -, -⟩ := eq_append_of_scanHead h
    -- the code point at the front is a NUL, or it ends beyond the budget
    apply hc
    refine ⟨fun hzero => hnonul ?_, by omega⟩
    rw [← Nat.add_sub_cancel' hsize, List.take_add, take_size_of_scanHead h, List.mem_append,
      mem_encodeValue_iff_of_ascii hscalar.lt (by decide)]
    exact Or.inl hzero

/-! ## The cut within a budget -/

/-- Boundaries in front of `size` are those of the first `size` bytes. -/
theorem isBoundary_take_iff {data : Bytes} {size n : Nat} (h : n ≤ size) :
    IsBoundary (data.take size) n ↔ IsBoundary data n := by
  unfold IsBoundary
  rw [List.take_take, Nat.min_eq_left h, List.length_take]
  refine and_congr_left fun _ => ?_
  omega

/-- Where something is to be cut, `cutBelow` is the last boundary below the budget that no NUL stands in
front of, whatever the size is. -/
theorem cutBelow_isGreatest {data : Bytes} {size budget : Int} (hne : data ≠ []) (hpos : 0 < budget)
    (hlt : budget < size) :
    IsGreatest {n : Nat | IsBoundary data n ∧ 0 ∉ data.take n ∧ (n : Int) < budget}
      (cutBelow data size budget) := by
  have hcut : cutBelow data size budget = boundaryBelow budget.toNat (data.take size.toNat) := by
    unfold cutBelow
    rw [if_neg (by simp only [hne, false_or]; omega), if_neg (by omega)]
  have hset : {n : Nat | IsBoundary data n ∧ 0 ∉ data.take n ∧ (n : Int) < budget} =
      {n | IsBoundary (data.take size.toNat) n ∧ 0 ∉ (data.take size.toNat).take n ∧ n < budget.toNat} := by
    ext n
    have hbelow : (n : Int) < budget ↔ n < budget.toNat := by omega
    simp only [Set.mem_ofPred_eq, hbelow, ← and_assoc]
    refine and_congr_left fun hn => ?_
    have hwithin : n ≤ size.toNat := by omega
    rw [isBoundary_take_iff hwithin, List.take_take, Nat.min_eq_left hwithin]
  rw [hcut, hset]
  exact boundaryBelow_isGreatest (by omega) _

/-- Where something is to be cut, `cutBelow` is a boundary within the budget, whatever is cut. -/
theorem isBoundary_cutBelow {data : Bytes} {size budget : Nat} (hsize : size ≤ data.length) (hlt : budget < size) :
    IsBoundary (data.take size) (cutBelow data size budget) ∧ cutBelow data size budget ≤ budget := by
  rcases Nat.eq_zero_or_pos budget with rfl | hpos
  · have hcut : cutBelow data size (0 : Nat) = 0 := by simp [cutBelow]
    rw [hcut]
    exact ⟨isBoundary_zero _, Nat.le_refl 0⟩
  · have hne : data ≠ [] := List.ne_nil_of_length_pos (by omega)
    obtain ⟨⟨hbound, -, hbelow⟩, -⟩ :=
      cutBelow_isGreatest hne (Int.natCast_pos.mpr hpos) (Int.ofNat_lt.mpr hlt)
    have hle : cutBelow data size budget ≤ budget := by omega
    exact ⟨(isBoundary_take_iff (Nat.le_trans hle (Nat.le_of_lt hlt))).mpr hbound, hle⟩

/-- Where something is to be cut, `cutBelow` is a boundary, and none is between it and the budget. -/
theorem cutBelow_spec {data : Bytes} {size budget : Nat} (hsize : size ≤ data.length)
    (hnul : 0 ∉ data.take size) (hlt : budget < size) :
    IsBoundary (data.take size) (cutBelow data size budget) ∧ cutBelow data size budget ≤ budget ∧
      ∀ n, IsBoundary (data.take size) n → n < budget → n ≤ cutBelow data size budget := by
  obtain ⟨hbound, hle⟩ := isBoundary_cutBelow hsize hlt
  refine ⟨hbound, hle, fun n hn hnb => ?_⟩
  have hne : data ≠ [] := List.ne_nil_of_length_pos (by omega)
  -- what is in front of `n` is in front of `size`, where no NUL is
  have hfront : 0 ∉ data.take n := fun h0 => hnul ((List.take_prefix_take_left (by omega)).subset h0)
  exact (cutBelow_isGreatest hne (by omega) (Int.ofNat_lt.mpr hlt)).2
    ⟨(isBoundary_take_iff (by omega)).mp hn, hfront, by omega⟩

/-- A boundary behind another one is not nearer than the end of the code point between them. -/
theorem IsBoundary.next {data : Bytes} {m n : Nat} (hm : IsBoundary data m) (hn : IsBoundary data n)
    (hlt : m < n) :
    ∃ s, scanHead (data.drop m) = some s ∧ m + s.size ≤ n ∧ IsBoundary data (m + s.size) := by
  obtain ⟨s, hs, hsize⟩ := (hm.sub hn (Nat.le_of_lt hlt)).exists_scanHead (by omega)
  exact ⟨s, hs, by omega, hm.add (isBoundary_size hs)⟩

theorem value_ne_zero_of_scanHead {data : Bytes} {s : Scanned} (h : scanHead data = some s)
    (hnul : 0 ∉ data) : s.value ≠ 0 := by
  obtain ⟨hscalar, -, hdata⟩ := eq_append_of_scanHead h
  intro hzero
  apply hnul
  rw [hdata]
  exact List.mem_append_left _ ((mem_encodeValue_iff_of_ascii hscalar.lt (by decide)).mpr hzero)

/-- A scan stops at the last boundary of all. -/
theorem scannedLength_isGreatest (data : Bytes) :
    IsGreatest {n | IsBoundary data n} (scannedLength data) := by
  have hscanned : IsBoundary data (scannedLength data) :=
    ⟨scannedLength_le data, wellFormed_take_scannedLength data⟩
  refine ⟨hscanned, fun n hn => ?_⟩
  by_contra hbeyond
  obtain ⟨s, hs, -⟩ := hscanned.next hn (by omega)
  rw [scanHead_drop_scannedLength] at hs
  cases hs

/-- Text that is read up to its end is read on behind it. -/
theorem WellFormed.scannedLength_append {a : Bytes} (ha : WellFormed a) (b : Bytes) :
    scannedLength (a ++ b) = a.length + scannedLength b := by
  have hfront : IsBoundary (a ++ b) a.length := by
    refine ⟨by simp, ?_⟩
    rwa [List.take_left]
  refine (scannedLength_isGreatest (a ++ b)).unique ⟨?_, fun n hn => ?_⟩
  · apply hfront.add
    rw [List.drop_left]
    exact (scannedLength_isGreatest b).1
  · rcases Nat.lt_or_ge n a.length with hlt | hge
    · omega
    · have hrest := hfront.sub hn hge
      rw [List.drop_left] at hrest
      have := (scannedLength_isGreatest b).2 hrest
      omega

theorem malformedAt_of_not_wellFormed {data : Bytes} (h : ¬WellFormed data) :
    malformedAt data = some (scannedLength data) := by
  have hsome : malformedAt data ≠ none := fun hnone => h (malformedAt_eq_none_iff.mp hnone)
  unfold malformedAt at hsome ⊢
  split
  · rfl
  · next hall => exact absurd (if_neg hall) hsome

/-- The code point behind a place, of the first `size` bytes. -/
theorem scanAt_natCast (data : Bytes) (pos size : Nat) :
    scanAt data pos (some (size : Int)) = scanHead ((data.take size).drop pos) := by
  rw [scanAt, if_neg (by omega), Int.toNat_natCast]
  rfl

/-- **The cut within a budget is the last boundary within it**: one code point more than the boundary
strictly below the budget is always enough. -/
theorem cutWithin_eq_lastBoundary {data : Bytes} {size budget : Nat} (hsize : size ≤ data.length)
    (hnul : 0 ∉ data.take size) (hlt : budget < size) :
    cutWithin data size budget = lastBoundary budget (data.take size) := by
  obtain ⟨hbound, hle, hmax⟩ := cutBelow_spec hsize hnul hlt
  obtain ⟨⟨hlast, hwithin⟩, hgreatest⟩ := lastBoundary_isGreatest budget (data.take size)
  unfold cutWithin
  rw [if_neg (by omega)]
  simp only [scanAt_natCast]
  generalize cutBelow data size budget = below at *
  have hfrom : below ≤ lastBoundary budget (data.take size) := hgreatest ⟨hbound, hle⟩
  cases hs : scanHead ((data.take size).drop below) with
  | none =>
    have : ¬below < lastBoundary budget (data.take size) := by
      intro hbeyond
      obtain ⟨s, hs', -⟩ := hbound.next hlast hbeyond
      rw [hs] at hs'
      cases hs'
    simp only
    omega
  | some s =>
    have hvalue : s.value ≠ 0 := value_ne_zero_of_scanHead hs fun h0 => hnul (List.mem_of_mem_drop h0)
    have hend : IsBoundary (data.take size) (below + s.size) := hbound.add (isBoundary_size hs)
    simp only [hvalue, ne_eq, not_false_eq_true, true_and]
    split
    · next hon =>
      have := hgreatest ⟨hend, by omega⟩
      omega
    · next hoff =>
      have : ¬below < lastBoundary budget (data.take size) := by
        intro hbeyond
        obtain ⟨s', hs', hnext, -⟩ := hbound.next hlast hbeyond
        rw [hs] at hs'
        cases hs'
        have := (scanHead_size hs).1
        have := hmax _ hend (by omega)
        omega
      omega

end SafePath.Utf8
