import SafePath.Proofs.Name.Basic
import SafePath.Proofs.Utf8.Reading

/-!
# Two readers of UTF-8

The scanning reader builds a value and tests it, the strict codec goes by the ranges of a table.  Bytes in
their ranges are the encoding of a scalar value (`exists_encodeValue_of_followers`), as the encoding of a
scalar value is in its ranges.  So the codec fails at once where the scan finds nothing
(`decodeFrom_of_scanHead_none`), and code point after code point the two go the same way:

    Agree (readFrom true offset data) (decodeFrom offset data)     (agree_decodeFrom)

They read the same code points, or the codec fails with the offset at which the reading is refused.
-/

namespace SafePath

namespace Utf8

namespace Strict

/-! ## Bytes in their ranges -/

theorem followers_size_all : ∀ n, n < 256 →
    (followers (UInt8.ofNat n)).map (fun ranges => ranges.length + 1) =
      (leadShape (UInt8.ofNat n)).map (fun shape => shape.1) := by
  decide +kernel

theorem followers_continuation_all : ∀ n, n < 256 →
    ((followers (UInt8.ofNat n)).getD []).all (fun range => 0x80 ≤ range.1 && range.2 ≤ 0xBF) = true := by
  decide +kernel

section
variable {lead : UInt8} {ranges : List (UInt8 × UInt8)} (h : followers lead = some ranges)

include h

/-- The table and the bit patterns know the same lead bytes, and agree on how many bytes follow. -/
theorem exists_leadShape_of_followers : ∃ top, leadShape lead = some (ranges.length + 1, top) := by
  have hsize := followers_size_all lead.toNat lead.toNat_lt
  rw [UInt8.ofNat_toNat, h, Option.map_some] at hsize
  obtain ⟨⟨size, top⟩, hshape, rfl⟩ := Option.map_eq_some_iff.mp hsize.symm
  exact ⟨top, hshape⟩

theorem continuation_of_mem_followers : ∀ range ∈ ranges, 0x80 ≤ range.1 ∧ range.2 ≤ 0xBF := by
  have hranges := followers_continuation_all lead.toNat lead.toNat_lt
  rw [UInt8.ofNat_toNat, h, Option.getD_some, List.all_eq_true] at hranges
  simpa only [Bool.and_eq_true, decide_eq_true_eq] using hranges

end

theorem all_isContinuation_of_inRange {ranges : List (UInt8 × UInt8)} {tail : Bytes}
    (hr : List.Forall₂ InRange ranges tail) (h : ∀ range ∈ ranges, 0x80 ≤ range.1 ∧ range.2 ≤ 0xBF) :
    tail.all isContinuation = true := by
  induction hr with
  | nil => rfl
  | @cons range b ranges tail hb _ ih =>
    obtain ⟨⟨hlo, hhi⟩, hranges⟩ := List.forall_mem_cons.mp h
    rw [List.all_cons, ih hranges, Bool.and_true, isContinuation_iff]
    have hlow := UInt8.le_iff_toNat_le.mp (UInt8.le_trans hlo hb.1)
    have hhigh := UInt8.le_iff_toNat_le.mp (UInt8.le_trans hb.2 hhi)
    simp only [UInt8.reduceToNat] at hlow hhigh
    omega

/-- What the bytes add up to is a scalar value, and not one that fewer bytes would have held: the range of the
second byte sees to that. -/
theorem isScalar_of_followers {lead : UInt8} {ranges : List (UInt8 × UInt8)} {tail : Bytes} {top : Nat}
    (hshape : leadShape lead = some (tail.length + 1, top)) (hf : followers lead = some ranges)
    (hr : List.Forall₂ InRange ranges tail) :
    IsScalar (tail.foldl appendBits top) ∧ encodedSize (tail.foldl appendBits top) = tail.length + 1 := by
  have hsize := encodedSize_cases (tail.foldl appendBits top)
  unfold IsScalar
  rcases lead_eq_of_leadShape hshape with
    ⟨-, rfl, htop⟩ | ⟨-, rfl, htop, htwo⟩ | ⟨-, rfl, htop⟩ | ⟨-, rfl, htop⟩
  · rw [followers_one top htop] at hf
    cases hf
    obtain rfl := List.forall₂_nil_left_iff.mp hr
    simp only [List.foldl_nil, List.length_nil] at hsize ⊢
    omega
  · rw [followers_two top htop htwo] at hf
    cases hf
    simp only [List.forall₂_cons_left_iff, List.forall₂_nil_left_iff] at hr
    obtain ⟨b, _, hb, rfl, rfl⟩ := hr
    simp only [inRange_iff, UInt8.reduceToNat] at hb
    simp only [List.foldl_cons, List.foldl_nil, List.length_cons, List.length_nil, appendBits] at hsize ⊢
    omega
  · rw [followers_three top htop] at hf
    cases hf
    simp only [List.forall₂_cons_left_iff, List.forall₂_nil_left_iff] at hr
    obtain ⟨b, _, hb, ⟨c, _, hc, rfl, rfl⟩, rfl⟩ := hr
    simp only [inRange_iff, apply_ite UInt8.toNat, UInt8.reduceToNat] at hb hc
    simp only [List.foldl_cons, List.foldl_nil, List.length_cons, List.length_nil, appendBits] at hsize ⊢
    repeat' split at hb
    all_goals omega
  · rw [followers_four top htop] at hf
    cases hf
    simp only [List.forall₂_cons_left_iff, List.forall₂_nil_left_iff] at hr
    obtain ⟨b, _, hb, ⟨c, _, hc, ⟨d, _, hd, rfl, rfl⟩, rfl⟩, rfl⟩ := hr
    simp only [inRange_iff, apply_ite UInt8.toNat, UInt8.reduceToNat] at hb hc hd
    simp only [List.foldl_cons, List.foldl_nil, List.length_cons, List.length_nil, appendBits] at hsize ⊢
    repeat' split at hb
    all_goals omega

/-- Bytes in the ranges that their lead byte asks for are the encoding of a scalar value. -/
theorem exists_encodeValue_of_followers {lead : UInt8} {ranges : List (UInt8 × UInt8)} {tail : Bytes}
    (hf : followers lead = some ranges) (hr : List.Forall₂ InRange ranges tail) :
    ∃ v, IsScalar v ∧ lead :: tail = encodeValue v := by
  obtain ⟨top, hshape⟩ := exists_leadShape_of_followers hf
  rw [hr.length_eq] at hshape
  have hcontinued := all_isContinuation_of_inRange hr (continuation_of_mem_followers hf)
  obtain ⟨hscalar, hsize⟩ := isScalar_of_followers hshape hf hr
  exact ⟨_, hscalar, Announces.eq_encodeValue ⟨⟨top, hshape, rfl⟩, hcontinued⟩ hsize⟩

/-- The bytes that are counted are in their ranges. -/
theorem forall₂_inRange_take (ranges : List (UInt8 × UInt8)) (rest : Bytes) :
    List.Forall₂ InRange (ranges.take (inRanges ranges rest).1) (rest.take (inRanges ranges rest).1) := by
  fun_induction inRanges ranges rest with
  | case1 rest => exact .nil
  | case2 => exact .nil
  | case3 lo hi ranges b rest hb n outside hn ih =>
    rw [hn] at ih
    exact .cons hb ih
  | case4 => exact .nil

/-- Where no code point is read, some follower is missing or out of its range. -/
theorem inRanges_ne_of_scanHead_none {lead : UInt8} {rest : Bytes} {ranges : List (UInt8 × UInt8)}
    (h : scanHead (lead :: rest) = none) (hf : followers lead = some ranges) :
    (inRanges ranges rest).1 ≠ ranges.length := by
  intro hall
  have hr := forall₂_inRange_take ranges rest
  rw [hall, List.take_length] at hr
  obtain ⟨v, hscalar, hv⟩ := exists_encodeValue_of_followers hf hr
  have hread := scanHead_of_isScalar hscalar (rest.drop ranges.length)
  rw [← hv, List.cons_append, List.take_append_drop, h] at hread
  cases hread

/-! ## Step by step -/

/-- The codec fails at once where no code point is read. -/
theorem decodeFrom_of_scanHead_none {data : Bytes} (h : scanHead data = none) (hne : data ≠ [])
    (offset : Nat) : ∃ failure, decodeFrom offset data = .error failure ∧ failure.start = offset := by
  obtain ⟨lead, rest, rfl⟩ := List.exists_cons_of_ne_nil hne
  rw [decodeFrom]
  cases hf : followers lead with
  | none => exact ⟨_, rfl, rfl⟩
  | some ranges =>
    simp only
    rw [if_neg (inRanges_ne_of_scanHead_none h hf)]
    exact ⟨_, rfl, rfl⟩

/-- A reading and the codec come to the same: the code points of a text, or a failure where the reading is
refused. -/
inductive Agree : Reading → Except DecodeFailure Text → Prop
  | read {found : List Located} {t : Text} (same : t.map (·.val) = found.map (·.scanned.value)) :
    Agree ⟨found, none⟩ (.ok t)
  | refused {found : List Located} (failure : DecodeFailure) :
    Agree ⟨found, some failure.start⟩ (.error failure)

theorem Agree.of_ok {reading : Reading} {t : Text} (h : Agree reading (.ok t)) :
    reading.refusedAt = none ∧ t.map (·.val) = reading.found.map (·.scanned.value) := by
  cases h with
  | read same => exact ⟨rfl, same⟩

theorem Agree.of_error {reading : Reading} {failure : DecodeFailure} (h : Agree reading (.error failure)) :
    reading.refusedAt = some failure.start := by
  cases h
  rfl

theorem agree_decodeFrom (offset : Nat) (data : Bytes) :
    Agree (readFrom true offset data) (decodeFrom offset data) := by
  induction offset, data using readFrom.induct true with
  | case1 offset =>
    rw [readFrom, if_pos rfl, decodeFrom]
    exact .read rfl
  | case2 offset data hne h =>
    obtain ⟨failure, hfails, rfl⟩ := decodeFrom_of_scanHead_none h hne offset
    rw [readFrom_of_scanHead_none h hne, hfails]
    exact .refused failure
  | case3 offset data hne s h ih =>
    obtain ⟨hscalar, hsize, hdata⟩ := eq_append_of_scanHead h
    rw [hdata, readFrom_encodeValue_append hscalar, decodeFrom_encodeValue_append hscalar]
    rw [length_encodeValue] at hsize
    rw [hsize]
    generalize readFrom true (offset + s.size) (data.drop s.size) = reading at ih ⊢
    generalize decodeFrom (offset + s.size) (data.drop s.size) = result at ih ⊢
    cases ih with
    | read same => exact .read (congrArg (s.value :: ·) same)
    | refused failure => exact .refused failure

theorem agree_decode (data : Bytes) : Agree (read true data) (decode data) := agree_decodeFrom 0 data

section
variable {data : Bytes} {t : Text} (h : decode data = .ok t)

include h

theorem wellFormed_of_decode : WellFormed data := by
  have hagree := agree_decode data
  rw [h] at hagree
  rw [← malformedAt_eq_none_iff, ← refusedAt_read_true]
  exact hagree.of_ok.1

theorem encode_of_decode : t.encode = data := by
  obtain ⟨t', hdecode, hencode⟩ := (wellFormed_of_decode h).exists_decode
  rw [h, Except.ok.injEq] at hdecode
  rwa [hdecode]

end

end Strict

end Utf8

namespace Name

/-- **Bytes come back as text exactly if a strict reading is not refused**, and then as the text of what was
read, which has these bytes again; the failure otherwise starts at the offset at which the reading is refused. -/
theorem withBytes_agrees_read (form : Text) (data : Bytes) :
    ((Utf8.read true data).refusedAt = none ↔
      ∃ t : Text, (Name.text form).withBytes data = .ok (.text t) ∧ t.encode = data ∧
        ∀ strict, t.map (·.val) = (Utf8.read strict data).found.map (·.scanned.value)) ∧
    ∀ offset, (Utf8.read true data).refusedAt = some offset ↔
      ∃ failure, (Name.text form).withBytes data = .error (.undecodable failure) ∧ failure.start = offset := by
  have hagree := Utf8.Strict.agree_decode data
  cases hdecode : Utf8.Strict.decode data with
  | ok t =>
    have hresult : (Name.text form).withBytes data = .ok (.text t) := by rw [withBytes, hdecode]
    rw [hdecode] at hagree
    obtain ⟨hread, hsame⟩ := hagree.of_ok
    have hfound : ∀ strict, t.map (·.val) = (Utf8.read strict data).found.map (·.scanned.value) := by
      intro strict
      rw [hsame, Utf8.found_read, Utf8.found_read]
    rw [hread, hresult]
    constructor
    · exact iff_of_true rfl ⟨t, rfl, Utf8.Strict.encode_of_decode hdecode, hfound⟩
    · intro offset
      refine iff_of_false (Option.some_ne_none offset).symm ?_
      rintro ⟨failure, h, -⟩
      cases h
  | error failure =>
    have hresult : (Name.text form).withBytes data = .error (.undecodable failure) := by rw [withBytes, hdecode]
    rw [hdecode] at hagree
    rw [hagree.of_error, hresult]
    constructor
    · refine iff_of_false (Option.some_ne_none failure.start) ?_
      rintro ⟨t, h, -⟩
      cases h
    · intro offset
      constructor
      · rintro ⟨⟩
        exact ⟨failure, rfl, rfl⟩
      · rintro ⟨failure', h, rfl⟩
        cases h
        rfl

end Name

end SafePath
