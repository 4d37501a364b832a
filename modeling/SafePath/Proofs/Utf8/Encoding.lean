import Mathlib.Data.List.Basic
import SafePath.Utf8.Scan

/-!
# Reading undoes the encoding

The lead byte of an encoding announces how many bytes follow and holds the top bits of the value, each
byte that follows holds six more (`Announces`).  So what stands at the front of a byte string is read
exactly if it is the encoding of a scalar value.

    scanHead (encodeValue v ++ rest) = ⟨v, encodedSize v⟩, if `v` is scalar     (scanHead_encodeValue_append)
    scanHead data = ⟨v, n⟩ exactly if `data` begins with the `n` bytes of the
      scalar value `v`                                                          (scanHead_eq_some_iff)
-/

namespace SafePath.Utf8

/-! ## Bytes -/

theorem isContinuation_ofNat_all : ∀ n, n < 256 →
    (isContinuation (UInt8.ofNat n) = true ↔ n / 64 = 2) := by
  decide +kernel

theorem isContinuation_iff (b : UInt8) : isContinuation b = true ↔ b.toNat / 64 = 2 := by
  have h := isContinuation_ofNat_all b.toNat b.toNat_lt
  rwa [UInt8.ofNat_toNat] at h

theorem toNat_continuation (v : Nat) : (continuation v).toNat = 0x80 + v % 64 := by
  rw [continuation, UInt8.toNat_ofNat']
  omega

theorem isContinuation_continuation (v : Nat) : isContinuation (continuation v) = true := by
  rw [isContinuation_iff, toNat_continuation]
  omega

theorem appendBits_continuation (value v : Nat) :
    appendBits value (continuation v) = value * 64 + v % 64 := by
  rw [appendBits, toNat_continuation]
  omega

/-- A continuation byte is the one that its low bits give. -/
theorem continuation_eq {b : UInt8} (h : isContinuation b = true) (v : Nat)
    (hv : v % 64 = b.toNat % 64) : continuation v = b := by
  rw [isContinuation_iff] at h
  apply UInt8.toNat_inj.mp
  rw [toNat_continuation]
  omega

theorem leadShape_one : ∀ n, n < 0x80 → leadShape (UInt8.ofNat n) = some (1, n) := by
  decide +kernel

theorem leadShape_two : ∀ t, t < 32 → 2 ≤ t → leadShape (UInt8.ofNat (0xC0 + t)) = some (2, t) := by
  decide +kernel

theorem leadShape_three : ∀ t, t < 16 → leadShape (UInt8.ofNat (0xE0 + t)) = some (3, t) := by
  decide +kernel

theorem leadShape_four : ∀ t, t < 5 → leadShape (UInt8.ofNat (0xF0 + t)) = some (4, t) := by
  decide +kernel

/-- The lead bytes of each size, with the top bits that they hold. -/
theorem lead_eq_of_leadShape {lead : UInt8} {size top : Nat} (h : leadShape lead = some (size, top)) :
    (size = 1 ∧ lead = UInt8.ofNat top ∧ top < 0x80) ∨
    (size = 2 ∧ lead = UInt8.ofNat (0xC0 + top) ∧ top < 32 ∧ 2 ≤ top) ∨
    (size = 3 ∧ lead = UInt8.ofNat (0xE0 + top) ∧ top < 16) ∨
    (size = 4 ∧ lead = UInt8.ofNat (0xF0 + top) ∧ top < 5) := by
  have hlead := lead.toNat_lt
  unfold leadShape at h
  simp only [UInt8.lt_iff_toNat_lt, UInt8.reduceToNat] at h
  simp only [← UInt8.toNat_inj, UInt8.toNat_ofNat']
  repeat' split at h
  all_goals simp only [Option.some.injEq, Prod.mk.injEq, reduceCtorEq] at h
  all_goals omega

/-! ## Encodings -/

theorem length_encodeValue (v : Nat) : (encodeValue v).length = encodedSize v := by
  unfold encodeValue encodedSize
  repeat' split
  all_goals rfl

theorem encodedSize_pos (v : Nat) : 0 < encodedSize v := by
  unfold encodedSize
  repeat' split
  all_goals decide

/-- A lead byte and what it announces: as many continuation bytes, which complete the number. -/
structure Announces (lead : UInt8) (tail : Bytes) (v : Nat) : Prop where
  shape : ∃ top, leadShape lead = some (tail.length + 1, top) ∧ tail.foldl appendBits top = v
  continued : tail.all isContinuation = true

/-- What is written for a number below `0x110000` announces it. -/
theorem announces_encodeValue {v : Nat} (hv : v < 0x110000) :
    ∃ lead tail, encodeValue v = lead :: tail ∧ Announces lead tail v := by
  unfold encodeValue
  split
  · next h1 => exact ⟨_, _, rfl, ⟨v, leadShape_one v h1, rfl⟩, rfl⟩
  split
  · next h1 h2 =>
    refine ⟨_, _, rfl, ⟨v / 64, leadShape_two _ (by omega) (by omega), ?_⟩, ?_⟩
    · simp only [List.foldl_cons, List.foldl_nil, appendBits_continuation]
      omega
    · simp only [List.all_cons, List.all_nil, isContinuation_continuation, Bool.and_self]
  split
  · next h1 h2 h3 =>
    refine ⟨_, _, rfl, ⟨v / 4096, leadShape_three _ (by omega), ?_⟩, ?_⟩
    · simp only [List.foldl_cons, List.foldl_nil, appendBits_continuation]
      omega
    · simp only [List.all_cons, List.all_nil, isContinuation_continuation, Bool.and_self]
  · next h1 h2 h3 =>
    refine ⟨_, _, rfl, ⟨v / 262144, leadShape_four _ (by omega), ?_⟩, ?_⟩
    · simp only [List.foldl_cons, List.foldl_nil, appendBits_continuation]
      omega
    · simp only [List.all_cons, List.all_nil, isContinuation_continuation, Bool.and_self]

/-- The numbers of each size. -/
theorem encodedSize_cases (v : Nat) :
    (encodedSize v = 1 ∧ v < 0x80) ∨ (encodedSize v = 2 ∧ ¬v < 0x80 ∧ v < 0x800) ∨
      (encodedSize v = 3 ∧ ¬v < 0x80 ∧ ¬v < 0x800 ∧ v < 0x10000) ∨
      (encodedSize v = 4 ∧ ¬v < 0x80 ∧ ¬v < 0x800 ∧ ¬v < 0x10000) := by
  unfold encodedSize
  repeat' split
  all_goals omega

/-- What announces a number of its own size is what is written for it. -/
theorem Announces.eq_encodeValue {lead : UInt8} {tail : Bytes} {v : Nat} (h : Announces lead tail v)
    (hsize : encodedSize v = tail.length + 1) : lead :: tail = encodeValue v := by
  obtain ⟨⟨top, hlead, hv⟩, hc⟩ := h
  have hcases := encodedSize_cases v
  unfold encodeValue
  rcases lead_eq_of_leadShape hlead with ⟨h, rfl, -⟩ | ⟨h, rfl, -⟩ | ⟨h, rfl, -⟩ | ⟨h, rfl, -⟩
  · obtain rfl := List.length_eq_zero_iff.mp (show tail.length = 0 by omega)
    simp only [List.length_nil] at hsize
    have h1 : v < 0x80 := by omega
    simp only [List.foldl_nil] at hv
    rw [if_pos h1, hv]
  · obtain ⟨b, rfl⟩ := List.length_eq_one_iff.mp (show tail.length = 1 by omega)
    simp only [List.length_cons, List.length_nil] at hsize
    have ⟨h1, h2⟩ : ¬v < 0x80 ∧ v < 0x800 := by omega
    simp only [List.foldl_cons, List.foldl_nil, appendBits] at hv
    simp only [List.all_cons, List.all_nil, Bool.and_true] at hc
    rw [if_neg h1, if_pos h2, continuation_eq hc v (by omega), show v / 64 = top by omega]
  · obtain ⟨b, c, rfl⟩ := List.length_eq_two.mp (show tail.length = 2 by omega)
    simp only [List.length_cons, List.length_nil] at hsize
    have ⟨h1, h2, h3⟩ : ¬v < 0x80 ∧ ¬v < 0x800 ∧ v < 0x10000 := by omega
    simp only [List.foldl_cons, List.foldl_nil, appendBits] at hv
    simp only [List.all_cons, List.all_nil, Bool.and_true, Bool.and_eq_true] at hc
    rw [if_neg h1, if_neg h2, if_pos h3, continuation_eq hc.1 (v / 64) (by omega),
      continuation_eq hc.2 v (by omega), show v / 4096 = top by omega]
  · obtain ⟨b, c, d, rfl⟩ := List.length_eq_three.mp (show tail.length = 3 by omega)
    simp only [List.length_cons, List.length_nil] at hsize
    have ⟨h1, h2, h3⟩ : ¬v < 0x80 ∧ ¬v < 0x800 ∧ ¬v < 0x10000 := by omega
    simp only [List.foldl_cons, List.foldl_nil, appendBits] at hv
    simp only [List.all_cons, List.all_nil, Bool.and_true, Bool.and_eq_true] at hc
    rw [if_neg h1, if_neg h2, if_neg h3, continuation_eq hc.1 (v / 4096) (by omega),
      continuation_eq hc.2.1 (v / 64) (by omega), continuation_eq hc.2.2 v (by omega),
      show v / 262144 = top by omega]

/-! ## Reading -/

theorem scanHead_of_announces {lead : UInt8} {tail : Bytes} {v : Nat} (h : Announces lead tail v)
    (rest : Bytes) :
    scanHead (lead :: tail ++ rest) =
      if encodedSize v = tail.length + 1 ∧ IsScalar v then some ⟨v, tail.length + 1⟩ else none := by
  obtain ⟨⟨top, hlead, hv⟩, hc⟩ := h
  simp [scanHead, hlead, hv, hc]

/-- What is read announces its value, which has the size that was read. -/
theorem exists_announces_of_scanHead {data : Bytes} {s : Scanned} (h : scanHead data = some s) :
    ∃ lead tail rest, data = lead :: tail ++ rest ∧ Announces lead tail s.value ∧
      s.size = tail.length + 1 ∧ encodedSize s.value = s.size ∧ IsScalar s.value := by
  cases data with
  | nil => simp [scanHead] at h
  | cons lead rest =>
    simp only [scanHead] at h
    split at h
    · cases h
    · next size top hlead =>
      split at h
      · next hc =>
        have hpos := leadShape_size_pos hlead
        cases h
        refine ⟨lead, rest.take (size - 1), rest.drop (size - 1), ?_, ⟨⟨top, ?_, rfl⟩, hc.2.1⟩, ?_, hc.2.2⟩
        · rw [List.cons_append, List.take_append_drop]
        · rw [hc.1, hlead, Nat.sub_add_cancel hpos]
        · rw [hc.1, Nat.sub_add_cancel hpos]
      · cases h

theorem scanHead_encodeValue_append {v : Nat} (hv : v < 0x110000) (rest : Bytes) :
    scanHead (encodeValue v ++ rest) = if IsScalar v then some ⟨v, encodedSize v⟩ else none := by
  obtain ⟨lead, tail, he, ha⟩ := announces_encodeValue hv
  have hlen : encodedSize v = tail.length + 1 := by rw [← length_encodeValue, he, List.length_cons]
  rw [he, scanHead_of_announces ha, hlen]
  simp

/-- **Reading accepts exactly what writing produces**: a scalar value is read where its encoding
stands. -/
theorem scanHead_eq_some_iff {data : Bytes} {s : Scanned} :
    scanHead data = some s ↔
      IsScalar s.value ∧ s.size = encodedSize s.value ∧ ∃ rest, data = encodeValue s.value ++ rest := by
  constructor
  · intro h
    obtain ⟨lead, tail, rest, rfl, ha, hlen, hsize, hs⟩ := exists_announces_of_scanHead h
    exact ⟨hs, hsize.symm, rest, by rw [ha.eq_encodeValue (by omega)]⟩
  · rintro ⟨hs, hsize, rest, rfl⟩
    rw [scanHead_encodeValue_append (by unfold IsScalar at hs; omega), if_pos hs, ← hsize]

end SafePath.Utf8
