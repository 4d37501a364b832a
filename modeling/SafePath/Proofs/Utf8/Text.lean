import Mathlib.Data.List.Forall2
import SafePath.Proofs.Utf8.WellFormed
import SafePath.Utf8.Strict

/-!
# Text and its bytes

The strict reader goes by ranges of bytes instead of values.  On the encoding of a scalar value it finds
all bytes in their ranges, and that value (`decodeFrom_encodeValue_append`).  So bytes that are UTF-8 are
the encoding of the text that is read from them (`WellFormed.exists_decode`), and a text whose bytes are
followed by others is UTF-8 up to there if it holds no surrogate (`wellFormed_encode_append_iff`).
-/

namespace SafePath

namespace Utf8.Strict

/-! ## The strict reader on an encoding -/

def InRange (range : UInt8 × UInt8) (b : UInt8) : Prop := range.1 ≤ b ∧ b ≤ range.2

theorem inRange_iff {lo hi b : UInt8} : InRange (lo, hi) b ↔ lo.toNat ≤ b.toNat ∧ b.toNat ≤ hi.toNat := by
  rw [InRange, UInt8.le_iff_toNat_le, UInt8.le_iff_toNat_le]

theorem inRange_continuation (v : Nat) : InRange (0x80, 0xBF) (continuation v) := by
  rw [inRange_iff, toNat_continuation]
  simp only [UInt8.reduceToNat]
  omega

theorem inRanges_append {ranges : List (UInt8 × UInt8)} {tail : Bytes}
    (h : List.Forall₂ InRange ranges tail) (rest : Bytes) :
    inRanges ranges (tail ++ rest) = (ranges.length, false) := by
  induction h with
  | nil => rfl
  | @cons range b ranges tail hb _ ih =>
    simp only [List.cons_append, inRanges, ih]
    exact if_pos hb

theorem decodeFrom_of_followers {lead : UInt8} {ranges : List (UInt8 × UInt8)} {tail : Bytes} {v : Nat}
    (hf : followers lead = some ranges) (hr : List.Forall₂ InRange ranges tail)
    (hvalue : valueOf lead tail = v) (hv : v < 0x110000) (offset : Nat) (rest : Bytes) :
    decodeFrom offset (lead :: tail ++ rest) =
      (decodeFrom (offset + 1 + tail.length) rest).map (⟨v, hv⟩ :: ·) := by
  have hlen := hr.length_eq
  rw [List.cons_append, decodeFrom, hf]
  simp only [inRanges_append hr, if_true, hlen, List.take_left, List.drop_left, hvalue]
  rw [CodePoint.ofNat?, dif_pos hv]

theorem valueOf_two (lead b : UInt8) :
    valueOf lead [b] = (lead.toNat - 0xC0) * 64 + (b.toNat - 0x80) := rfl

theorem valueOf_three (lead b c : UInt8) :
    valueOf lead [b, c] =
      (lead.toNat - 0xE0) * 4096 + (b.toNat - 0x80) * 64 + (c.toNat - 0x80) := rfl

theorem valueOf_four (lead b c d : UInt8) :
    valueOf lead [b, c, d] =
      (lead.toNat - 0xF0) * 262144 + (b.toNat - 0x80) * 4096 + (c.toNat - 0x80) * 64 +
        (d.toNat - 0x80) := rfl

theorem followers_one : ∀ n, n < 0x80 → followers (UInt8.ofNat n) = some [] := by
  decide +kernel

theorem followers_two : ∀ t, t < 32 → 2 ≤ t →
    followers (UInt8.ofNat (0xC0 + t)) = some [(0x80, 0xBF)] := by
  decide +kernel

theorem followers_three : ∀ t, t < 16 →
    followers (UInt8.ofNat (0xE0 + t)) =
      some [(if t = 0 then 0xA0 else 0x80, if t = 13 then 0x9F else 0xBF), (0x80, 0xBF)] := by
  decide +kernel

theorem followers_four : ∀ t, t < 5 →
    followers (UInt8.ofNat (0xF0 + t)) =
      some [(if t = 0 then 0x90 else 0x80, if t = 4 then 0x8F else 0xBF), (0x80, 0xBF), (0x80, 0xBF)] := by
  decide +kernel

/-- The encoding of a scalar value keeps to the ranges that its lead byte asks for. -/
theorem exists_followers_encodeValue {v : Nat} (hv : IsScalar v) :
    ∃ lead ranges tail, encodeValue v = lead :: tail ∧ followers lead = some ranges ∧
      List.Forall₂ InRange ranges tail ∧ valueOf lead tail = v := by
  have hlt := hv.lt
  unfold encodeValue
  split
  · next h1 =>
    refine ⟨UInt8.ofNat v, [], [], rfl, followers_one v h1, .nil, ?_⟩
    show (UInt8.ofNat v).toNat = v
    rw [UInt8.toNat_ofNat']
    omega
  split
  · next h1 h2 =>
    refine ⟨_, _, _, rfl, followers_two _ (by omega) (by omega), .cons (inRange_continuation v) .nil, ?_⟩
    rw [valueOf_two, UInt8.toNat_ofNat', toNat_continuation]
    omega
  split
  · next h1 h2 h3 =>
    refine ⟨_, _, _, rfl, followers_three _ (by omega), .cons ?_ (.cons (inRange_continuation v) .nil), ?_⟩
    · -- no shorter form, and no surrogate
      rw [inRange_iff, toNat_continuation]
      unfold IsScalar at hv
      constructor
      · split <;> simp only [UInt8.reduceToNat] <;> omega
      · split <;> simp only [UInt8.reduceToNat] <;> omega
    · rw [valueOf_three, UInt8.toNat_ofNat', toNat_continuation, toNat_continuation]
      omega
  · next h1 h2 h3 =>
    refine ⟨_, _, _, rfl, followers_four _ (by omega),
      .cons ?_ (.cons (inRange_continuation (v / 64)) (.cons (inRange_continuation v) .nil)), ?_⟩
    · -- no shorter form, and nothing beyond the last code point
      rw [inRange_iff, toNat_continuation]
      constructor
      · split <;> simp only [UInt8.reduceToNat] <;> omega
      · split <;> simp only [UInt8.reduceToNat] <;> omega
    · rw [valueOf_four, UInt8.toNat_ofNat', toNat_continuation, toNat_continuation, toNat_continuation]
      omega

theorem decodeFrom_encodeValue_append {v : Nat} (hv : IsScalar v) (offset : Nat) (rest : Bytes) :
    decodeFrom offset (encodeValue v ++ rest) =
      (decodeFrom (offset + encodedSize v) rest).map (⟨v, hv.lt⟩ :: ·) := by
  obtain ⟨lead, ranges, tail, he, hf, hr, hvalue⟩ := exists_followers_encodeValue hv
  have hsize : offset + encodedSize v = offset + 1 + tail.length := by
    rw [← length_encodeValue, he, List.length_cons]
    omega
  rw [he, hsize, decodeFrom_of_followers hf hr hvalue hv.lt]

end Utf8.Strict

/-! ## Text as bytes -/

namespace Text

@[simp] theorem encode_nil : encode [] = [] := rfl

@[simp] theorem encode_cons (c : CodePoint) (t : Text) : encode (c :: t) = Utf8.encodeValue c.val ++ encode t := rfl

theorem encode_eq_nil_iff {t : Text} : t.encode = [] ↔ t = [] := by
  cases t with
  | nil => simp
  | cons c t => simp [Utf8.encodeValue_ne_nil]

theorem isScalar_iff (c : CodePoint) : Utf8.IsScalar c.val ↔ ¬c.IsSurrogate := by
  have := c.lt
  unfold Utf8.IsScalar CodePoint.IsSurrogate
  omega

/-- What stands behind a text does not change whether the text is read: it is read exactly if it
holds no surrogate. -/
theorem wellFormed_encode_append_iff (t : Text) (rest : Bytes) :
    Utf8.WellFormed (t.encode ++ rest) ↔ (∀ c ∈ t, ¬c.IsSurrogate) ∧ Utf8.WellFormed rest := by
  induction t with
  | nil => simp
  | cons c t ih =>
    rw [encode_cons, List.append_assoc, Utf8.wellFormed_encodeValue_append_iff c.lt, ih, isScalar_iff,
      List.forall_mem_cons, and_assoc]

theorem wellFormed_encode_iff (t : Text) : Utf8.WellFormed t.encode ↔ ∀ c ∈ t, ¬c.IsSurrogate := by
  have h := wellFormed_encode_append_iff t []
  rwa [List.append_nil, and_iff_left Utf8.WellFormed.nil] at h

end Text

/-- A text is written without a failure if nothing in it is refused. -/
theorem Utf8.Strict.refusedRun_eq_none {refused : CodePoint → Bool} {t : Text}
    (h : ∀ c ∈ t, refused c = false) (offset : Nat) : refusedRun refused offset t = none := by
  induction t generalizing offset with
  | nil => rfl
  | cons c t ih =>
    obtain ⟨hc, ht⟩ := List.forall_mem_cons.mp h
    rw [refusedRun, hc, if_neg Bool.false_ne_true, ih ht]

theorem Utf8.Strict.encode_of_wellFormed {t : Text} (h : Utf8.WellFormed t.encode) : encode t = .ok t.encode := by
  rw [Text.wellFormed_encode_iff] at h
  rw [encode, refusedRun_eq_none fun c hc => decide_eq_false (h c hc)]

/-- UTF-8 is text, and the text is written as the same bytes. -/
theorem Utf8.WellFormed.exists_decodeFrom {data : Bytes} (h : Utf8.WellFormed data) (offset : Nat) :
    ∃ t : Text, Strict.decodeFrom offset data = .ok t ∧ t.encode = data := by
  induction h generalizing offset with
  | nil => exact ⟨[], by rw [Strict.decodeFrom], rfl⟩
  | @cons v rest scalar tail ih =>
    obtain ⟨t, hdecode, hencode⟩ := ih (offset + encodedSize v)
    refine ⟨⟨v, scalar.lt⟩ :: t, ?_, by rw [Text.encode_cons, hencode]⟩
    rw [Strict.decodeFrom_encodeValue_append scalar, hdecode]
    rfl

theorem Utf8.WellFormed.exists_decode {data : Bytes} (h : Utf8.WellFormed data) :
    ∃ t : Text, Strict.decode data = .ok t ∧ t.encode = data :=
  h.exists_decodeFrom 0

end SafePath
