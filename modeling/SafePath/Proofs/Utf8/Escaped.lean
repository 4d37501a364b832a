import SafePath.Proofs.Utf8.Strict
import SafePath.Utf8.Escaped

/-!
# Bytes kept in text

Text made of bytes falls into the same pieces as the bytes: encodings of code points, and bytes that belong to
none (`piece_induction`).  So nothing is lost, an ASCII byte stays one character wherever it stands, and what
is read from the bytes is read from the UTF-8 form of the text as well:

    encode (decode data) = data                                                   (encode_decode)
    decode (a ++ c :: b) = decode a ++ c :: decode b, if `c` is ASCII             (decode_append_ascii_cons)
    normalise t = t, if `t` has no surrogates                                     (normalise_of_scalar)
    readFrom strict offset (decode data).encode = readFrom strict offset data     (readFrom_encode_decode)

The last one holds because a foreign byte becomes a surrogate, and its three bytes are refused where the byte
itself is refused.
-/

namespace SafePath

/-- The code point with the number of a byte. -/
def CodePoint.ofByte (b : UInt8) : CodePoint := ⟨b.toNat, Nat.lt_trans b.toNat_lt (by decide)⟩

namespace Utf8

/-- A byte that begins no code point is not ASCII. -/
theorem not_ascii_of_scanHead_none {b : UInt8} {rest : Bytes} (h : scanHead (b :: rest) = none) : ¬b < 0x80 := by
  intro hb
  have hhead := scanHead_of_isScalar (isScalar_of_ascii hb) rest
  rw [encodeValue_toNat_of_ascii hb, List.singleton_append, h] at hhead
  cases hhead

/-- Every byte string is made of encodings of code points and of bytes at which none begins. -/
theorem piece_induction {P : Bytes → Prop} (nil : P [])
    (point : ∀ v rest, IsScalar v → P rest → P (encodeValue v ++ rest))
    (byte : ∀ b rest, scanHead (b :: rest) = none → P rest → P (b :: rest)) (data : Bytes) : P data := by
  induction hn : data.length using Nat.strong_induction_on generalizing data with
  | _ n ih =>
    subst hn
    cases data with
    | nil => exact nil
    | cons b rest =>
      cases h : scanHead (b :: rest) with
      | none => exact byte b rest h (ih rest.length (by simp) rest rfl)
      | some s =>
        obtain ⟨hscalar, hsize, hdata⟩ := eq_append_of_scanHead h
        have hpos := (scanHead_size h).1
        rw [hdata]
        refine point _ _ hscalar (ih _ ?_ _ rfl)
        rw [List.length_drop, List.length_cons]
        omega

namespace Escaped

/-! ## Piece by piece -/

theorem decode_nil : decode [] = [] := by rw [decode]

theorem decode_encodeValue_append {v : Nat} (hv : IsScalar v) (rest : Bytes) :
    decode (encodeValue v ++ rest) = ⟨v, hv.lt⟩ :: decode rest := by
  obtain ⟨lead, ranges, tail, he, hf, hr, hvalue⟩ := Strict.exists_followers_encodeValue hv
  rw [he, List.cons_append, decode, hf]
  simp only [Strict.inRanges_append hr, if_true, hr.length_eq, List.take_left, List.drop_left, hvalue,
    CodePoint.ofNat?, hv.lt, dif_pos]

theorem followers_of_isContinuation {b : UInt8} (hb : isContinuation b = true) : Strict.followers b = none := by
  rw [isContinuation_iff] at hb
  unfold Strict.followers
  simp only [UInt8.lt_iff_toNat_lt, UInt8.reduceToNat]
  rw [if_neg (by omega), if_pos (by omega)]

/-- Bytes that could only continue a character are escaped one by one. -/
theorem decode_append_of_isContinuation {data : Bytes} (h : data.all isContinuation = true) (rest : Bytes) :
    decode (data ++ rest) = data.map escapedByte ++ decode rest := by
  induction data with
  | nil => rfl
  | cons b data ih =>
    rw [List.all_cons, Bool.and_eq_true] at h
    rw [List.cons_append, decode, followers_of_isContinuation h.1, ih h.2, List.map_cons, List.cons_append]

/-- Where no code point is read, the first byte is escaped by itself, also as one of several that are blamed: the
others only continue a character. -/
theorem decode_of_scanHead_none {b : UInt8} {rest : Bytes} (h : scanHead (b :: rest) = none) :
    decode (b :: rest) = escapedByte b :: decode rest := by
  rw [decode]
  cases hf : Strict.followers b with
  | none => rfl
  | some ranges =>
    simp only
    rw [if_neg (Strict.inRanges_ne_of_scanHead_none h hf), List.map_cons, List.cons_append]
    have hcontinued := Strict.all_isContinuation_of_inRange (Strict.forall₂_inRange_take ranges rest)
      fun range hrange => Strict.continuation_of_mem_followers hf range (List.mem_of_mem_take hrange)
    rw [← decode_append_of_isContinuation hcontinued, List.take_append_drop]

theorem decode_cons_ascii {c : UInt8} (hc : c < 0x80) (rest : Bytes) :
    decode (c :: rest) = CodePoint.ofByte c :: decode rest := by
  have h := decode_encodeValue_append (isScalar_of_ascii hc) rest
  rwa [encodeValue_toNat_of_ascii hc] at h

/-- **An ASCII byte stays one character**, whatever stands on either side of it. -/
theorem decode_append_ascii_cons {c : UInt8} (hc : c < 0x80) (a b : Bytes) :
    decode (a ++ c :: b) = decode a ++ CodePoint.ofByte c :: decode b := by
  induction a using piece_induction with
  | nil => rw [List.nil_append, decode_cons_ascii hc, decode_nil, List.nil_append]
  | point v rest hv ih =>
    rw [List.append_assoc, decode_encodeValue_append hv, decode_encodeValue_append hv, ih, List.cons_append]
  | byte x rest h ih =>
    have hover := scanHead_append_ascii_cons hc (List.cons_ne_nil x rest) b
    rw [h] at hover
    rw [decode_of_scanHead_none h, List.cons_append]
    rw [List.cons_append] at hover
    rw [decode_of_scanHead_none hover, ih, List.cons_append]

/-! ## Back to the bytes -/

theorem encodePoint_of_isScalar {v : Nat} (hv : IsScalar v) : encodePoint ⟨v, hv.lt⟩ = encodeValue v := by
  have hnone : byte? ⟨v, hv.lt⟩ = none := by
    unfold IsScalar at hv
    exact if_neg (by simp only; omega)
  rw [encodePoint, hnone]

theorem byte?_escapedByte {b : UInt8} (hb : ¬b < 0x80) : byte? (escapedByte b) = some b := by
  have hlt := b.toNat_lt
  simp only [UInt8.lt_iff_toNat_lt, UInt8.reduceToNat] at hb
  unfold byte? escapedByte
  rw [if_pos (by simp only; omega), Nat.add_sub_cancel_left, UInt8.ofNat_toNat]

theorem flatMap_encodePoint_decode (data : Bytes) : (decode data).flatMap encodePoint = data := by
  induction data using piece_induction with
  | nil => rw [decode_nil, List.flatMap_nil]
  | point v rest hv ih => rw [decode_encodeValue_append hv, List.flatMap_cons, encodePoint_of_isScalar hv, ih]
  | byte b rest h ih =>
    rw [decode_of_scanHead_none h, List.flatMap_cons, encodePoint, byte?_escapedByte (not_ascii_of_scanHead_none h),
      ih]
    rfl

/-- Every surrogate among the characters stands for a byte. -/
theorem isSome_byte?_of_mem_decode {data : Bytes} {c : CodePoint} (hc : c ∈ decode data) (hs : c.IsSurrogate) :
    (byte? c).isSome = true := by
  induction data using piece_induction with
  | nil =>
    rw [decode_nil] at hc
    cases hc
  | point v rest hv ih =>
    rw [decode_encodeValue_append hv] at hc
    rcases List.mem_cons.mp hc with rfl | hrest
    · exact absurd hs ((Text.isScalar_iff _).mp hv)
    · exact ih hrest
  | byte b rest h ih =>
    rw [decode_of_scanHead_none h] at hc
    rcases List.mem_cons.mp hc with rfl | hrest
    · rw [byte?_escapedByte (not_ascii_of_scanHead_none h)]
      rfl
    · exact ih hrest

/-- **Nothing is lost**: the text gives the bytes back. -/
theorem encode_decode (data : Bytes) : encode (decode data) = .ok data := by
  have hnone : ∀ c ∈ decode data, (decide c.IsSurrogate && (byte? c).isNone) = false := by
    intro c hc
    by_cases hs : c.IsSurrogate
    · rw [Option.isNone_eq_false_iff.mpr (isSome_byte?_of_mem_decode hc hs), Bool.and_false]
    · rw [decide_eq_false hs, Bool.false_and]
  rw [encode, Strict.refusedRun_eq_none hnone]
  exact congrArg Except.ok (flatMap_encodePoint_decode data)

section
variable {t : Text} (h : ∀ c ∈ t, ¬c.IsSurrogate)

include h

theorem decode_flatMap_encodePoint : decode (t.flatMap encodePoint) = t := by
  induction t with
  | nil => rw [List.flatMap_nil, decode_nil]
  | cons c t ih =>
    obtain ⟨hc, ht⟩ := List.forall_mem_cons.mp h
    have hscalar := (Text.isScalar_iff c).mpr hc
    have hpoint : encodePoint c = encodeValue c.val := encodePoint_of_isScalar hscalar
    rw [List.flatMap_cons, hpoint, decode_encodeValue_append hscalar, ih ht]

/-- Text without surrogates comes back as it was. -/
theorem normalise_of_scalar : normalise t = t := by
  have hencode : encode t = .ok (t.flatMap encodePoint) := by
    rw [encode, Strict.refusedRun_eq_none fun c hc => by rw [decide_eq_false (h c hc), Bool.false_and]]
  rw [normalise, hencode]
  exact decode_flatMap_encodePoint h

end

/-! ## ASCII among the characters -/

section
variable {c : UInt8} (hc : c < 0x80)

include hc

theorem encodePoint_ofByte : encodePoint (CodePoint.ofByte c) = [c] :=
  (encodePoint_of_isScalar (isScalar_of_ascii hc)).trans (encodeValue_toNat_of_ascii hc)

/-- Where an ASCII character stands in the text, its byte stands in the bytes. -/
theorem eq_append_of_decode_eq_append {data : Bytes} {t u : Text}
    (h : decode data = t ++ CodePoint.ofByte c :: u) :
    data = t.flatMap encodePoint ++ c :: u.flatMap encodePoint := by
  have hback := flatMap_encodePoint_decode data
  rw [h, List.flatMap_append, List.flatMap_cons, encodePoint_ofByte hc] at hback
  exact hback.symm

theorem ofByte_mem_decode_iff (data : Bytes) : CodePoint.ofByte c ∈ decode data ↔ c ∈ data := by
  constructor
  · intro h
    obtain ⟨t, u, htext⟩ := List.mem_iff_append.mp h
    rw [eq_append_of_decode_eq_append hc htext]
    exact List.mem_append_right _ List.mem_cons_self
  · intro h
    obtain ⟨a, b, rfl⟩ := List.mem_iff_append.mp h
    rw [decode_append_ascii_cons hc]
    exact List.mem_append_right _ List.mem_cons_self

theorem head?_decode_eq_ofByte_iff (data : Bytes) :
    (decode data).head? = some (CodePoint.ofByte c) ↔ data.head? = some c := by
  constructor
  · intro h
    obtain ⟨u, htext⟩ := List.head?_eq_some_iff.mp h
    rw [eq_append_of_decode_eq_append hc (htext.trans (List.nil_append _).symm)]
    rfl
  · intro h
    obtain ⟨rest, rfl⟩ := List.head?_eq_some_iff.mp h
    rw [decode_cons_ascii hc]
    rfl

theorem getLast?_decode_eq_ofByte_iff (data : Bytes) :
    (decode data).getLast? = some (CodePoint.ofByte c) ↔ data.getLast? = some c := by
  constructor
  · intro h
    obtain ⟨t, htext⟩ := List.getLast?_eq_some_iff.mp h
    rw [eq_append_of_decode_eq_append hc htext]
    exact List.getLast?_concat
  · intro h
    obtain ⟨a, rfl⟩ := List.getLast?_eq_some_iff.mp h
    rw [decode_append_ascii_cons hc, decode_nil]
    exact List.getLast?_concat

end

/-! ## The same reading -/

theorem readFrom_encode_decode (strict : Bool) (offset : Nat) (data : Bytes) :
    readFrom strict offset (decode data).encode = readFrom strict offset data := by
  induction data using piece_induction generalizing offset with
  | nil => rw [decode_nil, Text.encode_nil]
  | point v rest hv ih =>
    rw [decode_encodeValue_append hv, Text.encode_cons, readFrom_encodeValue_append hv,
      readFrom_encodeValue_append hv, ih]
  | byte b rest h _ =>
    have hb := b.toNat_lt
    have hnot : ¬IsScalar (escapedByte b).val := by
      unfold IsScalar escapedByte
      simp only
      omega
    have hover := scanHead_encodeValue_append (escapedByte b).lt (decode rest).encode
    rw [if_neg hnot] at hover
    rw [decode_of_scanHead_none h, Text.encode_cons,
      readFrom_of_scanHead_none hover (encodeValue_append_ne_nil _ _),
      readFrom_of_scanHead_none h (List.cons_ne_nil b rest)]

/-- **What is read from the text is what is read from the bytes**, and both are refused at the same offset. -/
theorem read_encode_decode (strict : Bool) (data : Bytes) :
    read strict (decode data).encode = read strict data :=
  readFrom_encode_decode strict 0 data

theorem scan_encode_decode (data : Bytes) : scan (decode data).encode = scan data := by
  have h := read_encode_decode false data
  rw [read_eq, read_eq] at h
  exact congrArg Reading.found h

theorem malformedAt_encode_decode (data : Bytes) : malformedAt (decode data).encode = malformedAt data := by
  have h := read_encode_decode true data
  rw [read_eq, read_eq] at h
  exact congrArg Reading.refusedAt h

end Escaped

end Utf8

end SafePath
