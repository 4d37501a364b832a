import Mathlib.Data.List.DropRight
import SafePath.Proofs.Name.Sanitize
import SafePath.Proofs.Utf8.Escaped

/-!
# Names from bytes, with and without text in between

A name may come as bytes, or as the text that keeps those bytes.  Both are trimmed and sanitized to the same
name, and both are reported as cut at the same offset or not at all (`sameName_sanitize`).

    decode (trimBytes data) = (decode data).stripWhere isAsciiBlank           (decode_trimBytes)
    scan (decode data).encode = scan data                                     (scan_encode_decode)

Only ASCII is trimmed, and ASCII is the same in bytes and text; a text that keeps bytes is read as they are.
-/

namespace SafePath

open Utf8.Escaped (decode)

/-! ## Trimming -/

theorem isBlankByte_iff (b : UInt8) : isBlankByte b = true ↔ b.toNat = 0x20 ∨ 0x09 ≤ b.toNat ∧ b.toNat ≤ 0x0D := by
  simp [isBlankByte, UInt8.le_iff_toNat_le, ← UInt8.toNat_inj]

theorem ascii_of_isBlankByte {b : UInt8} (h : isBlankByte b = true) : b < 0x80 := by
  rw [isBlankByte_iff] at h
  simp only [UInt8.lt_iff_toNat_lt, UInt8.reduceToNat]
  omega

theorem isAsciiBlank_iff (c : CodePoint) : c.isAsciiBlank = true ↔ c.val = 0x20 ∨ 0x09 ≤ c.val ∧ c.val ≤ 0x0D := by
  simp [CodePoint.isAsciiBlank]

theorem isAsciiBlank_ofByte (b : UInt8) : (CodePoint.ofByte b).isAsciiBlank = isBlankByte b := by
  rw [Bool.eq_iff_iff, isAsciiBlank_iff, isBlankByte_iff]
  rfl

/-- A character that is trimmed is a byte that is trimmed. -/
theorem exists_byte_of_isAsciiBlank {c : CodePoint} (h : c.isAsciiBlank = true) :
    ∃ b, isBlankByte b = true ∧ c = CodePoint.ofByte b := by
  have hv := (isAsciiBlank_iff c).mp h
  have hc : c = CodePoint.ofByte (UInt8.ofNat c.val) := by
    rw [CodePoint.ofByte, CodePoint.mk.injEq, UInt8.toNat_ofNat']
    omega
  refine ⟨UInt8.ofNat c.val, ?_, hc⟩
  rw [← isAsciiBlank_ofByte, ← hc, h]

theorem decode_dropWhile (data : Bytes) :
    decode (data.dropWhile isBlankByte) = (decode data).dropWhile CodePoint.isAsciiBlank := by
  induction data with
  | nil => rw [List.dropWhile_nil, Utf8.Escaped.decode_nil, List.dropWhile_nil]
  | cons b rest ih =>
    by_cases hb : isBlankByte b = true
    · rw [List.dropWhile_cons_of_pos hb, Utf8.Escaped.decode_cons_ascii (ascii_of_isBlankByte hb),
        List.dropWhile_cons_of_pos (by rwa [isAsciiBlank_ofByte]), ih]
    · rw [List.dropWhile_cons_of_neg hb]
      cases htext : decode (b :: rest) with
      | nil => rfl
      | cons c t =>
        refine (List.dropWhile_cons_of_neg fun hc => hb ?_).symm
        -- the first character would be a byte that is trimmed, and so the first byte
        obtain ⟨d, hd, rfl⟩ := exists_byte_of_isAsciiBlank hc
        have hhead := (Utf8.Escaped.head?_decode_eq_ofByte_iff (ascii_of_isBlankByte hd) (b :: rest)).mp
          (by rw [htext, List.head?_cons])
        cases hhead
        exact hd

theorem decode_rdropWhile (data : Bytes) :
    decode (data.rdropWhile isBlankByte) = (decode data).rdropWhile CodePoint.isAsciiBlank := by
  induction data using List.reverseRecOn with
  | nil => rw [List.rdropWhile_nil, Utf8.Escaped.decode_nil, List.rdropWhile_nil]
  | append_singleton data b ih =>
    by_cases hb : isBlankByte b = true
    · rw [List.rdropWhile_concat_pos _ _ _ hb,
        Utf8.Escaped.decode_append_ascii_cons (ascii_of_isBlankByte hb), Utf8.Escaped.decode_nil,
        List.rdropWhile_concat_pos _ _ _ (by rwa [isAsciiBlank_ofByte]), ih]
    · rw [List.rdropWhile_concat_neg _ _ _ hb]
      refine (List.rdropWhile_eq_self_iff.mpr fun hne hc => hb ?_).symm
      -- the last character would be a byte that is trimmed, and so the last byte
      obtain ⟨d, hd, hlast⟩ := exists_byte_of_isAsciiBlank hc
      have hlast' := (Utf8.Escaped.getLast?_decode_eq_ofByte_iff (ascii_of_isBlankByte hd) (data ++ [b])).mp
        (by rw [List.getLast?_eq_some_getLast hne, hlast])
      rw [List.getLast?_concat] at hlast'
      cases hlast'
      exact hd

/-- **Bytes are trimmed as the text that keeps them.** -/
theorem decode_trimBytes (data : Bytes) :
    decode (trimBytes data) = (decode data).stripWhere CodePoint.isAsciiBlank := by
  show decode ((data.dropWhile isBlankByte).rdropWhile isBlankByte) =
    ((decode data).dropWhile CodePoint.isAsciiBlank).rdropWhile CodePoint.isAsciiBlank
  rw [decode_rdropWhile, decode_dropWhile]

namespace Name

theorem trim_text_decode (data : Bytes) : (Name.text (decode data)).trim = .text (decode (trimBytes data)) := by
  rw [trim, decode_trimBytes]

/-! ## Sanitizing -/

/-- Both came to the same name, the first to its text and the second to the UTF-8 form of the text, and put
out the same records. -/
def SameName (a b : Log.Logged (Except Fault Name)) : Prop :=
  ∃ t data, a.result = .ok (.text t) ∧ Utf8.Strict.encode t = .ok data ∧ b.result = .ok (.bytes data) ∧
    a.records = b.records

theorem sameName_sanitize (asciiOnly : Bool) (data : Bytes) :
    SameName ((Name.text (decode data)).sanitize asciiOnly) ((Name.bytes data).sanitize asciiOnly) := by
  have hbytes : sanitizeBytes asciiOnly (decode data).encode = sanitizeBytes asciiOnly data := by
    rw [sanitizeBytes, sanitizeBytes, Utf8.Escaped.scan_encode_decode]
  have hwf := wellFormed_sanitizeBytes asciiOnly data
  obtain ⟨t, hdecode, hencode⟩ := hwf.exists_decode
  refine ⟨t, sanitizeBytes asciiOnly data, ?_, ?_, rfl, ?_⟩
  · show (Name.text (decode data)).withBytes (sanitizeBytes asciiOnly (decode data).encode) = _
    rw [hbytes, withBytes, hdecode]
  · rw [← hencode] at hwf ⊢
    exact Utf8.Strict.encode_of_wellFormed hwf
  · show ((Utf8.malformedAt (decode data).encode).map cutRecord).toList = _
    rw [Utf8.Escaped.malformedAt_encode_decode]
    rfl

/-- **A name comes to the same as text and as bytes**, trimmed before or not. -/
theorem sanitize_decode (asciiOnly : Bool) (data : Bytes) :
    SameName ((Name.text (decode data)).sanitize asciiOnly) ((Name.bytes data).sanitize asciiOnly) ∧
    SameName ((Name.text (decode data)).trim.sanitize asciiOnly) ((Name.bytes data).trim.sanitize asciiOnly) := by
  refine ⟨sameName_sanitize asciiOnly data, ?_⟩
  rw [trim_text_decode]
  exact sameName_sanitize asciiOnly (trimBytes data)

end Name

end SafePath
