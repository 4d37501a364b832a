import SafePath.Proofs.Name.Sanitize
import SafePath.Proofs.Text.Surrogates

/-!
# A name is sanitized character by character

What can be read of a name are characters, from the front up to the last boundary.  Each of them is kept or
becomes an underscore, and the rest of the name is dropped:

    data.take (scannedLength data) = bytes of `cs`,
      sanitizeBytes asciiOnly data = bytes of `cs.map (legalChar asciiOnly)`     (exists_chars_sanitizeBytes)

So sanitizing can be done twice or in parts:

    sanitizeBytes g (sanitizeBytes f data) = sanitizeBytes (f || g) data     (sanitizeBytes_sanitizeBytes)
    sanitizeBytes f (a ++ b) = sanitizeBytes f a ++ sanitizeBytes f b,
      if `a` is UTF-8                                                        (sanitizeBytes_append)

What is illegal stays illegal if only ASCII is wanted, and the underscore is legal either way.
-/

namespace SafePath

/-! ## Characters as a name -/

theorem not_isSurrogate_ofChar (c : Char) : ¬(CodePoint.ofChar c).IsSurrogate :=
  (Text.isScalar_iff _).mp (Utf8.isScalar_iff_exists_char.mpr ⟨c, rfl⟩)

theorem encode_map_ofChar (cs : List Char) :
    Text.encode (cs.map CodePoint.ofChar) = cs.flatMap String.utf8EncodeChar := by
  rw [Text.encode, List.flatMap_map, ← Utf8.flatMap_encodeValue_map_toNat, List.flatMap_map]
  rfl

namespace Name

def ofChars (form : Name) (cs : List Char) : Name :=
  match form with
  | .text _ => .text (cs.map CodePoint.ofChar)
  | .bytes _ => .bytes (cs.flatMap String.utf8EncodeChar)

theorem toBytes_ofChars (form : Name) (cs : List Char) :
    (form.ofChars cs).toBytes = cs.flatMap String.utf8EncodeChar := by
  cases form with
  | text t => exact encode_map_ofChar cs
  | bytes b => rfl

/-- The bytes of characters come back as these characters. -/
theorem withBytes_characters (form : Name) (cs : List Char) :
    form.withBytes (cs.flatMap String.utf8EncodeChar) = .ok (form.ofChars cs) := by
  cases form with
  | text t =>
    have hplain : ∀ c ∈ cs.map CodePoint.ofChar, ¬c.IsSurrogate := by
      rw [List.forall_mem_map]
      exact fun c _ => not_isSurrogate_ofChar c
    have hdecode := (Text.decode_encode_iff _).mpr hplain
    rw [encode_map_ofChar] at hdecode
    rw [withBytes, hdecode]
    rfl
  | bytes b => rfl

end Name

/-! ## Character by character -/

def legalChar (asciiOnly : Bool) (c : Char) : Char := if isIllegal asciiOnly c.toNat then '_' else c

theorem toNat_legalChar (asciiOnly : Bool) (c : Char) :
    (legalChar asciiOnly c).toNat = legalValue asciiOnly c.toNat := by
  unfold legalChar legalValue
  split <;> rfl

theorem isIllegal_legalChar (asciiOnly : Bool) (c : Char) :
    isIllegal asciiOnly (legalChar asciiOnly c).toNat = false := by
  rw [toNat_legalChar, isIllegal_legalValue]

theorem length_utf8EncodeChar_legalChar_le (asciiOnly : Bool) (c : Char) :
    (String.utf8EncodeChar (legalChar asciiOnly c)).length ≤ (String.utf8EncodeChar c).length := by
  unfold legalChar
  split
  · rw [String.length_utf8EncodeChar, String.length_utf8EncodeChar]
    exact c.utf8Size_pos
  · exact Nat.le_refl _

theorem length_flatMap_map_legalChar_le (asciiOnly : Bool) (cs : List Char) :
    ((cs.map (legalChar asciiOnly)).flatMap String.utf8EncodeChar).length ≤
      (cs.flatMap String.utf8EncodeChar).length := by
  induction cs with
  | nil => exact Nat.le_refl _
  | cons c cs ih =>
    have hc := length_utf8EncodeChar_legalChar_le asciiOnly c
    rw [List.map_cons, List.flatMap_cons, List.flatMap_cons, List.length_append, List.length_append]
    omega

/-- What is read are characters, and they are sanitized one by one. -/
theorem exists_chars_sanitizeBytes (asciiOnly : Bool) (data : Bytes) :
    ∃ cs : List Char, data.take (Utf8.scannedLength data) = cs.flatMap String.utf8EncodeChar ∧
      sanitizeBytes asciiOnly data = (cs.map (legalChar asciiOnly)).flatMap String.utf8EncodeChar := by
  obtain ⟨cs, hcs⟩ := Utf8.exists_chars_of_isScalar fun v (hv : v ∈ Utf8.values data) => Utf8.isScalar_of_mem_values hv
  refine ⟨cs, ?_, ?_⟩
  · rw [← Utf8.flatMap_encodeValue_map_toNat, hcs, ← Utf8.flatMap_encodeValue_scan, Utf8.values, List.flatMap_map]
  · rw [sanitizeBytes_eq, ← hcs, ← Utf8.flatMap_encodeValue_map_toNat, List.map_map, List.map_map]
    congr 2
    funext c
    exact (toNat_legalChar asciiOnly c).symm

/-- `é` and `:` become underscores, and what follows the stray byte is dropped. -/
example : sanitizeBytes true [0x61, 0xC3, 0xA9, 0x3A, 0xFF, 0x62] = [0x61, 0x5F, 0x5F] := by decide +kernel

namespace Name

end Name

/-! ## Twice, and in parts -/

/-- What is illegal stays illegal if only ASCII is wanted. -/
theorem isIllegal_asciiOnly {value : Int} (h : isIllegal false value = true) : isIllegal true value = true := by
  simp only [isIllegal, Bool.or_eq_true, Bool.false_eq_true, if_false, if_true, decide_eq_true_eq, beq_iff_eq] at h ⊢
  exact h.imp_right fun h => by omega

theorem isIllegal_or (f g : Bool) (value : Int) :
    isIllegal (f || g) value = (isIllegal f value || isIllegal g value) := by
  rw [Bool.eq_iff_iff, Bool.or_eq_true]
  cases f with
  | false =>
    cases g with
    | false => exact or_self_iff.symm
    | true => exact (or_iff_right_of_imp isIllegal_asciiOnly).symm
  | true =>
    cases g with
    | false => exact (or_iff_left_of_imp isIllegal_asciiOnly).symm
    | true => exact or_self_iff.symm

theorem legalValue_legalValue (f g : Bool) (value : Nat) :
    legalValue g (legalValue f value) = legalValue (f || g) value := by
  unfold legalValue
  rw [isIllegal_or]
  cases isIllegal f value with
  | true => exact if_neg (Bool.eq_false_iff.mp (isIllegal_underscore g))
  | false => rfl

theorem sanitizeBytes_sanitizeBytes (f g : Bool) (data : Bytes) :
    sanitizeBytes g (sanitizeBytes f data) = sanitizeBytes (f || g) data := by
  rw [sanitizeBytes_eq, values_sanitizeBytes, List.map_map, sanitizeBytes_eq]
  congr 2
  funext value
  exact legalValue_legalValue f g value

theorem sanitizeBytes_append (f : Bool) {a : Bytes} (ha : Utf8.WellFormed a) (b : Bytes) :
    sanitizeBytes f (a ++ b) = sanitizeBytes f a ++ sanitizeBytes f b := by
  rw [sanitizeBytes_eq, ha.values_append, List.map_append, List.flatMap_append, ← sanitizeBytes_eq,
    ← sanitizeBytes_eq]

namespace Name

theorem result_sanitize_bytes (f : Bool) (data : Bytes) :
    ((Name.bytes data).sanitize f).result = .ok (.bytes (sanitizeBytes f data)) := rfl

/-- **Sanitizing twice is sanitizing once**, for ASCII alone if one of the two is; and what stands behind UTF-8
is sanitized as if it stood alone. -/
theorem sanitize_twice_and_in_parts :
    (∀ (name : Name) (f g : Bool), ∃ once both : Name,
      (name.sanitize f).result = .ok once ∧ (once.sanitize g).result = .ok both ∧
        (name.sanitize (f || g)).result = .ok both) ∧
    ∀ (f : Bool) (a b : Bytes), Utf8.WellFormed a → ∃ a' b' : Bytes,
      ((Name.bytes a).sanitize f).result = .ok (.bytes a') ∧
        ((Name.bytes b).sanitize f).result = .ok (.bytes b') ∧
        ((Name.bytes (a ++ b)).sanitize f).result = .ok (.bytes (a' ++ b')) := by
  constructor
  · intro name f g
    obtain ⟨once, honce, hbytes, hform⟩ := name.exists_sanitize f
    obtain ⟨both, hboth, -, -⟩ := name.exists_sanitize (f || g)
    refine ⟨once, both, honce, ?_, hboth⟩
    rw [← hboth]
    show once.withBytes (sanitizeBytes g once.toBytes) = name.withBytes (sanitizeBytes (f || g) name.toBytes)
    rw [hbytes, sanitizeBytes_sanitizeBytes, hform.withBytes_eq]
  · intro f a b ha
    refine ⟨sanitizeBytes f a, sanitizeBytes f b, rfl, rfl, ?_⟩
    rw [result_sanitize_bytes, sanitizeBytes_append f ha]

/-- A continuation byte behind `é` is cut off with all that follows, and `é` is kept or replaced as it is alone. -/
theorem sanitize_twice_and_in_parts_seam :
    Utf8.WellFormed [0xC3, 0xA9] ∧ ∃ a' b' : Bytes,
      ((Name.bytes [0xC3, 0xA9]).sanitize true).result = .ok (.bytes a') ∧
        ((Name.bytes [0xA9, 0x3A]).sanitize true).result = .ok (.bytes b') ∧
        ((Name.bytes [0xC3, 0xA9, 0xA9, 0x3A]).sanitize true).result = .ok (.bytes (a' ++ b')) := by
  have hwf : Utf8.WellFormed [0xC3, 0xA9] := Utf8.wellFormed_encodeValue (v := 0xE9) (by decide)
  exact ⟨hwf, sanitize_twice_and_in_parts.2 true [0xC3, 0xA9] [0xA9, 0x3A] hwf⟩

end Name

end SafePath
