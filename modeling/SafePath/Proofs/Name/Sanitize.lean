import SafePath.Name.Sanitize
import SafePath.Proofs.Name.Basic
import SafePath.Proofs.Utf8.Boundary
import SafePath.Proofs.Utf8.Values

/-!
# A sanitized name holds allowed code points only

Sanitizing maps the code points of a name one by one, and an illegal one becomes an underscore, which is
legal (`values_sanitizeBytes`, `isIllegal_legalValue`).  So the result is UTF-8 whatever the name was, it
comes back in the form of the name (`exists_sanitize`), and an illegal ASCII byte occurs nowhere in it
(`not_mem_sanitizeBytes`).
-/

namespace SafePath

/-- The code point that stands for `value`. -/
def legalValue (asciiOnly : Bool) (value : Nat) : Nat := if isIllegal asciiOnly value then 0x5F else value

theorem isScalar_legalValue {value : Nat} (h : Utf8.IsScalar value) (asciiOnly : Bool) :
    Utf8.IsScalar (legalValue asciiOnly value) := by
  unfold legalValue
  split
  · exact Or.inl (by omega)
  · exact h

theorem isIllegal_underscore (asciiOnly : Bool) : isIllegal asciiOnly 0x5F = false := by
  cases asciiOnly <;> decide

theorem isIllegal_legalValue (asciiOnly : Bool) (value : Nat) :
    isIllegal asciiOnly (legalValue asciiOnly value) = false := by
  unfold legalValue
  split
  · exact isIllegal_underscore asciiOnly
  · next h => exact Bool.eq_false_iff.mpr h

/-- For ASCII it makes no difference whether only ASCII is wanted. -/
theorem isIllegal_of_ascii {value : Nat} (h : value < 0x80) (asciiOnly asciiOnly' : Bool) :
    isIllegal asciiOnly value = isIllegal asciiOnly' value := by
  have hrest : decide (0x7F ≤ (value : Int)) = ((value : Int) == 0x7F) := by
    rw [Bool.eq_iff_iff, decide_eq_true_iff, beq_iff_eq]
    omega
  unfold isIllegal
  rw [hrest]
  cases asciiOnly <;> cases asciiOnly' <;> rfl

section
variable (asciiOnly : Bool) (data : Bytes)

theorem sanitizeBytes_eq :
    sanitizeBytes asciiOnly data =
      ((Utf8.values data).map (legalValue asciiOnly)).flatMap Utf8.encodeValue := by
  rw [sanitizeBytes, Utf8.values, List.flatMap_map, List.flatMap_map]
  congr 1
  funext located
  unfold sanitizedValue legalValue
  split <;> rfl

theorem isScalar_of_mem_map_legalValue :
    ∀ v ∈ (Utf8.values data).map (legalValue asciiOnly), Utf8.IsScalar v := by
  rw [List.forall_mem_map]
  exact fun v hv => isScalar_legalValue (Utf8.isScalar_of_mem_values hv) asciiOnly

theorem wellFormed_sanitizeBytes : Utf8.WellFormed (sanitizeBytes asciiOnly data) := by
  rw [sanitizeBytes_eq]
  exact Utf8.wellFormed_flatMap (isScalar_of_mem_map_legalValue asciiOnly data)

theorem values_sanitizeBytes :
    Utf8.values (sanitizeBytes asciiOnly data) = (Utf8.values data).map (legalValue asciiOnly) := by
  rw [sanitizeBytes_eq]
  exact Utf8.values_flatMap (isScalar_of_mem_map_legalValue asciiOnly data)

theorem isIllegal_of_mem_values_sanitizeBytes {v : Nat}
    (h : v ∈ Utf8.values (sanitizeBytes asciiOnly data)) : isIllegal asciiOnly v = false := by
  rw [values_sanitizeBytes] at h
  obtain ⟨value, -, rfl⟩ := List.mem_map.mp h
  exact isIllegal_legalValue asciiOnly value

theorem not_mem_sanitizeBytes {b : UInt8} (hb : b < 0x80) (hillegal : isIllegal asciiOnly b.toNat = true) :
    b ∉ sanitizeBytes asciiOnly data := by
  intro hmem
  rw [sanitizeBytes_eq] at hmem
  obtain ⟨v, hv, hmem⟩ := List.mem_flatMap.mp hmem
  have hscalar := isScalar_of_mem_map_legalValue asciiOnly data v hv
  rw [Utf8.mem_encodeValue_iff_of_ascii hscalar.lt hb] at hmem
  obtain ⟨value, -, hvalue⟩ := List.mem_map.mp hv
  rw [← hmem, ← hvalue, isIllegal_legalValue] at hillegal
  cases hillegal

end

namespace Name

theorem sameForm_trim (name : Name) : name.trim.SameForm name := by
  cases name <;> trivial

theorem exists_sanitize (asciiOnly : Bool) (name : Name) :
    ∃ file, (name.sanitize asciiOnly).result = .ok file ∧
      file.toBytes = sanitizeBytes asciiOnly name.toBytes ∧ file.SameForm name :=
  exists_withBytes_of_wellFormed (wellFormed_sanitizeBytes asciiOnly name.toBytes) name

end Name

end SafePath
