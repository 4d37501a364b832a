import SafePath.Proofs.Path.Parts

/-!
# Text and bytes are built alike

A part of a path counts by its bytes, whatever form it is given in.  So a call with text and the call
with the bytes of the text take the same way, and differ in the last step alone, where the path is put
into the form of the file name (`result_pathOfParts_inBytes`).  For text that step reads the path as
UTF-8, which a path behind a text name always is (`exists_withBytes_of_pathOfBytes`).
-/

namespace SafePath

namespace Name

def inBytes (name : Name) : Name := .bytes name.toBytes

@[simp] theorem toBytes_inBytes (name : Name) : name.inBytes.toBytes = name.toBytes := rfl

@[simp] theorem withBytes_inBytes (name : Name) (data : Bytes) :
    name.inBytes.withBytes data = .ok (.bytes data) := rfl

theorem isEmpty_inBytes (name : Name) : name.inBytes.isEmpty = name.isEmpty := by
  have h : name.inBytes.isEmpty = true ↔ name.isEmpty = true := by
    rw [← toBytes_eq_nil_iff, ← toBytes_eq_nil_iff, toBytes_inBytes]
  exact Bool.eq_iff_iff.mpr h

end Name

namespace Path

@[simp] theorem partBytes_map_inBytes (part : Option Name) :
    partBytes (part.map Name.inBytes) = partBytes part := by
  cases part <;> rfl

/-- Bytes have a path if they are acceptable and the components fit: that is the path. -/
theorem fitComponents_of_pathOfBytes {limits : Limits} {leading file extension path : Bytes}
    (hnamed : file ≠ []) (h : (pathOfBytes limits leading file extension).result = .ok path) :
    Acceptable limits.separator leading file extension ∧
      fitComponents limits.separator limits.maxComponent extension
        (assemble limits.separator leading file extension) = .ok path := by
  unfold pathOfBytes at h
  cases hjoin : join limits.separator leading file extension with
  | error fault =>
    rw [hjoin] at h
    cases h
  | ok buffer =>
    obtain ⟨hacc, rfl⟩ := (join_eq_ok_iff hnamed buffer).mp hjoin
    rw [hjoin] at h
    simp only [result_fit limits _ _ hacc.component_noNul] at h
    refine ⟨hacc, ?_⟩
    cases hfit : fitComponents limits.separator limits.maxComponent extension
      (assemble limits.separator leading file extension) with
    | error reason =>
      rw [hfit] at h
      cases h
    | ok fitted =>
      rw [hfit] at h
      by_cases hle : limits.maxPath ≤ fitted.length
      · simp only [hle, if_true] at h
        cases h
      · simp only [hle, if_false] at h
        cases h
        rfl

end Path

open SafePath.Path

/-- The path of the bytes of a name comes back in the form of the name. -/
theorem exists_withBytes_of_pathOfBytes {leading : Option Name} {file : Name}
    {extension : Option Name} {limits : Limits} {path : Bytes} (hne : ¬file.isEmpty = true)
    (h : (pathOfBytes limits (partBytes leading) file.toBytes (partBytes extension)).result = .ok path) :
    ∃ name, file.withBytes path = .ok name ∧ name.toBytes = path ∧ name.SameForm file := by
  have hnamed : file.toBytes ≠ [] := fun hnil => hne (file.toBytes_eq_nil_iff.mp hnil)
  obtain ⟨hacc, hfit⟩ := fitComponents_of_pathOfBytes hnamed h
  exact exists_withBytes_of_fitComponents hacc hfit

section
variable (leading : Option Name) (file : Name) (extension : Option Name) (limits : Limits)

/-- Parts have the same records in bytes. -/
theorem records_pathOfParts_inBytes :
    (pathOfParts (leading.map Name.inBytes) file.inBytes (extension.map Name.inBytes) limits).records =
      (pathOfParts leading file extension limits).records := by
  unfold pathOfParts
  rw [file.isEmpty_inBytes]
  by_cases hempty : file.isEmpty = true
  · rw [if_pos hempty, if_pos hempty]
  · rw [if_neg hempty, if_neg hempty]
    simp only [partBytes_map_inBytes, Name.toBytes_inBytes]

/-- Parts have the same result in bytes, in the form of bytes. -/
theorem result_pathOfParts_inBytes :
    (pathOfParts (leading.map Name.inBytes) file.inBytes (extension.map Name.inBytes) limits).result =
      (pathOfParts leading file extension limits).result.map Name.inBytes := by
  unfold pathOfParts
  rw [file.isEmpty_inBytes]
  by_cases hempty : file.isEmpty = true
  · rw [if_pos hempty, if_pos hempty]
    rfl
  · rw [if_neg hempty, if_neg hempty]
    simp only [partBytes_map_inBytes, Name.toBytes_inBytes, Name.withBytes_inBytes]
    cases hresult : (pathOfBytes limits (partBytes leading) file.toBytes (partBytes extension)).result with
    | error error => rfl
    | ok path =>
      obtain ⟨name, hname, hbytes, -⟩ := exists_withBytes_of_pathOfBytes hempty hresult
      simp only [hname, Except.map, Name.inBytes, hbytes]

end

/-- **Text is built like its bytes.**  A text name has a path that is text, or a path error, and never a
fault of reading the path as text.  With all parts given as their bytes, the path is the same in UTF-8,
the error is the same, and so are the records. -/
theorem pathOfParts_agrees_inBytes (leading : Option Name) (t : Text) (extension : Option Name)
    (limits : Limits) :
    let asText := pathOfParts leading (.text t) extension limits
    let asBytes :=
      pathOfParts (leading.map Name.inBytes) (.bytes t.encode) (extension.map Name.inBytes) limits
    asBytes.records = asText.records ∧
      ((∃ path : Text, asText.result = .ok (.text path) ∧ (∀ c ∈ path, ¬c.IsSurrogate) ∧
          asBytes.result = .ok (.bytes path.encode)) ∨
        ∃ error, asText.result = .error (.path error) ∧ asBytes.result = .error (.path error)) := by
  intro asText asBytes
  have hresult : asBytes.result = asText.result.map Name.inBytes :=
    result_pathOfParts_inBytes leading (.text t) extension limits
  refine ⟨records_pathOfParts_inBytes leading (.text t) extension limits, ?_⟩
  rw [hresult]
  rcases exists_of_pathOfParts leading (.text t) extension limits with
    ⟨name, hname, hform, hwf⟩ | ⟨error, herror⟩
  · cases name with
    | bytes b => exact hform.elim
    | text path =>
      have hplain : Utf8.WellFormed (path.encode ++ []) := by
        rw [List.append_nil]
        exact hwf (closed_text t)
      exact Or.inl ⟨path, hname, ((path.wellFormed_encode_append_iff []).mp hplain).1,
        congrArg (·.map Name.inBytes) hname⟩
  · exact Or.inr ⟨error, herror, congrArg (·.map Name.inBytes) herror⟩

end SafePath
