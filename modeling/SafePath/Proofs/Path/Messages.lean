import SafePath.Path.Parts
import SafePath.Proofs.Text.Shown

/-!
# What is said about a name on the way to its path

Reports and errors about a path consist of fixed wording, numbers and, where the separator is named, quoted
text.  So a name has no way into them, and neither has the directory or the extension: for every call, the
error and all records are safe to show (`isShown_pathOfRawName`).
-/

namespace SafePath

open Text

/-- The error of a call and its records are safe to show. -/
structure Log.Logged.IsShown {ε α : Type} (describe : ε → Text) (call : Logged (Except ε α)) : Prop where
  error : ∀ e, call.result = .error e → (describe e).IsShown
  record : ∀ r ∈ call.records, r.message.IsShown

theorem Utf8.Strict.DecodeFailure.isShown_message (failure : Utf8.Strict.DecodeFailure) :
    failure.message.IsShown := by
  have hreason : failure.reason.message.IsShown := by
    cases failure.reason with
    | badStart => decide
    | badContinuation => decide
    | cutShort => decide
  unfold message
  split
  · simp +decide only [isShown_append_iff, Numeral.isShown_lowerHex, Numeral.isShown_decimal, hreason, and_self]
  · simp +decide only [isShown_append_iff, Numeral.isShown_decimal, hreason, and_self]

theorem isShown_shownLength (n : Int) : (shownLength n).IsShown :=
  isShown_append_iff.mpr ⟨by decide, Numeral.isShown_upperHex n⟩

namespace Path

theorem isShown_cutRecord (c : Cut) : c.record.message.IsShown := by
  simp +decide only [Cut.record, record, isShown_append_iff, Numeral.isShown_decimal, and_self]

theorem isShown_cutRecords (cuts : List Cut) : ∀ r ∈ cuts.map Cut.record, r.message.IsShown := by
  rw [List.forall_mem_map]
  exact fun c _ => isShown_cutRecord c

/-- What is wrong with parts is said without the parts. -/
theorem isShown_partFault {fault : PartFault} (h : ∀ message, fault = .other message → message.IsShown) :
    fault.message.IsShown ∧ (partFaultRecord fault).message.IsShown := by
  cases fault with
  | emptyName => decide
  | embeddedNul => decide
  | separatorInExtension separator =>
    simp +decide only [PartFault.message, partFaultRecord, record, isShown_append_iff, isShown_quoted, and_self]
  | other message =>
    simp +decide only [PartFault.message, partFaultRecord, record, isShown_append_iff, h message rfl, and_self]

theorem ne_other_of_partFault? {separator : UInt8} {leading file extension : Bytes} {fault : PartFault}
    (h : partFault? separator leading file extension = some fault) (message : Text) :
    fault ≠ .other message := by
  unfold partFault? at h
  rintro rfl
  split at h
  · cases h
  split at h
  · cases h
  · cases h

theorem isShown_of_join {separator : UInt8} {leading file extension : Bytes} {fault : PathFault}
    {report : Log.Record} (h : join separator leading file extension = .error (fault, report)) :
    fault.message.IsShown ∧ report.message.IsShown := by
  unfold join at h
  split at h
  · next part hpart =>
    cases h
    exact isShown_partFault fun message heq => absurd heq (ne_other_of_partFault? hpart message)
  · simp only at h
    split at h
    · next offset _ =>
      cases h
      have hmessage : (PathFault.malformed offset []).message.IsShown :=
        isShown_append_iff.mpr ⟨by decide, Numeral.isShown_signedDecimal _⟩
      exact ⟨hmessage, isShown_append_iff.mpr ⟨by decide, hmessage⟩⟩
    · cases h

theorem isShown_fit (limits : Limits) (extension buffer : Bytes) :
    (fit limits extension buffer).IsShown PathFault.message := by
  unfold fit
  split
  · next cuts reason _ =>
    have hmessage : (PathFault.extensionTooLong reason.extensionLength reason.boundary).message.IsShown := by
      simp +decide only [PathFault.message, extensionTooLongMessage, isShown_append_iff, isShown_shownLength,
        and_self]
    refine ⟨fun e he => by cases he; exact hmessage, ?_⟩
    rw [List.forall_mem_append, List.forall_mem_singleton]
    exact ⟨isShown_cutRecords cuts, hmessage⟩
  · next cuts path _ =>
    split
    · have hmessage : (PathFault.pathTooLong path.length limits.maxPath).message.IsShown := by
        simp +decide only [PathFault.message, pathTooLongMessage, isShown_append_iff, isShown_shownLength,
          and_self]
      have hreport : (tooLongRecord path.length).message.IsShown := by
        simp +decide only [tooLongRecord, record, isShown_append_iff, isShown_shownLength, and_self]
      refine ⟨fun e he => by cases he; exact hmessage, ?_⟩
      rw [List.forall_mem_append, List.forall_mem_singleton]
      exact ⟨isShown_cutRecords cuts, hreport⟩
    · exact ⟨nofun, isShown_cutRecords cuts⟩

theorem isShown_pathOfBytes (limits : Limits) (leading file extension : Bytes) :
    (pathOfBytes limits leading file extension).IsShown PathFault.message := by
  unfold pathOfBytes
  split
  · next error report h =>
    obtain ⟨hmessage, hreport⟩ := isShown_of_join h
    exact ⟨fun e he => by cases he; exact hmessage, List.forall_mem_singleton.mpr hreport⟩
  · exact isShown_fit limits extension _

end Path

/-- Bytes that are no text are told by numbers. -/
theorem isShown_of_withBytes {form : Name} {data : Bytes} {fault : Fault}
    (h : form.withBytes data = .error fault) : fault.message.IsShown := by
  cases form with
  | bytes b => cases h
  | text t =>
    unfold Name.withBytes at h
    simp only at h
    split at h
    · cases h
    · next failure _ =>
      cases h
      exact failure.isShown_message

section
variable (limits : Limits) (leading extension : Option Name)

theorem isShown_pathOfParts (file : Name) :
    (pathOfParts leading file extension limits).IsShown Fault.message := by
  unfold pathOfParts
  split
  · have hempty : ∀ message : Text, PartFault.emptyName = .other message → message.IsShown := nofun
    obtain ⟨hmessage, hreport⟩ := Path.isShown_partFault hempty
    exact ⟨fun e he => by cases he; exact hmessage, List.forall_mem_singleton.mpr hreport⟩
  · obtain ⟨herror, hrecord⟩ :=
      Path.isShown_pathOfBytes limits (Path.partBytes leading) file.toBytes (Path.partBytes extension)
    refine ⟨fun e he => ?_, hrecord⟩
    simp only at he
    split at he
    · exact isShown_of_withBytes he
    · next error hresult =>
      cases he
      exact herror error hresult

/-- **Nothing of a raw name is said about it unquoted**: the error and all records are safe to show. -/
theorem isShown_pathOfRawName (raw : Name) (asciiOnly : Bool) :
    (pathOfRawName raw leading extension asciiOnly limits).IsShown Fault.message := by
  have hcut : ∀ r ∈ (raw.trim.sanitize asciiOnly).records, r.message.IsShown := by
    intro r hr
    obtain ⟨offset, -, rfl⟩ := Option.map_eq_some_iff.mp (Option.mem_toList.mp hr)
    simp +decide only [Name.cutRecord, isShown_append_iff, Numeral.isShown_decimal, and_self]
  unfold pathOfRawName
  simp only
  split
  · next fault hfault =>
    exact ⟨fun e he => by cases he; exact isShown_of_withBytes hfault, hcut⟩
  · next file _ =>
    obtain ⟨herror, hrecord⟩ := isShown_pathOfParts limits leading extension file
    refine ⟨herror, ?_⟩
    rw [List.forall_mem_append]
    exact ⟨hcut, hrecord⟩

end

end SafePath
