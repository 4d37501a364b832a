import Mathlib.Order.Bounds.Basic
import SafePath.Proofs.Path.Forms

/-!
# When there is no path, and what is reported then

Parts are refused in a fixed order: what is wrong with them one by one comes before what is wrong with
them in one buffer, and both come before any cut.  `Outcome` says which cause leads to which result; its
cases exclude each other and leave nothing out (`outcome_pathOfParts`).

    the parts are unusable                   InvalidParts
    they are usable, but no UTF-8 together   malformed, at the last boundary of the buffer
    they are acceptable                      a path, or no room for the extension, or a path too long

Cuts are reported without gravity, so a failure is the only error among the records, and the last of them
(`reported_pathOfParts`).
-/

namespace SafePath

namespace Log

def errors (records : List Record) : List Record := records.filter fun r => r.level = .error

theorem errors_nil : errors [] = [] := rfl

theorem errors_append (a b : List Record) : errors (a ++ b) = errors a ++ errors b :=
  List.filter_append a b

theorem errors_singleton {report : Record} (h : report.level = .error) : errors [report] = [report] := by
  simp [errors, h]

/-- A failure is reported as one error, behind all other records; a success is not. -/
def Reported {ε α : Type} (result : Except ε α) (records : List Record) : Prop :=
  match result with
  | .ok _ => errors records = []
  | .error _ => ∃ report, errors records = [report] ∧ records.getLast? = some report

theorem reported_error {ε α : Type} (e : ε) {before : List Record} {report : Record}
    (hbefore : errors before = []) (hlevel : report.level = .error) :
    Reported (.error e : Except ε α) (before ++ [report]) := by
  refine ⟨report, ?_, List.getLast?_concat⟩
  rw [errors_append, hbefore, errors_singleton hlevel, List.nil_append]

end Log

namespace Path

/-- Parts that are wrong for themselves, before they are joined. -/
def Unusable (separator : UInt8) (leading file extension : Bytes) : Prop :=
  file = [] ∨ 0 ∈ leading ∨ 0 ∈ file ∨ 0 ∈ extension ∨ separator ∈ extension

section
variable {separator : UInt8} {leading file extension : Bytes}

instance : Decidable (Unusable separator leading file extension) := by
  unfold Unusable
  infer_instance

theorem acceptable_iff_usable :
    Acceptable separator leading file extension ↔
      ¬Unusable separator leading file extension ∧
        Utf8.WellFormed (assemble separator leading file extension) := by
  rw [acceptable_iff]
  unfold Unusable
  simp only [not_or, ne_eq, and_assoc]

theorem partFault?_eq_none_iff_usable (hnamed : file ≠ []) :
    partFault? separator leading file extension = none ↔ ¬Unusable separator leading file extension := by
  rw [partFault?_eq_none_iff]
  unfold Unusable
  simp only [not_or, hnamed, not_false_eq_true, true_and]

/-! ## The reports -/

theorem errors_cuts (cuts : List Cut) : Log.errors (cuts.map Cut.record) = [] := by
  unfold Log.errors
  rw [List.filter_eq_nil_iff, List.forall_mem_map]
  intro cut _ hlevel
  cases of_decide_eq_true hlevel

theorem level_of_join {fault : PathFault} {report : Log.Record}
    (h : join separator leading file extension = .error (fault, report)) : report.level = .error := by
  unfold join at h
  split at h
  · cases h
    rfl
  · simp only at h
    split at h
    · cases h
      rfl
    · cases h

theorem reported_fit (limits : Limits) (extension buffer : Bytes) :
    Log.Reported (fit limits extension buffer).result (fit limits extension buffer).records := by
  unfold fit
  split
  · exact Log.reported_error _ (errors_cuts _) rfl
  · split
    · exact Log.reported_error _ (errors_cuts _) rfl
    · exact errors_cuts _

theorem reported_pathOfBytes (limits : Limits) (leading file extension : Bytes) :
    Log.Reported (pathOfBytes limits leading file extension).result
      (pathOfBytes limits leading file extension).records := by
  unfold pathOfBytes
  split
  · next h => exact Log.reported_error _ Log.errors_nil (level_of_join h)
  · exact reported_fit limits _ _

end

/-- What parts come to, and why. -/
inductive Outcome (separator : UInt8) (leading file extension : Bytes) : Except Fault Name → Prop
  | unusable (fault : PartFault) (h : Unusable separator leading file extension) :
    Outcome separator leading file extension (.error (.path (.invalidParts fault)))
  | malformed (offset : Nat) (usable : ¬Unusable separator leading file extension)
    (h : ¬Utf8.WellFormed (assemble separator leading file extension))
    (greatest :
      IsGreatest {n | Utf8.IsBoundary (assemble separator leading file extension) n} offset) :
    Outcome separator leading file extension (.error (.path (.malformed offset [])))
  | noRoom (extensionLength boundary : Int) (h : Acceptable separator leading file extension) :
    Outcome separator leading file extension
      (.error (.path (.extensionTooLong extensionLength boundary)))
  | tooLong (length limit : Int) (h : Acceptable separator leading file extension) :
    Outcome separator leading file extension (.error (.path (.pathTooLong length limit)))
  | path (name : Name) (h : Acceptable separator leading file extension) :
    Outcome separator leading file extension (.ok name)

namespace Outcome

variable {separator : UInt8} {leading file extension : Bytes} {result : Except Fault Name}

theorem invalidParts_iff (h : Outcome separator leading file extension result) :
    (∃ fault, result = .error (.path (.invalidParts fault))) ↔
      Unusable separator leading file extension := by
  constructor
  · rintro ⟨fault, rfl⟩
    cases h with
    | unusable _ hun => exact hun
  · intro hun
    cases h with
    | unusable fault _ => exact ⟨fault, rfl⟩
    | malformed _ husable _ _ => exact absurd hun husable
    | noRoom _ _ hacc => exact absurd hun (acceptable_iff_usable.mp hacc).1
    | tooLong _ _ hacc => exact absurd hun (acceptable_iff_usable.mp hacc).1
    | path _ hacc => exact absurd hun (acceptable_iff_usable.mp hacc).1

theorem malformed_iff (h : Outcome separator leading file extension result) (offset : Int) (note : Text) :
    result = .error (.path (.malformed offset note)) ↔
      ¬Unusable separator leading file extension ∧
        ¬Utf8.WellFormed (assemble separator leading file extension) ∧ note = [] ∧
          ∃ n : Nat, offset = n ∧
            IsGreatest {n | Utf8.IsBoundary (assemble separator leading file extension) n} n := by
  constructor
  · rintro rfl
    cases h with
    | malformed n husable hmal hgreatest => exact ⟨husable, hmal, rfl, n, rfl, hgreatest⟩
  · rintro ⟨husable, hmal, rfl, n, rfl, hgreatest⟩
    cases h with
    | unusable _ hun => exact absurd hun husable
    | malformed n' _ _ hgreatest' => rw [hgreatest'.unique hgreatest]
    | noRoom _ _ hacc => exact absurd hacc.wellFormed hmal
    | tooLong _ _ hacc => exact absurd hacc.wellFormed hmal
    | path _ hacc => exact absurd hacc.wellFormed hmal

theorem acceptable_iff (h : Outcome separator leading file extension result) :
    ((∃ path, result = .ok path) ∨
        (∃ extensionLength boundary,
          result = .error (.path (.extensionTooLong extensionLength boundary))) ∨
        ∃ length limit, result = .error (.path (.pathTooLong length limit))) ↔
      Acceptable separator leading file extension := by
  constructor
  · rintro (⟨path, rfl⟩ | ⟨extensionLength, boundary, rfl⟩ | ⟨length, limit, rfl⟩)
    · cases h with
      | path _ hacc => exact hacc
    · cases h with
      | noRoom _ _ hacc => exact hacc
    · cases h with
      | tooLong _ _ hacc => exact hacc
  · intro hacc
    cases h with
    | unusable _ hun => exact absurd hun (acceptable_iff_usable.mp hacc).1
    | malformed _ _ hmal _ => exact absurd hacc.wellFormed hmal
    | noRoom extensionLength boundary _ => exact Or.inr (Or.inl ⟨extensionLength, boundary, rfl⟩)
    | tooLong length limit _ => exact Or.inr (Or.inr ⟨length, limit, rfl⟩)
    | path name _ => exact Or.inl ⟨name, rfl⟩

end Outcome

end Path

open SafePath.Path

section
variable (leading : Option Name) (file : Name) (extension : Option Name) (limits : Limits)

/-- A failure of parts is reported as one error, behind the reports of the cuts. -/
theorem reported_pathOfParts :
    Log.Reported (pathOfParts leading file extension limits).result
      (pathOfParts leading file extension limits).records := by
  unfold pathOfParts
  split
  · exact Log.reported_error _ Log.errors_nil rfl
  · next hne =>
    have hreported :=
      reported_pathOfBytes limits (partBytes leading) file.toBytes (partBytes extension)
    cases hresult :
      (pathOfBytes limits (partBytes leading) file.toBytes (partBytes extension)).result with
    | error error =>
      rw [hresult] at hreported
      simp only [hresult]
      exact hreported
    | ok path =>
      -- the path has the form of the name, so nothing fails behind the last record
      obtain ⟨name, hname, -, -⟩ := exists_withBytes_of_pathOfBytes hne hresult
      rw [hresult] at hreported
      simp only [hresult, hname]
      exact hreported

/-- Unusable parts are refused for themselves. -/
theorem exists_invalidParts_of_unusable
    (h : Unusable limits.separator (partBytes leading) file.toBytes (partBytes extension)) :
    ∃ fault, (pathOfParts leading file extension limits).result =
      .error (.path (.invalidParts fault)) := by
  unfold pathOfParts
  by_cases hempty : file.isEmpty = true
  · rw [if_pos hempty]
    exact ⟨_, rfl⟩
  · have hnamed : file.toBytes ≠ [] := fun hnil => hempty (file.toBytes_eq_nil_iff.mp hnil)
    rw [if_neg hempty]
    unfold pathOfBytes join
    cases hfault : partFault? limits.separator (partBytes leading) file.toBytes (partBytes extension) with
    | none => exact absurd h ((partFault?_eq_none_iff_usable hnamed).mp hfault)
    | some fault => exact ⟨fault, rfl⟩

/-- Usable parts that are no UTF-8 together are refused where they stop being UTF-8. -/
theorem malformed_of_usable
    (husable : ¬Unusable limits.separator (partBytes leading) file.toBytes (partBytes extension))
    (h : ¬Utf8.WellFormed
      (assemble limits.separator (partBytes leading) file.toBytes (partBytes extension))) :
    (pathOfParts leading file extension limits).result =
      .error (.path (.malformed
        (Utf8.scannedLength
          (assemble limits.separator (partBytes leading) file.toBytes (partBytes extension))) [])) := by
  have hnamed : file.toBytes ≠ [] := fun hnil => husable (Or.inl hnil)
  have hne : ¬file.isEmpty = true := fun hempty => hnamed (file.toBytes_eq_nil_iff.mpr hempty)
  unfold pathOfParts pathOfBytes join
  rw [if_neg hne, (partFault?_eq_none_iff_usable hnamed).mpr husable]
  simp only [Utf8.malformedAt_of_not_wellFormed h]

/-- Every result has its cause. -/
theorem outcome_pathOfParts :
    Outcome limits.separator (partBytes leading) file.toBytes (partBytes extension)
      (pathOfParts leading file extension limits).result := by
  by_cases hun : Unusable limits.separator (partBytes leading) file.toBytes (partBytes extension)
  · obtain ⟨fault, hresult⟩ := exists_invalidParts_of_unusable leading file extension limits hun
    rw [hresult]
    exact .unusable fault hun
  by_cases hwf : Utf8.WellFormed
    (assemble limits.separator (partBytes leading) file.toBytes (partBytes extension))
  · have hacc := acceptable_iff_usable.mpr ⟨hun, hwf⟩
    rw [result_pathOfParts hacc]
    cases hfit : fitComponents limits.separator limits.maxComponent (partBytes extension)
      (assemble limits.separator (partBytes leading) file.toBytes (partBytes extension)) with
    | error reason => exact .noRoom _ _ hacc
    | ok path =>
      simp only
      split
      · exact .tooLong _ _ hacc
      · obtain ⟨name, hname, -, -⟩ := exists_withBytes_of_fitComponents hacc hfit
        rw [hname]
        exact .path name hacc
  · rw [malformed_of_usable leading file extension limits hun hwf]
    exact .malformed _ hun hwf (Utf8.scannedLength_isGreatest _)

end

/-- **When parts have no path, and what is reported.**  They are invalid exactly if the name is empty, or
a NUL stands in one of them, or the separator in the extension; else they are malformed exactly if the
buffer is no UTF-8, and the offset is the length of its longest part from the left that is; else there is
a path or a length at fault.  A failure is one error among the records, and the last of them. -/
theorem pathOfParts_refuses (leading : Option Name) (file : Name) (extension : Option Name)
    (limits : Limits) :
    let whole := assemble limits.separator (partBytes leading) file.toBytes (partBytes extension)
    let unusable :=
      file.isEmpty = true ∨ 0 ∈ partBytes leading ∨ 0 ∈ file.toBytes ∨ 0 ∈ partBytes extension ∨
        limits.separator ∈ partBytes extension
    let call := pathOfParts leading file extension limits
    ((∃ fault, call.result = .error (.path (.invalidParts fault))) ↔ unusable) ∧
      (∀ offset note, call.result = .error (.path (.malformed offset note)) ↔
        ¬unusable ∧ ¬Utf8.WellFormed whole ∧ note = [] ∧
          ∃ n : Nat, offset = n ∧ IsGreatest {n | Utf8.IsBoundary whole n} n) ∧
      (((∃ path, call.result = .ok path) ∨
          (∃ extensionLength boundary,
            call.result = .error (.path (.extensionTooLong extensionLength boundary))) ∨
          ∃ length limit, call.result = .error (.path (.pathTooLong length limit))) ↔
        ¬unusable ∧ Utf8.WellFormed whole) ∧
      Log.Reported call.result call.records := by
  intro whole unusable call
  have hunusable :
      unusable ↔ Unusable limits.separator (partBytes leading) file.toBytes (partBytes extension) := by
    show file.isEmpty = true ∨ _ ↔ file.toBytes = [] ∨ _
    rw [file.toBytes_eq_nil_iff]
  have houtcome : Outcome limits.separator (partBytes leading) file.toBytes (partBytes extension)
      call.result := outcome_pathOfParts leading file extension limits
  rw [hunusable]
  exact ⟨houtcome.invalidParts_iff, houtcome.malformed_iff,
    houtcome.acceptable_iff.trans acceptable_iff_usable,
    reported_pathOfParts leading file extension limits⟩

end SafePath
