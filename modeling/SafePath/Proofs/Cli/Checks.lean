import Mathlib.Data.List.DropRight
import SafePath.Argument.Path
import SafePath.Proofs.Cli.Batch
import SafePath.Proofs.Path.Refusal

/-!
# What the checks of the tool leave to go wrong

The tool looks at names and at the extension before any path is built, and the library looks at them again in
other ways.  The tool asks for a code point that is not blank in Unicode, where six ASCII characters are trimmed;
it looks for the separator in a text, the library in the bytes of that text.  The two agree:

    what is not blank is not trimmed away                              (stripWhere_isAsciiBlank_ne_nil)
    a validated extension does not hold the byte of the separator      (separator_not_mem_of_validate)

A name that is left may still be nothing to the sanitizer, if a surrogate comes first
(`sanitizeBytes_cons_eq_nil_iff`); else it is UTF-8 without a NUL.  So, behind a directory and in front of an
extension that are so too, the name may come out empty, or a length be too great, and nothing else goes wrong
(`Checks.pathOfRawName_cases`).  That is what a run makes of the names that it takes (`built_of_run`).  An untyped
call that is given texts comes to the same (`result_pathOfRawName_ofText?`), and its errors can be made, since
whole limits can be shown.
-/

namespace SafePath

open SafePath.Path

/-! ## Texts that are checked -/

namespace Text

/-- No NUL and no surrogate is in the text. -/
def IsClean (t : Text) : Prop := ∀ c ∈ t, c.val ≠ 0 ∧ ¬c.IsSurrogate

instance (t : Text) : Decidable t.IsClean := by
  unfold IsClean
  infer_instance

theorem stripWhere_eq_nil_iff (p : CodePoint → Bool) (t : Text) :
    t.stripWhere p = [] ↔ ∀ c ∈ t, p c = true := by
  show (t.dropWhile p).rdropWhile p = [] ↔ _
  rw [List.rdropWhile_eq_nil_iff]
  constructor
  · intro h c hc
    rw [← List.takeWhile_append_dropWhile (p := p) (l := t), List.mem_append] at hc
    exact hc.elim List.mem_takeWhile_imp (h c)
  · exact fun h c hc => h c ((List.dropWhile_suffix p).subset hc)

/-- What is trimmed is blank, so a text that is not blank is not trimmed away. -/
theorem stripWhere_isAsciiBlank_ne_nil {t : Text} (h : t.isAllBlank = false) :
    t.stripWhere CodePoint.isAsciiBlank ≠ [] := by
  intro hnil
  rw [stripWhere_eq_nil_iff] at hnil
  have hblank : t.isAllBlank = true :=
    List.all_eq_true.mpr fun c hc => CodePoint.isBlank_of_isAsciiBlank (hnil c hc)
  rw [h] at hblank
  cases hblank

theorem contains_singleton_iff (c : CodePoint) (t : Text) : contains [c] t = true ↔ c ∈ t := by
  induction t with
  | nil => simp [contains]
  | cons d t ih => simp [contains, ih]

/-- An ASCII byte of a text is one of its code points. -/
theorem mem_encode_iff_of_ascii {b : UInt8} (hb : b < 0x80) (t : Text) :
    b ∈ t.encode ↔ ∃ c ∈ t, c.val = b.toNat := by
  induction t with
  | nil => simp
  | cons c t ih =>
    rw [encode_cons, List.mem_append, Utf8.mem_encodeValue_iff_of_ascii c.lt hb, ih]
    simp

/-- The separator is found in a text exactly if its byte is among the bytes. -/
theorem contains_textOfSeparator_iff {separator : UInt8} (hs : separator < 0x80) (t : Text) :
    contains (Limits.textOfSeparator separator) t = true ↔ separator ∈ t.encode := by
  rw [Limits.textOfSeparator, contains_singleton_iff, mem_encode_iff_of_ascii hs]
  constructor
  · exact fun hmem => ⟨_, hmem, rfl⟩
  · rintro ⟨⟨v, hv⟩, hmem, rfl⟩
    exact hmem

end Text

/-! ## Parts that are checked -/

namespace Path

/-- A part that is absent or clean. -/
def CleanPart (part : Option Text) : Prop := ∀ t, part = some t → t.IsClean

theorem CleanPart.partBytes {part : Option Text} (h : CleanPart part) :
    0 ∉ partBytes (part.map .text) ∧ Utf8.WellFormed (partBytes (part.map .text)) := by
  cases part with
  | none => exact ⟨List.not_mem_nil, .nil⟩
  | some t =>
    show 0 ∉ t.encode ∧ Utf8.WellFormed t.encode
    rw [Text.mem_encode_iff_of_ascii (by decide), Text.wellFormed_encode_iff]
    refine ⟨?_, fun c hc => (h t rfl c hc).2⟩
    rintro ⟨c, hc, hzero⟩
    exact (h t rfl c hc).1 hzero

theorem separator_not_mem_of_validate {settings : Config.Settings} {separator : UInt8} (hs : separator < 0x80)
    (h : settings.validate (Limits.textOfSeparator separator) = .ok ()) :
    separator ∉ partBytes (settings.extension.map .text) := by
  unfold Config.Settings.validate at h
  cases hext : settings.extension with
  | none => exact List.not_mem_nil
  | some extension =>
    simp only [hext] at h
    split at h
    · cases h
    split at h
    · cases h
    · next hnone => rwa [Text.contains_textOfSeparator_iff hs] at hnone

/-- Parts in which nothing is wrong but that the name may be empty: no NUL, no separator in the extension, and
UTF-8 each for itself. -/
structure SoundParts (separator : UInt8) (leading file extension : Bytes) : Prop where
  leading_noNul : 0 ∉ leading
  file_noNul : 0 ∉ file
  extension_noNul : 0 ∉ extension
  noSeparator : separator ∉ extension
  leading_wellFormed : Utf8.WellFormed leading
  file_wellFormed : Utf8.WellFormed file
  extension_wellFormed : Utf8.WellFormed extension

theorem SoundParts.acceptable {separator : UInt8} {leading file extension : Bytes}
    (h : SoundParts separator leading file extension) (hs : separator < 0x80) (hne : file ≠ []) :
    Acceptable separator leading file extension where
  named := hne
  leading_noNul := h.leading_noNul
  file_noNul := h.file_noNul
  extension_noNul := h.extension_noNul
  noSeparator := h.noSeparator
  wellFormed := by
    rw [assemble_eq]
    exact (wellFormed_folder hs h.leading_wellFormed).append (h.file_wellFormed.append h.extension_wellFormed)

end Path

/-- **Sound parts** fail for an empty name, or for a length. -/
theorem pathOfParts_of_sound {leading : Option Name} {file : Name} {extension : Option Name} {limits : Limits}
    (h : SoundParts limits.separator (partBytes leading) file.toBytes (partBytes extension)) :
    (file.toBytes = [] ∧
        (pathOfParts leading file extension limits).result = .error (.path (.invalidParts .emptyName))) ∨
      file.toBytes ≠ [] ∧
        ((∃ path, (pathOfParts leading file extension limits).result = .ok path) ∨
          (∃ extensionLength boundary, (pathOfParts leading file extension limits).result =
            .error (.path (.extensionTooLong extensionLength boundary))) ∨
          ∃ length limit, (pathOfParts leading file extension limits).result =
            .error (.path (.pathTooLong length limit))) := by
  by_cases hempty : file.toBytes = []
  · left
    refine ⟨hempty, ?_⟩
    unfold pathOfParts
    rw [if_pos (file.toBytes_eq_nil_iff.mp hempty)]
  · right
    have houtcome := outcome_pathOfParts leading file extension limits
    exact ⟨hempty, houtcome.acceptable_iff.mpr (h.acceptable limits.separator_ascii hempty)⟩

/-! ## Names that are checked -/

/-- Nothing is left of a name by the sanitizer exactly if it begins with a surrogate. -/
theorem sanitizeBytes_cons_eq_nil_iff (asciiOnly : Bool) (c : CodePoint) (rest : Text) :
    sanitizeBytes asciiOnly (Text.encode (c :: rest)) = [] ↔ c.IsSurrogate := by
  rw [sanitizeBytes_eq, Text.encode_cons]
  by_cases hc : Utf8.IsScalar c.val
  · rw [Utf8.values_encodeValue_append hc, List.map_cons, List.flatMap_cons, List.append_eq_nil_iff]
    simp only [Utf8.encodeValue_ne_nil, false_and, false_iff]
    exact (Text.isScalar_iff c).mp hc
  · -- nothing is read from the bytes of a surrogate on
    have hstop : Utf8.values (Utf8.encodeValue c.val ++ Text.encode rest) = [] := by
      apply Utf8.values_of_scanHead_none
      rw [Utf8.scanHead_encodeValue_append c.lt, if_neg hc]
    rw [hstop, List.map_nil, List.flatMap_nil]
    rw [Text.isScalar_iff, not_not] at hc
    simp only [hc]

/-- What the checks of the tool ask of a name, and of the directory and the extension around it. -/
structure Checks (name : Text) (leading extension : Option Text) (separator : UInt8) : Prop where
  named : name.isAllBlank = false
  leading_clean : CleanPart leading
  extension_clean : CleanPart extension
  noSeparator : separator ∉ partBytes (extension.map .text)

theorem Checks.of_validate {name : Text} {settings : Config.Settings} {separator : UInt8} (hs : separator < 0x80)
    (hname : name.isAllBlank = false) (hleading : CleanPart settings.outputPrefix)
    (hextension : CleanPart settings.extension)
    (hvalid : settings.validate (Limits.textOfSeparator separator) = .ok ()) :
    Checks name settings.outputPrefix settings.extension separator :=
  ⟨hname, hleading, hextension, separator_not_mem_of_validate hs hvalid⟩

/-- The name is one of text, and its first code point is a surrogate. -/
def Name.BeginsWithSurrogate (name : Name) : Prop := ∃ c rest, name = .text (c :: rest) ∧ c.IsSurrogate

section
variable {name : Text} {leading extension : Option Text} {limits : Limits}

theorem Checks.sound (h : Checks name leading extension limits.separator) (asciiOnly : Bool) (data : Bytes) :
    SoundParts limits.separator (partBytes (leading.map .text)) (sanitizeBytes asciiOnly data)
      (partBytes (extension.map .text)) where
  leading_noNul := h.leading_clean.partBytes.1
  file_noNul := not_mem_sanitizeBytes asciiOnly data (by decide) (by cases asciiOnly <;> decide)
  extension_noNul := h.extension_clean.partBytes.1
  noSeparator := h.noSeparator
  leading_wellFormed := h.leading_clean.partBytes.2
  file_wellFormed := wellFormed_sanitizeBytes asciiOnly data
  extension_wellFormed := h.extension_clean.partBytes.2

/-- **What comes of a name behind the checks**: no name, if a surrogate is left in front of it; else a path, or a
length that is too great. -/
theorem Checks.pathOfRawName_cases (h : Checks name leading extension limits.separator) (asciiOnly : Bool) :
    let result :=
      (pathOfRawName (.text name) (leading.map .text) (extension.map .text) asciiOnly limits).result
    ((Name.text name).trim.BeginsWithSurrogate ∧ result = .error (.path (.invalidParts .emptyName))) ∨
      ¬(Name.text name).trim.BeginsWithSurrogate ∧
        ((∃ path, result = .ok path) ∨
          (∃ extensionLength boundary, result = .error (.path (.extensionTooLong extensionLength boundary))) ∨
          ∃ length limit, result = .error (.path (.pathTooLong length limit))) := by
  intro result
  obtain ⟨c, rest, htrim⟩ := List.exists_cons_of_ne_nil (Text.stripWhere_isAsciiBlank_ne_nil h.named)
  have hname : (Name.text name).trim = .text (c :: rest) := by rw [Name.trim, htrim]
  have hbegins : (Name.text name).trim.BeginsWithSurrogate ↔ c.IsSurrogate := by
    rw [hname]
    constructor
    · rintro ⟨d, t, heq, hd⟩
      cases heq
      exact hd
    · exact fun hc => ⟨c, rest, rfl, hc⟩
  obtain ⟨file, hfile, hbytes, -⟩ := (Name.text name).trim.exists_sanitize asciiOnly
  have hresult : result = (pathOfParts (leading.map .text) file (extension.map .text) limits).result := by
    show (pathOfRawName _ _ _ _ _).result = _
    rw [result_pathOfRawName, hfile]
    rfl
  have hempty : file.toBytes = [] ↔ c.IsSurrogate := by
    rw [hbytes, hname]
    exact sanitizeBytes_cons_eq_nil_iff asciiOnly c rest
  have hsound := h.sound asciiOnly (Name.text name).trim.toBytes
  rw [← hbytes] at hsound
  rw [hbegins, ← hempty, hresult]
  exact pathOfParts_of_sound hsound

end

/-! ## The names of a run -/

namespace Cli

theorem isAllBlank_of_mem_obtainNames {files : Log.Journal → Files.Tree} {source : NamesSource} {j j' : Log.Journal}
    {names : List Text} (h : obtainNames files source j = (.ok names, j')) :
    ∀ name ∈ names, name.isAllBlank = false := by
  intro name hmem
  cases source with
  | both => cases h
  | nowhere => cases h
  | list list =>
    cases h
    have hpassed := (List.mem_filter.mp hmem).2
    simpa using hpassed
  | file path =>
    have hread : (readNames files path j).1 =
      ((files (Log.Journal.begin "read_names_file" j)).read path).map namesOf := rfl
    unfold obtainNames at h
    simp only at h
    split at h
    · next taken k htaken =>
      cases h
      rw [htaken] at hread
      cases hfile : (files (Log.Journal.begin "read_names_file" j)).read path with
      | error error =>
        rw [hfile] at hread
        cases hread
      | ok content =>
        rw [hfile] at hread
        cases hread
        have hpassed := (List.mem_filter.mp hmem).2
        rw [isNameLine, Bool.and_eq_true] at hpassed
        simpa using hpassed.1
    · cases h
    · cases h

theorem validate_of_configure {load : Config.EnvLoader} {options : Options} {m m' : Machine} {checked : Checked}
    (h : configure load options m = (.ready checked, m')) :
    checked.settings.validate checked.limits.separatorText = .ok () := by
  unfold configure at h
  simp only at h
  split at h
  · next fault _ =>
    unfold Configured.ofFault at h
    split at h <;> cases h
  split at h
  · cases h
  split at h
  · cases h
  split at h
  · cases h
  · next hvalid =>
    cases h
    exact hvalid

section
variable {load : Config.EnvLoader} {options : Options} {m m' : Machine} {checked : Checked}
  {files : Log.Journal → Files.Tree} {j j' : Log.Journal} {names : List Text}
  (hready : configure load options m = (.ready checked, m'))
  (hnames : obtainNames files options.namesSource j = (.ok names, j'))
  (hleading : CleanPart checked.settings.outputPrefix) (hextension : CleanPart checked.settings.extension)

include hready hnames hleading hextension

/-- What a run hands over has been checked, but for what its directory and its extension are made of. -/
theorem checks_of_run :
    ∀ name ∈ names,
      Checks name checked.settings.outputPrefix checked.settings.extension checked.limits.separator :=
  fun name hmem =>
    .of_validate checked.limits.separator_ascii (isAllBlank_of_mem_obtainNames hnames name hmem) hleading
      hextension (validate_of_configure hready)

/-- A name of a run has no path because a surrogate is left in front of it, or for a length. -/
theorem built_of_run {name : Text} (hmem : name ∈ names) {fault : Fault}
    (hfault : built checked.batch name = .error fault) :
    ((Name.text name).trim.BeginsWithSurrogate ∧ fault = .path (.invalidParts .emptyName)) ∨
      (∃ extensionLength boundary, fault = .path (.extensionTooLong extensionLength boundary)) ∨
      ∃ length limit, fault = .path (.pathTooLong length limit) := by
  have hchecks := checks_of_run hready hnames hleading hextension name hmem
  rcases hchecks.pathOfRawName_cases checked.settings.asciiOnly with
    ⟨hbegins, hempty⟩ | ⟨-, ⟨path, hpath⟩ | ⟨size, bound, hroom⟩ | ⟨size, bound, hlong⟩⟩
  · exact Or.inl ⟨hbegins, Except.error.inj (hfault.symm.trans hempty)⟩
  · cases hfault.symm.trans hpath
  · exact Or.inr (Or.inl ⟨size, bound, Except.error.inj (hfault.symm.trans hroom)⟩)
  · exact Or.inr (Or.inr ⟨size, bound, Except.error.inj (hfault.symm.trans hlong)⟩)

end

end Cli

/-! ## Text from an untyped caller -/

theorem pathOfParts_congr {leading leading' extension extension' : Option Name}
    (hleading : partBytes leading = partBytes leading') (hextension : partBytes extension = partBytes extension')
    (file : Name) (limits : Limits) :
    pathOfParts leading file extension limits = pathOfParts leading' file extension' limits := by
  unfold pathOfParts
  rw [hleading, hextension]

namespace Argument

/-- A text, or its absence, as a value. -/
def ofText? (t : Option Text) : Argument := (t.map .text).getD .absent

theorem isEmpty_ofName (name : Name) : (ofName name).isEmpty = name.isEmpty := by
  cases name <;> rfl

theorem toName_ofName (name : Name) : (ofName name).toName = .ok name := by
  cases name <;> rfl

/-- An empty text is as good as none. -/
theorem exists_toPart_ofText? (t : Option Text) :
    ∃ part, (ofText? t).toPart = .ok part ∧ partBytes part = partBytes (t.map .text) := by
  cases t with
  | none => exact ⟨none, rfl, rfl⟩
  | some t =>
    cases t with
    | nil => exact ⟨none, rfl, rfl⟩
    | cons c rest => exact ⟨some (.text (c :: rest)), rfl, rfl⟩

section
variable {given : LooseLimits} {limits : Limits} (h : given.toLimits? = some limits)

include h

theorem result_pathOfParts_ofText? (leading extension : Option Text) (file : Name) :
    (pathOfParts (ofText? leading) (ofName file) (ofText? extension) given).result =
      (SafePath.pathOfParts (leading.map .text) file (extension.map .text) limits).result.mapError
        (CallFault.ofFault given) := by
  obtain ⟨l, hl, hleading⟩ := exists_toPart_ofText? leading
  obtain ⟨e, he, hextension⟩ := exists_toPart_ofText? extension
  rw [← pathOfParts_congr hleading hextension, pathOfParts, isEmpty_ofName]
  by_cases hempty : file.isEmpty = true
  · rw [if_pos hempty, SafePath.pathOfParts, if_pos hempty]
    rfl
  · rw [if_neg hempty, toName_ofName, hl, he]
    simp only [LooseLimits.pathOfParts, h]

/-- With text and whole limits, an untyped call is the typed one, and its errors carry the limits as given. -/
theorem result_pathOfRawName_ofText? (name : Text) (leading extension : Option Text) (asciiOnly : Bool) :
    (pathOfRawName (.text name) (ofText? leading) (ofText? extension) asciiOnly given).result =
      (SafePath.pathOfRawName (.text name) (leading.map .text) (extension.map .text) asciiOnly
        limits).result.mapError (CallFault.ofFault given) := by
  obtain ⟨file, hfile, -, -⟩ := (Name.text name).trim.exists_sanitize asciiOnly
  rw [result_pathOfRawName, hfile]
  simp only [pathOfRawName, toName, hfile]
  exact result_pathOfParts_ofText? h leading extension file

end

/-- A whole number has a form as a length. -/
theorem exists_shownAsLength_of_toInt? {a : Argument} {n : Int} (h : a.toInt? = some n) :
    ∃ shown, a.shownAsLength = .ok shown := by
  cases a with
  | integer m => exact ⟨_, rfl⟩
  | flag b => exact ⟨_, rfl⟩
  | _ => cases h

end Argument

theorem LooseLimits.of_toLimits? {given : LooseLimits} {limits : Limits} (h : given.toLimits? = some limits) :
    limits.separator = given.separator.val ∧ (∃ n, given.maxComponent.toInt? = some n) ∧
      ∃ n, given.maxPath.toInt? = some n := by
  obtain ⟨component, hcomponent, hrest⟩ := Option.bind_eq_some_iff.mp h
  obtain ⟨path, hpath, hnumbers⟩ := Option.bind_eq_some_iff.mp hrest
  refine ⟨?_, ⟨component, hcomponent⟩, ⟨path, hpath⟩⟩
  unfold Limits.ofNumbers? at hnumbers
  split at hnumbers
  · cases hnumbers
  split at hnumbers
  · cases hnumbers
  cases hnumbers
  rfl

namespace CallFault

section
variable {given : LooseLimits} {limits : Limits} (h : given.toLimits? = some limits)

include h

/-- Whole limits can be shown, so the error is made. -/
theorem ofFault_extensionTooLong (extensionLength boundary : Int) :
    ∃ error : Raised, ofFault given (.path (.extensionTooLong extensionLength boundary)) = .raised error ∧
      error.kind = .extensionTooLong := by
  obtain ⟨-, ⟨n, hn⟩, -⟩ := LooseLimits.of_toLimits? h
  obtain ⟨shown, hshown⟩ := Argument.exists_shownAsLength_of_toInt? hn
  unfold ofFault
  simp only
  -- where the boundary is the limit itself, the limit is shown as it was given
  split
  · unfold Raised.extensionTooLong
    rw [hshown]
    exact ⟨_, rfl, rfl⟩
  · exact ⟨_, rfl, rfl⟩

theorem ofFault_pathTooLong (length limit : Int) :
    ∃ error : Raised, ofFault given (.path (.pathTooLong length limit)) = .raised error ∧
      error.kind = .pathTooLong := by
  obtain ⟨-, -, ⟨n, hn⟩⟩ := LooseLimits.of_toLimits? h
  obtain ⟨shown, hshown⟩ := Argument.exists_shownAsLength_of_toInt? hn
  unfold ofFault Raised.pathTooLong
  simp only [hshown]
  exact ⟨_, rfl, rfl⟩

end

end CallFault

/-- What comes of a text behind the checks in an untyped call. -/
theorem Checks.untyped_cases {name : Text} {leading extension : Option Text} {given : LooseLimits} {limits : Limits}
    (h : Checks name leading extension limits.separator) (hlimits : given.toLimits? = some limits)
    (asciiOnly : Bool) :
    let result :=
      (Argument.pathOfRawName (.text name) (.ofText? leading) (.ofText? extension) asciiOnly given).result
    ((Name.text name).trim.BeginsWithSurrogate ∧
        result = .error (.raised (Raised.ofFault (.invalidParts .emptyName)))) ∨
      ¬(Name.text name).trim.BeginsWithSurrogate ∧
        ((∃ path, result = .ok path) ∨
          ∃ error, result = .error (.raised error) ∧
            (error.kind = .extensionTooLong ∨ error.kind = .pathTooLong)) := by
  intro result
  have hresult : result = _ :=
    Argument.result_pathOfRawName_ofText? hlimits name leading extension asciiOnly
  rcases h.pathOfRawName_cases asciiOnly with
    ⟨hbegins, hempty⟩ | ⟨hbegins, ⟨path, hpath⟩ | ⟨n, m, hlong⟩ | ⟨n, m, hlong⟩⟩
  · rw [hempty] at hresult
    exact Or.inl ⟨hbegins, hresult⟩
  · rw [hpath] at hresult
    exact Or.inr ⟨hbegins, Or.inl ⟨path, hresult⟩⟩
  · obtain ⟨error, herror, hkind⟩ := CallFault.ofFault_extensionTooLong hlimits n m
    rw [hlong, Except.mapError, herror] at hresult
    exact Or.inr ⟨hbegins, Or.inr ⟨error, hresult, Or.inl hkind⟩⟩
  · obtain ⟨error, herror, hkind⟩ := CallFault.ofFault_pathTooLong hlimits n m
    rw [hlong, Except.mapError, herror] at hresult
    exact Or.inr ⟨hbegins, Or.inr ⟨error, hresult, Or.inr hkind⟩⟩

/-- A call fails with an error of this kind. -/
def FailsWith (result : Except CallFault Name) (kind : RaisedKind) : Prop :=
  ∃ error : Raised, result = .error (.raised error) ∧ error.kind = kind

theorem not_failsWith_ok (path : Name) (kind : RaisedKind) : ¬FailsWith (.ok path) kind := by
  rintro ⟨error, heq, -⟩
  cases heq

theorem failsWith_raised_iff (error : Raised) (kind : RaisedKind) :
    FailsWith (.error (.raised error)) kind ↔ error.kind = kind := by
  constructor
  · rintro ⟨error', heq, hkind⟩
    cases heq
    exact hkind
  · exact fun hkind => ⟨error, rfl, hkind⟩

/-- **What can fail behind the checks.**  A text that is not blank is not trimmed away, and an extension that is
validated does not hold the separator.  Invalid parts are the fault of exactly those names that begin with a
surrogate once they are trimmed, and then it is the empty name that is complained about; any other fault is an error
about the length of the extension or of the path. -/
theorem Argument.pathOfRawName_behind_checks {name : Text} {settings : Config.Settings} {given : LooseLimits}
    {limits : Limits} (hlimits : given.toLimits? = some limits) (hname : name.isAllBlank = false)
    (hleading : ∀ t, settings.outputPrefix = some t → t.IsClean)
    (hextension : ∀ t, settings.extension = some t → t.IsClean)
    (hvalid : settings.validate given.separatorText = .ok ()) :
    let result :=
      (Argument.pathOfRawName (.text name) (ofText? settings.outputPrefix) (ofText? settings.extension)
        settings.asciiOnly given).result
    (Name.text name).trim.isEmpty = false ∧
      given.separator.val ∉ partBytes (settings.extension.map .text) ∧
      (FailsWith result .invalidParts ↔
        ∃ c rest, (Name.text name).trim = .text (c :: rest) ∧ c.IsSurrogate) ∧
      ∀ fault, result = .error fault →
        fault = .raised (Raised.ofFault (.invalidParts .emptyName)) ∨
          ∃ error, fault = .raised error ∧ (error.kind = .extensionTooLong ∨ error.kind = .pathTooLong) := by
  intro result
  have hchecks : Checks name settings.outputPrefix settings.extension given.separator.val :=
    .of_validate given.separator.property hname hleading hextension hvalid
  refine ⟨List.isEmpty_eq_false_iff.mpr (Text.stripWhere_isAsciiBlank_ne_nil hname), hchecks.noSeparator, ?_⟩
  rw [← (LooseLimits.of_toLimits? hlimits).1] at hchecks
  change (FailsWith result .invalidParts ↔ (Name.text name).trim.BeginsWithSurrogate) ∧ _
  rcases hchecks.untyped_cases hlimits settings.asciiOnly with
    ⟨hbegins, hempty⟩ | ⟨hbegins, ⟨path, hpath⟩ | ⟨error, herror, hkind⟩⟩
  · rw [show result = _ from hempty]
    refine ⟨iff_of_true ⟨_, rfl, rfl⟩ hbegins, ?_⟩
    intro fault heq
    cases heq
    exact Or.inl rfl
  · rw [show result = _ from hpath]
    refine ⟨iff_of_false (not_failsWith_ok path _) hbegins, ?_⟩
    intro fault heq
    cases heq
  · rw [show result = _ from herror, failsWith_raised_iff]
    refine ⟨iff_of_false ?_ hbegins, ?_⟩
    · rcases hkind with hkind | hkind <;> rw [hkind] <;> decide
    · intro fault heq
      cases heq
      exact Or.inr ⟨error, rfl, hkind⟩

/-- A surrogate is complained about in front of a name, where the blanks hid it; behind one it is where the name
is cut. -/
theorem Argument.pathOfRawName_behind_checks_surrogate :
    let surrogate : CodePoint := ⟨0xD800, by decide⟩
    let settings : Config.Settings :=
      { Config.Settings.withExtension (some ".nsp") with outputPrefix := some "out" }
    let call (name : Text) : Except CallFault Name :=
      (Argument.pathOfRawName (.text name) (ofText? settings.outputPrefix) (ofText? settings.extension)
        settings.asciiOnly .usual).result
    FailsWith (call ("\t " ++ surrogate :: "a ")) .invalidParts ∧
      ¬FailsWith (call ("\t a" ++ [surrogate])) .invalidParts := by
  intro surrogate settings call
  have hclean : ("out" : Text).IsClean ∧ (".nsp" : Text).IsClean := by decide
  have hleading : ∀ t, settings.outputPrefix = some t → t.IsClean := by
    intro t heq
    cases heq
    exact hclean.1
  have hextension : ∀ t, settings.extension = some t → t.IsClean := by
    intro t heq
    cases heq
    exact hclean.2
  have hlimits : LooseLimits.usual.toLimits? = some Limits.default := rfl
  have hvalid : settings.validate LooseLimits.usual.separatorText = .ok () := rfl
  have hnamedFront : Text.isAllBlank ("\t " ++ surrogate :: "a ") = false := by decide
  have hnamedBehind : Text.isAllBlank ("\t a" ++ [surrogate]) = false := by decide
  obtain ⟨-, -, hfront, -⟩ :=
    Argument.pathOfRawName_behind_checks hlimits hnamedFront hleading hextension hvalid
  obtain ⟨-, -, hbehind, -⟩ :=
    Argument.pathOfRawName_behind_checks hlimits hnamedBehind hleading hextension hvalid
  refine ⟨hfront.mpr ⟨surrogate, "a", by decide, by decide⟩, ?_⟩
  rw [hbehind]
  rintro ⟨c, rest, htrim, hc⟩
  have htext : (Name.text ("\t a" ++ [surrogate])).trim = .text ("a" ++ [surrogate]) := by decide
  cases htext.symm.trans htrim
  exact absurd hc (by decide)

end SafePath
