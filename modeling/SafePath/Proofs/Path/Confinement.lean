import SafePath.Path.Parts
import SafePath.Proofs.Name.Sanitize
import SafePath.Proofs.Path.Parts

/-!
# What a raw name can do to a path

The separator is an illegal code point, so sanitizing leaves none of it in the name: all components but
the last come from the directory alone.  The sanitized name is UTF-8, so the extension behind it is UTF-8
by itself and no cut takes a character apart.  What is left of the raw name is a part of the last
component (`Confined`), for every path that comes out (`pathOfRawName_confined`).
-/

namespace SafePath

open SafePath.Path

/-- A path in which a name has no say beyond the part of the last component in front of the extension. -/
structure Confined (limits : Limits) (asciiOnly : Bool) (leading file extension path : Bytes) : Prop where
  wellFormed : Utf8.WellFormed path
  length_lt : path.length < limits.maxPath
  component_le : ∀ c ∈ path.splitOn limits.separator, c.length ≤ limits.maxComponent
  /-- The separators are those of the directory and the one behind it. -/
  count_separator :
    path.count limits.separator =
      leading.count limits.separator +
        if leading = [] ∨ leading.getLast? = some limits.separator then 0 else 1
  /-- A part of the name that splits no code point and holds legal ones only, then the extension. -/
  last_eq : ∃ base, base <+: file ∧ Utf8.WellFormed base ∧
    (∀ v ∈ Utf8.values base, isIllegal asciiOnly v = false) ∧
    lastComponent limits.separator path = base ++ extension

namespace Path

section
variable {separator : UInt8} {budget : Nat} {leading file extension path : Bytes}

theorem count_assemble (hfile : separator ∉ file) (hext : separator ∉ extension) :
    (assemble separator leading file extension).count separator =
      leading.count separator +
        if leading = [] ∨ leading.getLast? = some separator then 0 else 1 := by
  rw [assemble_eq, List.count_append, List.count_append, List.count_eq_zero.mpr hfile,
    List.count_eq_zero.mpr hext, count_folder]
  rfl

theorem component_le_of_fitComponents (hlast : lastComponent separator path = file ++ extension)
    {out : Bytes} (hfit : fitComponents separator budget extension path = .ok out) :
    ∀ c ∈ out.splitOn separator, c.length ≤ budget := by
  obtain ⟨base, -, hle, -, -, hsplit⟩ := exists_base_of_fitComponents hlast hfit
  rw [hsplit, List.forall_mem_append, List.forall_mem_singleton, List.forall_mem_map]
  exact ⟨fun c _ => length_fitInner_le budget c, hle⟩

/-- Behind a name without a separator, the last component is a part of the name and the extension. -/
theorem exists_base_of_fitComponents_assemble (hfile : separator ∉ file)
    (h : Acceptable separator leading file extension) (hwf : Utf8.WellFormed file)
    (hfit : fitComponents separator budget extension (assemble separator leading file extension) =
      .ok path) :
    ∃ base, base <+: file ∧ Utf8.WellFormed base ∧ lastComponent separator path = base ++ extension := by
  have hlast := lastComponent_assemble h.noSeparator leading file
  rw [lastComponent_of_not_mem hfile] at hlast
  obtain ⟨base, hpre, -, hcut, hwhole, hsplit⟩ := exists_base_of_fitComponents hlast hfit
  refine ⟨base, hpre, ?_, by rw [lastComponent, hsplit, List.getLastD_concat]⟩
  rcases Nat.lt_or_ge budget (file ++ extension).length with hlong | hshort
  · exact hcut hlong
  · rwa [hwhole hshort]

end

end Path

/-- What is legal throughout is so in every part that splits no code point. -/
theorem legal_of_isPrefix {asciiOnly : Bool} {base data : Bytes} (hwf : Utf8.WellFormed base)
    (h : base <+: sanitizeBytes asciiOnly data) :
    ∀ v ∈ Utf8.values base, isIllegal asciiOnly v = false := by
  obtain ⟨rest, hrest⟩ := h
  intro v hv
  apply isIllegal_of_mem_values_sanitizeBytes asciiOnly data
  rw [← hrest, hwf.values_append]
  exact List.mem_append_left _ hv

section
variable (raw : Name) (leading extension : Option Name) (asciiOnly : Bool) (limits : Limits)

theorem result_pathOfRawName :
    (pathOfRawName raw leading extension asciiOnly limits).result =
      (raw.trim.sanitize asciiOnly).result.bind fun file =>
        (pathOfParts leading file extension limits).result := by
  unfold pathOfRawName
  cases h : (raw.trim.sanitize asciiOnly).result with
  | error fault => simp only [h, Except.bind]
  | ok file => simp only [h, Except.bind]

/-- The bytes of a sanitized name are UTF-8. -/
theorem wellFormed_of_sanitize {file : Name}
    (hbytes : file.toBytes = sanitizeBytes asciiOnly raw.trim.toBytes) :
    Utf8.WellFormed file.toBytes := by
  rw [hbytes]
  exact wellFormed_sanitizeBytes asciiOnly raw.trim.toBytes

/-- A raw name has a path in its form, which is UTF-8, or a path error. -/
theorem exists_of_pathOfRawName :
    (∃ path, (pathOfRawName raw leading extension asciiOnly limits).result = .ok path ∧
        path.SameForm raw ∧ Utf8.WellFormed path.toBytes) ∨
      ∃ error, (pathOfRawName raw leading extension asciiOnly limits).result =
        .error (.path error) := by
  obtain ⟨file, hfile, hbytes, hform⟩ := raw.trim.exists_sanitize asciiOnly
  have hclosed : Closed file := closed_of_wellFormed (wellFormed_of_sanitize raw asciiOnly hbytes)
  rw [result_pathOfRawName, hfile]
  rcases exists_of_pathOfParts leading file extension limits with ⟨path, hpath, hsame, hwf⟩ | herror
  · exact Or.inl ⟨path, hpath, (hsame.trans hform).trans raw.sameForm_trim, hwf hclosed⟩
  · exact Or.inr herror

/-- **A raw name is confined to the last component**, whatever it is, if the separator may not stand in a
name. -/
theorem pathOfRawName_confined (asciiOnly' : Bool)
    (hsep : isIllegal asciiOnly' limits.separator.toNat = true) {path : Name}
    (h : (pathOfRawName raw leading extension asciiOnly limits).result = .ok path) :
    ∃ file, (raw.trim.sanitize asciiOnly).result = .ok file ∧
      Confined limits asciiOnly (partBytes leading) file.toBytes (partBytes extension) path.toBytes := by
  obtain ⟨file, hfile, hbytes, -⟩ := raw.trim.exists_sanitize asciiOnly
  refine ⟨file, hfile, ?_⟩
  rw [result_pathOfRawName, hfile] at h
  obtain ⟨hacc, fitted, hfit, hlt, hname⟩ := acceptable_of_pathOfParts h
  obtain ⟨name, hname', hpath, -⟩ := exists_withBytes_of_fitComponents hacc hfit
  obtain rfl : name = path := Except.ok.inj (hname'.symm.trans hname)
  have hwf := wellFormed_of_sanitize raw asciiOnly hbytes
  have hext := (wellFormed_of_closed (closed_of_wellFormed hwf) hacc).2
  have hnosep : limits.separator ∉ file.toBytes := by
    rw [hbytes]
    apply not_mem_sanitizeBytes asciiOnly _ limits.separator_ascii
    rw [← hsep]
    exact isIllegal_of_ascii (by simpa [UInt8.lt_iff_toNat_lt] using limits.separator_ascii) _ _
  have hlast := lastComponent_assemble hacc.noSeparator (partBytes leading) file.toBytes
  rw [hpath]
  refine ⟨(wellFormed_fitComponents_iff limits.separator_ascii hacc hfit).mpr (Or.inl hext), hlt,
    component_le_of_fitComponents hlast hfit, ?_, ?_⟩
  · rw [count_fitComponents hlast hfit, count_assemble hnosep hacc.noSeparator]
  · obtain ⟨base, hpre, hbase, hend⟩ :=
      exists_base_of_fitComponents_assemble hnosep hacc hwf hfit
    exact ⟨base, hpre, hbase, legal_of_isPrefix hbase (hbytes ▸ hpre), hend⟩

/-- A name that tries to leave its directory, with a surrogate behind a character of three bytes. -/
theorem pathOfRawName_confined_climbing :
    isIllegal false Limits.default.separator.toNat = true ∧
      (pathOfRawName (.text ((" ../a€" : Text) ++ [⟨0xDC80, by decide⟩])) (some (.text "out"))
        (some (.text ".nsp")) true Limits.default).result = .ok (.text "out/.._a_.nsp") ∧
      ∃ file,
        ((Name.text ((" ../a€" : Text) ++ [⟨0xDC80, by decide⟩])).trim.sanitize true).result =
          .ok file ∧
        Confined Limits.default true (Text.encode "out") file.toBytes (Text.encode ".nsp")
          (Text.encode "out/.._a_.nsp") := by
  have hrun : (pathOfRawName (.text ((" ../a€" : Text) ++ [⟨0xDC80, by decide⟩])) (some (.text "out"))
      (some (.text ".nsp")) true Limits.default).result = .ok (.text "out/.._a_.nsp") := by
    decide +kernel
  have hsep : isIllegal false Limits.default.separator.toNat = true := by decide
  exact ⟨hsep, hrun, pathOfRawName_confined _ _ _ _ _ false hsep hrun⟩

end

end SafePath
