import SafePath.Proofs.Name.Basic
import SafePath.Proofs.Path.Assembly

/-!
# The path of parts

Parts that are acceptable have the path of their components, each cut for itself, unless there is no
room for the extension or the whole is too long (`pathOfParts_eq_fitComponents`).

A path that is returned is UTF-8 unless the extension is none by itself and its component was cut: the
cut then falls in front of the extension and takes away the bytes that its first ones continued
(`pathOfParts_wellFormed_iff`).
-/

namespace SafePath

namespace Path

/-! ## Taking the parts -/

section
variable {separator : UInt8} {leading file extension : Bytes}

theorem partFault?_eq_none_iff :
    partFault? separator leading file extension = none ↔
      0 ∉ leading ∧ 0 ∉ file ∧ 0 ∉ extension ∧ separator ∉ extension := by
  unfold partFault?
  by_cases hnul : 0 ∈ leading ∨ 0 ∈ file ∨ 0 ∈ extension
  · rw [if_pos hnul]
    simp only [reduceCtorEq, false_iff]
    rintro ⟨hl, hf, he, -⟩
    rcases hnul with h | h | h
    · exact hl h
    · exact hf h
    · exact he h
  · rw [if_neg hnul]
    simp only [not_or] at hnul
    by_cases hsep : separator ∈ extension
    · simp [hsep]
    · simp [hsep, hnul]

theorem join_eq_ok_iff (hnamed : file ≠ []) (buffer : Bytes) :
    join separator leading file extension = .ok buffer ↔
      Acceptable separator leading file extension ∧
        buffer = assemble separator leading file extension := by
  unfold join
  cases hfault : partFault? separator leading file extension with
  | some fault =>
    simp only [reduceCtorEq, false_iff]
    rintro ⟨h, -⟩
    rw [partFault?_eq_none_iff.mpr
      ⟨h.leading_noNul, h.file_noNul, h.extension_noNul, h.noSeparator⟩] at hfault
    cases hfault
  | none =>
    obtain ⟨hl, hf, he, hsep⟩ := partFault?_eq_none_iff.mp hfault
    simp only
    cases hmal : Utf8.malformedAt (assemble separator leading file extension) with
    | some offset =>
      simp only [reduceCtorEq, false_iff]
      rintro ⟨h, -⟩
      rw [Utf8.malformedAt_eq_none_iff.mpr h.wellFormed] at hmal
      cases hmal
    | none =>
      simp only [Except.ok.injEq]
      have h : Acceptable separator leading file extension :=
        ⟨hnamed, hl, hf, he, hsep, Utf8.malformedAt_eq_none_iff.mp hmal⟩
      exact ⟨fun hb => ⟨h, hb.symm⟩, fun hb => hb.2.symm⟩

theorem result_fit (limits : Limits) (extension buffer : Bytes)
    (hnul : ∀ c ∈ buffer.splitOn limits.separator, 0 ∉ c) :
    (fit limits extension buffer).result =
      match fitComponents limits.separator limits.maxComponent extension buffer with
      | .error reason => .error (.extensionTooLong reason.extensionLength reason.boundary)
      | .ok path =>
        if limits.maxPath ≤ path.length then .error (.pathTooLong path.length limits.maxPath)
        else .ok path := by
  rw [← cutComponents_eq_fitComponents _ _ _ _ hnul, fit]
  generalize cutComponents limits.separator limits.maxComponent extension buffer = walked
  obtain ⟨cuts, reason | path⟩ := walked
  · rfl
  · simp only
    split <;> rfl

end

end Path

open SafePath.Path

section
variable {leading : Option Name} {file : Name} {extension : Option Name} {limits : Limits}

/-- The path of acceptable parts, in the form of the name. -/
theorem result_pathOfParts
    (h : Acceptable limits.separator (partBytes leading) file.toBytes (partBytes extension)) :
    (pathOfParts leading file extension limits).result =
      match fitComponents limits.separator limits.maxComponent (partBytes extension)
        (assemble limits.separator (partBytes leading) file.toBytes (partBytes extension)) with
      | .error reason => .error (.path (.extensionTooLong reason.extensionLength reason.boundary))
      | .ok path =>
        if limits.maxPath ≤ path.length then
          .error (.path (.pathTooLong path.length limits.maxPath))
        else file.withBytes path := by
  have hne : ¬file.isEmpty = true := fun he => h.named (file.toBytes_eq_nil_iff.mpr he)
  unfold pathOfParts pathOfBytes
  rw [if_neg hne, (join_eq_ok_iff h.named _).mpr ⟨h, rfl⟩]
  simp only [result_fit limits _ _ h.component_noNul]
  cases fitComponents limits.separator limits.maxComponent (partBytes extension)
    (assemble limits.separator (partBytes leading) file.toBytes (partBytes extension)) with
  | error reason => rfl
  | ok path =>
    by_cases hle : limits.maxPath ≤ path.length
    · simp only [hle, if_true]
    · simp only [hle, if_false]

/-- Parts that are not acceptable are a path error. -/
theorem error_of_not_acceptable
    (h : ¬Acceptable limits.separator (partBytes leading) file.toBytes (partBytes extension)) :
    ∃ error, (pathOfParts leading file extension limits).result = .error (.path error) := by
  unfold pathOfParts pathOfBytes
  split
  · exact ⟨_, rfl⟩
  · next hne =>
    have hnamed : file.toBytes ≠ [] := fun hnil => hne (file.toBytes_eq_nil_iff.mp hnil)
    cases hjoin : join limits.separator (partBytes leading) file.toBytes (partBytes extension) with
    | error fault => exact ⟨_, rfl⟩
    | ok buffer => exact absurd ((join_eq_ok_iff hnamed buffer).mp hjoin).1 h

/-- A path is returned for acceptable parts only: it is what the components fit to. -/
theorem acceptable_of_pathOfParts {name : Name}
    (h : (pathOfParts leading file extension limits).result = .ok name) :
    Acceptable limits.separator (partBytes leading) file.toBytes (partBytes extension) ∧
      ∃ path,
        fitComponents limits.separator limits.maxComponent (partBytes extension)
          (assemble limits.separator (partBytes leading) file.toBytes (partBytes extension)) = .ok path ∧
        path.length < limits.maxPath ∧ file.withBytes path = .ok name := by
  have hacc : Acceptable limits.separator (partBytes leading) file.toBytes (partBytes extension) := by
    by_contra hnot
    obtain ⟨error, herror⟩ := error_of_not_acceptable hnot
    rw [herror] at h
    cases h
  refine ⟨hacc, ?_⟩
  rw [result_pathOfParts hacc] at h
  split at h
  · cases h
  · next path hfit =>
    split at h
    · cases h
    · next hlt => exact ⟨path, hfit, Nat.lt_of_not_le hlt, h⟩

/-! ## What is UTF-8 about it -/

/-- The name ends where its last code point does, whatever follows it. -/
def Closed (name : Name) : Prop :=
  ∀ rest, Utf8.WellFormed (name.toBytes ++ rest) → Utf8.WellFormed name.toBytes ∧ Utf8.WellFormed rest

theorem closed_text (t : Text) : Closed (.text t) := by
  intro rest h
  obtain ⟨ht, hrest⟩ := (t.wellFormed_encode_append_iff rest).mp h
  exact ⟨t.wellFormed_encode_iff.mpr ht, hrest⟩

theorem closed_of_wellFormed {name : Name} (h : Utf8.WellFormed name.toBytes) : Closed name :=
  fun rest hrest => ⟨h, (h.append_iff rest).mp hrest⟩

/-- Behind a name that is closed, the extension is UTF-8 by itself. -/
theorem wellFormed_of_closed (hclosed : Closed file)
    (h : Acceptable limits.separator (partBytes leading) file.toBytes (partBytes extension)) :
    Utf8.WellFormed file.toBytes ∧ Utf8.WellFormed (partBytes extension) := by
  have hwf := h.wellFormed
  rw [assemble_eq, wellFormed_folder_append_iff limits.separator_ascii] at hwf
  exact hclosed _ hwf.2

end

namespace Path

section
variable {separator : UInt8} {budget : Nat} {leading file extension path : Bytes}

/-- The fitted path is UTF-8 unless the extension is none by itself and its component was cut. -/
theorem wellFormed_fitComponents_iff (hs : separator < 0x80)
    (h : Acceptable separator leading file extension)
    (hfit : fitComponents separator budget extension (assemble separator leading file extension) =
      .ok path) :
    Utf8.WellFormed path ↔
      Utf8.WellFormed extension ∨
        (lastComponent separator (assemble separator leading file extension)).length ≤ budget := by
  have hlast := lastComponent_assemble h.noSeparator leading file
  obtain ⟨base, -, -, hcut, hwhole, hsplit⟩ := exists_base_of_fitComponents hlast hfit
  have hparts := (wellFormed_iff_splitOn hs _).mp h.wellFormed
  rw [splitOn_eq, List.forall_mem_append, List.forall_mem_singleton, hlast] at hparts
  have hinner : ∀ c ∈ (innerComponents separator (assemble separator leading file extension)).map
      (fitInner budget), Utf8.WellFormed c := by
    rw [List.forall_mem_map]
    exact fun c hc => wellFormed_fitInner (hparts.1 c hc) budget
  rw [wellFormed_iff_splitOn hs, hsplit, List.forall_mem_append, List.forall_mem_singleton, hlast]
  by_cases hlong : (lastComponent separator file ++ extension).length ≤ budget
  · rw [hwhole hlong]
    simp only [hlong, or_true, iff_true]
    exact ⟨hinner, hparts.2⟩
  · rw [(hcut (Nat.lt_of_not_le hlong)).append_iff]
    simp only [hlong, or_false]
    exact ⟨And.right, fun hext => ⟨hinner, hext⟩⟩

/-- The fitted path holds a NUL exactly if NUL is the separator and separates something. -/
theorem zero_mem_fitComponents_iff (h : Acceptable separator leading file extension)
    (hfit : fitComponents separator budget extension (assemble separator leading file extension) =
      .ok path) :
    0 ∈ path ↔ separator = 0 ∧ leading ≠ [] := by
  have hlast := lastComponent_assemble h.noSeparator leading file
  obtain ⟨base, hpre, -, -, -, hsplit⟩ := exists_base_of_fitComponents hlast hfit
  constructor
  · intro hmem
    rw [← zero_mem_assemble_iff h]
    by_cases hs : (0 : UInt8) = separator
    · rw [hs, ← List.count_pos_iff, count_fitComponents hlast hfit] at hmem
      rw [hs]
      exact List.count_pos_iff.mp hmem
    · obtain ⟨c, hc, hmem⟩ := exists_mem_splitOn hmem hs
      rw [hsplit] at hc
      exact absurd hmem (not_mem_fitted hlast hpre h.component_noNul c hc)
  · rintro ⟨rfl, hne⟩
    rw [← List.count_pos_iff, count_fitComponents hlast hfit, List.count_pos_iff]
    exact (zero_mem_assemble_iff h).mpr ⟨rfl, hne⟩

end

end Path

section
variable {leading : Option Name} {file : Name} {extension : Option Name} {limits : Limits}

/-- A fitted path comes back in the form of the name: text is closed, so its path is UTF-8. -/
theorem exists_withBytes_of_fitComponents {path : Bytes}
    (h : Acceptable limits.separator (partBytes leading) file.toBytes (partBytes extension))
    (hfit : fitComponents limits.separator limits.maxComponent (partBytes extension)
      (assemble limits.separator (partBytes leading) file.toBytes (partBytes extension)) = .ok path) :
    ∃ name, file.withBytes path = .ok name ∧ name.toBytes = path ∧ name.SameForm file := by
  cases file with
  | bytes b => exact ⟨.bytes path, rfl, rfl, trivial⟩
  | text t =>
    apply Name.exists_withBytes_of_wellFormed
    rw [wellFormed_fitComponents_iff limits.separator_ascii h hfit]
    exact Or.inl (wellFormed_of_closed (closed_text t) h).2

/-- The bytes of a returned path are what the components fit to. -/
theorem fitComponents_of_pathOfParts {name : Name}
    (h : (pathOfParts leading file extension limits).result = .ok name) :
    Acceptable limits.separator (partBytes leading) file.toBytes (partBytes extension) ∧
      fitComponents limits.separator limits.maxComponent (partBytes extension)
        (assemble limits.separator (partBytes leading) file.toBytes (partBytes extension)) =
          .ok name.toBytes := by
  obtain ⟨hacc, path, hfit, -, hname⟩ := acceptable_of_pathOfParts h
  obtain ⟨name', hname', rfl, -⟩ := exists_withBytes_of_fitComponents hacc hfit
  obtain rfl : name' = name := Except.ok.inj (hname'.symm.trans hname)
  exact ⟨hacc, hfit⟩

end

/-! ## The paths that are returned -/

section
variable (leading : Option Name) (file : Name) (extension : Option Name) (limits : Limits)

/-- Parts have a path in the form of the name, or a path error: nothing else goes wrong with them. -/
theorem exists_of_pathOfParts :
    (∃ path, (pathOfParts leading file extension limits).result = .ok path ∧ path.SameForm file ∧
        (Closed file → Utf8.WellFormed path.toBytes)) ∨
      ∃ error, (pathOfParts leading file extension limits).result = .error (.path error) := by
  by_cases h : Acceptable limits.separator (partBytes leading) file.toBytes (partBytes extension)
  · rw [result_pathOfParts h]
    cases hfit : fitComponents limits.separator limits.maxComponent (partBytes extension)
      (assemble limits.separator (partBytes leading) file.toBytes (partBytes extension)) with
    | error reason => exact Or.inr ⟨_, rfl⟩
    | ok path =>
      simp only
      split
      · exact Or.inr ⟨_, rfl⟩
      · obtain ⟨name, hname, hbytes, hform⟩ := exists_withBytes_of_fitComponents h hfit
        refine Or.inl ⟨name, hname, hform, fun hclosed => ?_⟩
        rw [hbytes, wellFormed_fitComponents_iff limits.separator_ascii h hfit]
        exact Or.inl (wellFormed_of_closed hclosed h).2
  · exact Or.inr (error_of_not_acceptable h)

/-- **The path of acceptable parts is the path of their components, each cut for itself**: split at the
separators, cut, joined, and then checked for its length. -/
theorem pathOfParts_eq_fitComponents
    (h : Acceptable limits.separator (partBytes leading) file.toBytes (partBytes extension)) :
    match fitComponents limits.separator limits.maxComponent (partBytes extension)
      (assemble limits.separator (partBytes leading) file.toBytes (partBytes extension)) with
    | .error reason =>
      (pathOfParts leading file extension limits).result =
        .error (.path (.extensionTooLong reason.extensionLength reason.boundary))
    | .ok path =>
      if limits.maxPath ≤ path.length then
        (pathOfParts leading file extension limits).result =
          .error (.path (.pathTooLong path.length limits.maxPath))
      else
        ∃ name, (pathOfParts leading file extension limits).result = .ok name ∧
          name.toBytes = path ∧ name.SameForm file := by
  rw [result_pathOfParts h]
  cases hfit : fitComponents limits.separator limits.maxComponent (partBytes extension)
    (assemble limits.separator (partBytes leading) file.toBytes (partBytes extension)) with
  | error reason => rfl
  | ok path =>
    by_cases hle : limits.maxPath ≤ path.length
    · simp only [hle, if_true]
    · simp only [hle, if_false]
      exact exists_withBytes_of_fitComponents h hfit

/-- Two cuts that fall into characters: of the directory, and of the name in front of its extension. -/
theorem pathOfParts_eq_fitComponents_straddling :
    Acceptable 0x2F (Text.encode "abcd€") (Text.encode "é€€€") (Text.encode ".x") ∧
      fitComponents 0x2F 6 (Text.encode ".x")
        (assemble 0x2F (Text.encode "abcd€") (Text.encode "é€€€") (Text.encode ".x")) =
          .ok (Text.encode "abcd/é.x") ∧
      ∃ name,
        (pathOfParts (some (.text "abcd€")) (.text "é€€€") (some (.text ".x"))
          { Limits.default with maxComponent := 6, maxComponent_pos := by decide }).result = .ok name ∧
        name.toBytes = Text.encode "abcd/é.x" ∧ name.SameForm (.text "é€€€") := by
  have hacc : Acceptable 0x2F (Text.encode "abcd€") (Text.encode "é€€€") (Text.encode ".x") := by
    decide +kernel
  have hfit : fitComponents 0x2F 6 (Text.encode ".x")
      (assemble 0x2F (Text.encode "abcd€") (Text.encode "é€€€") (Text.encode ".x")) =
        .ok (Text.encode "abcd/é.x") := by
    decide +kernel
  refine ⟨hacc, hfit, ?_⟩
  have h := pathOfParts_eq_fitComponents (some (.text "abcd€")) (.text "é€€€") (some (.text ".x"))
    { Limits.default with maxComponent := 6, maxComponent_pos := by decide } hacc
  split at h
  · next hreason => cases hreason.symm.trans hfit
  · next path hpath =>
    obtain rfl : path = _ := Except.ok.inj (hpath.symm.trans hfit)
    split at h
    · next hle => exact absurd hle (by decide +kernel)
    · exact h

/-- **What a returned path is made of**: it is UTF-8 unless the extension is none by itself and the last
component was cut, and it holds no NUL unless NUL is the separator behind a directory. -/
theorem pathOfParts_wellFormed_iff {name : Name}
    (h : (pathOfParts leading file extension limits).result = .ok name) :
    (Utf8.WellFormed name.toBytes ↔
      Utf8.WellFormed (partBytes extension) ∨
        (lastComponent limits.separator
          (assemble limits.separator (partBytes leading) file.toBytes
            (partBytes extension))).length ≤ limits.maxComponent) ∧
      (0 ∈ name.toBytes ↔ limits.separator = 0 ∧ partBytes leading ≠ []) := by
  obtain ⟨hacc, path, hfit, -, hname⟩ := acceptable_of_pathOfParts h
  obtain ⟨name', hname', hbytes, -⟩ := exists_withBytes_of_fitComponents hacc hfit
  obtain rfl : name' = name := Except.ok.inj (hname'.symm.trans hname)
  rw [hbytes]
  exact ⟨wellFormed_fitComponents_iff limits.separator_ascii hacc hfit,
    zero_mem_fitComponents_iff hacc hfit⟩

/-- The name ends in the lead of a character that the extension completes; the cut takes the lead. -/
theorem pathOfParts_wellFormed_iff_torn :
    (pathOfParts none (.bytes [0x61, 0x62, 0x63, 0x64, 0x65, 0xC3]) (some (.bytes [0xA9, 0x7A]))
        { Limits.default with maxComponent := 5, maxComponent_pos := by decide }).result =
          .ok (.bytes [0x61, 0x62, 0x63, 0xA9, 0x7A]) ∧
      ¬Utf8.WellFormed [0x61, 0x62, 0x63, 0xA9, 0x7A] ∧ 0 ∉ ([0x61, 0x62, 0x63, 0xA9, 0x7A] : Bytes) := by
  have hrun : (pathOfParts none (.bytes [0x61, 0x62, 0x63, 0x64, 0x65, 0xC3])
      (some (.bytes [0xA9, 0x7A]))
      { Limits.default with maxComponent := 5, maxComponent_pos := by decide }).result =
        .ok (.bytes [0x61, 0x62, 0x63, 0xA9, 0x7A]) := by
    decide +kernel
  obtain ⟨hwf, hnul⟩ := pathOfParts_wellFormed_iff _ _ _ _ hrun
  refine ⟨hrun, fun h => ?_, fun h => ?_⟩
  · rcases hwf.mp h with hext | hshort
    · exact absurd hext (by decide +kernel)
    · exact absurd hshort (by decide +kernel)
  · exact absurd (hnul.mp h).2 (by decide +kernel)

/-- Neither UTF-8 nor the absence of NUL is kept by every call: a character may be torn apart between
the name and the extension, and NUL may be the separator. -/
theorem exists_pathOfParts_torn_and_nul :
    (∃ name,
      (pathOfParts none (.bytes [0x61, 0x62, 0x63, 0x64, 0x65, 0xC3]) (some (.bytes [0xA9, 0x7A]))
        { Limits.default with maxComponent := 5, maxComponent_pos := by decide }).result = .ok name ∧
      ¬Utf8.WellFormed name.toBytes) ∧
    ∃ name,
      (pathOfParts (some (.text "C:\\dump")) (.text "game") (some (.text ".nsp"))
        { Limits.default with separator := 0, separator_ascii := by decide }).result = .ok name ∧
      0 ∈ name.toBytes := by
  refine ⟨⟨.bytes [0x61, 0x62, 0x63, 0xA9, 0x7A], ?_, ?_⟩,
    ⟨.text ("C:\\dump" ++ ([⟨0, by decide⟩] : Text) ++ "game.nsp"), ?_, ?_⟩⟩
  all_goals decide +kernel

end

end SafePath
