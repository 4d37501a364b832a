import SafePath.Proofs.Path.Confinement
import SafePath.Proofs.Path.Refusal
import SafePath.Proofs.Path.Remains

/-!
# Cutting what has been cut

A path without an extension always fits, and fitting it is to cut each of its components (`fitAll`).  A
component that fits is left alone, so a fitted path stays as it is (`fitAll_fitAll`), and of a directory it
makes no difference whether it is cut before or together with the name behind it:

    fitAll (fitAll a) = fitAll a
    (a ++ separator :: b) fits as `fitAll a ++ separator :: b'` if `b` fits as `b'`
    the folder of `fitAll a` is `fitAll` of the folder of `a`, from four bytes on

The third needs that the last component of a directory does not come out empty: a directory ends in a
separator exactly if its last component is empty (`lastComponent_eq_nil_iff`), and one more separator is
added if it does not.
-/

namespace SafePath

namespace Path

/-! ## Components that fit -/

section
variable {separator : UInt8} {budget : Nat}

theorem fitInner_eq_nil_iff_of_four_le {c : Bytes} (h : Utf8.WellFormed c) (hfour : 4 ≤ budget) :
    fitInner budget c = [] ↔ c = [] := by
  by_cases hne : c = []
  · subst hne
    rw [fitInner_of_le (Nat.zero_le _)]
  · have hwidth := Utf8.headWidth_le_four c
    rw [fitInner_eq_nil_iff h hne]
    simp only [hne, iff_false]
    omega

/-- The path of all components, each cut for itself. -/
def fitAll (separator : UInt8) (budget : Nat) (path : Bytes) : Bytes :=
  [separator].intercalate ((path.splitOn separator).map (fitInner budget))

theorem splitOn_fitAll (path : Bytes) :
    (fitAll separator budget path).splitOn separator = (path.splitOn separator).map (fitInner budget) := by
  apply List.splitOn_intercalate
  · rw [List.forall_mem_map]
    intro c hc hmem
    exact not_mem_of_mem_splitOn hc ((isPrefix_fitInner budget c).subset hmem)
  · simp [List.splitOn_ne_nil]

theorem lastComponent_fitAll (path : Bytes) :
    lastComponent separator (fitAll separator budget path) =
      fitInner budget (lastComponent separator path) := by
  rw [lastComponent, splitOn_fitAll, splitOn_eq path, List.map_append, List.map_singleton,
    List.getLastD_concat]

theorem fitAll_of_le {path : Bytes} (h : ∀ c ∈ path.splitOn separator, c.length ≤ budget) :
    fitAll separator budget path = path := by
  have hmap : (path.splitOn separator).map (fitInner budget) = path.splitOn separator :=
    (List.map_congr_left fun c hc => fitInner_of_le (h c hc)).trans (List.map_id _)
  rw [fitAll, hmap, List.intercalate_splitOn]

theorem fitAll_nil : fitAll separator budget [] = [] := fitAll_of_le (by simp)

/-- **What has been cut is left alone.** -/
theorem fitAll_fitAll (path : Bytes) :
    fitAll separator budget (fitAll separator budget path) = fitAll separator budget path := by
  apply fitAll_of_le
  rw [splitOn_fitAll, List.forall_mem_map]
  exact fun c _ => length_fitInner_le budget c

theorem wellFormed_fitAll (hs : separator < 0x80) {path : Bytes} (h : Utf8.WellFormed path) :
    Utf8.WellFormed (fitAll separator budget path) := by
  rw [wellFormed_iff_splitOn hs, splitOn_fitAll, List.forall_mem_map]
  exact fun c hc => wellFormed_fitInner ((wellFormed_iff_splitOn hs path).mp h c hc) budget

theorem not_mem_fitAll {path : Bytes} {b : UInt8} (hne : b ≠ separator) (h : b ∉ path) :
    b ∉ fitAll separator budget path := by
  intro hmem
  obtain ⟨c, hc, hb⟩ := exists_mem_splitOn hmem hne
  rw [splitOn_fitAll] at hc
  obtain ⟨d, hd, rfl⟩ := List.mem_map.mp hc
  exact h (mem_of_mem_splitOn hd ((isPrefix_fitInner budget d).subset hb))

theorem fitLast_nil (c : Bytes) : fitLast budget [] c = .ok (fitInner budget c) := by
  unfold fitLast fitInner
  split
  · rfl
  · rfl

/-- Without an extension, every path fits. -/
theorem fitComponents_nil (path : Bytes) :
    fitComponents separator budget [] path = .ok (fitAll separator budget path) := by
  rw [fitComponents, fitLast_nil, fitAll, splitOn_eq path, List.map_append, List.map_singleton]
  rfl

theorem fitComponents_append_cons_all (budget : Nat) (extension a b : Bytes) :
    fitComponents separator budget extension (a ++ separator :: b) =
      (fitComponents separator budget extension b).map (fitAll separator budget a ++ [separator] ++ ·) := by
  induction a using component_induction separator with
  | last c hc =>
    rw [fitComponents_append_cons hc, fitAll, splitOn_of_not_mem hc, List.map_singleton,
      List.intercalate_singleton]
  | inner c rest hc ih =>
    have hne : (rest.splitOn separator).map (fitInner budget) ≠ [] := by simp [List.splitOn_ne_nil]
    rw [List.append_assoc, List.cons_append, fitComponents_append_cons hc, ih, fitAll, fitAll,
      List.splitOn_append_cons_self_of_not_mem hc, List.map_cons, List.intercalate_cons_of_ne_nil hne]
    cases fitComponents separator budget extension b with
    | error reason => rfl
    | ok fitted => simp [Except.map]

theorem fitAll_append_cons (a b : Bytes) :
    fitAll separator budget (a ++ separator :: b) =
      fitAll separator budget a ++ [separator] ++ fitAll separator budget b := by
  have h : fitComponents separator budget [] (a ++ separator :: b) = _ :=
    fitComponents_append_cons_all budget [] a b
  rw [fitComponents_nil, fitComponents_nil] at h
  exact Except.ok.inj h

/-! ## A directory that has been cut -/

/-- A directory ends in a separator exactly if its last component is empty. -/
theorem lastComponent_eq_nil_iff (path : Bytes) :
    lastComponent separator path = [] ↔ path = [] ∨ path.getLast? = some separator := by
  induction path using component_induction separator with
  | last c hc =>
    rw [lastComponent_of_not_mem hc, iff_self_or]
    exact fun h => absurd (List.mem_of_getLast? h) hc
  | inner c rest hc ih =>
    have hlast : (c ++ separator :: rest).getLast? = some (rest.getLast?.getD separator) := by
      rw [List.getLast?_append, List.getLast?_cons]
      rfl
    rw [lastComponent_append_cons, ih, hlast]
    cases hrest : rest.getLast? with
    | none => simp [List.getLast?_eq_none_iff.mp hrest]
    | some b =>
      have hne : rest ≠ [] := by
        rintro rfl
        cases hrest
      simp [hne]

theorem folder_eq (separator : UInt8) (leading : Bytes) :
    folder separator leading =
      if lastComponent separator leading = [] then leading else leading ++ [separator] := by
  unfold folder
  simp only [lastComponent_eq_nil_iff]

/-- Cutting keeps a separator at the end, and does not make one. -/
theorem folder_fitAll (hs : separator < 0x80) (hfour : 4 ≤ budget) {leading : Bytes}
    (h : Utf8.WellFormed leading) :
    folder separator (fitAll separator budget leading) =
      fitAll separator budget (folder separator leading) := by
  have hend : lastComponent separator (fitAll separator budget leading) = [] ↔
      lastComponent separator leading = [] := by
    rw [lastComponent_fitAll]
    exact fitInner_eq_nil_iff_of_four_le (wellFormed_lastComponent hs h) hfour
  rw [folder_eq, folder_eq]
  by_cases hempty : lastComponent separator leading = []
  · rw [if_pos hempty, if_pos (hend.mpr hempty)]
  · rw [if_neg hempty, if_neg fun h => hempty (hend.mp h), fitAll_append_cons, fitAll_nil, List.append_nil]

theorem fitComponents_folder_append (budget : Nat) (extension leading rest : Bytes) :
    fitComponents separator budget extension (folder separator leading ++ rest) =
      (fitComponents separator budget extension rest).map
        (fitAll separator budget (folder separator leading) ++ ·) := by
  rcases folder_cases separator leading with ⟨-, h⟩ | ⟨-, d, h⟩
  · rw [h, List.nil_append, fitAll_nil]
    cases fitComponents separator budget extension rest with
    | error reason => rfl
    | ok fitted => rfl
  · rw [h, List.append_assoc, List.singleton_append, fitComponents_append_cons_all, fitAll_append_cons,
      fitAll_nil, List.append_nil]

/-- **A directory may be cut beforehand.** -/
theorem fitComponents_assemble_fitAll (hs : separator < 0x80) (hfour : 4 ≤ budget) {leading : Bytes}
    (h : Utf8.WellFormed leading) (file extension : Bytes) :
    fitComponents separator budget extension
        (assemble separator (fitAll separator budget leading) file extension) =
      fitComponents separator budget extension (assemble separator leading file extension) := by
  rw [assemble_eq, assemble_eq, fitComponents_folder_append, fitComponents_folder_append,
    folder_fitAll hs hfour h, fitAll_fitAll]

end

end Path

/-! ## Paths that are built from paths -/

open SafePath.Path

/-- A name alone is its whole path. -/
theorem assemble_none (separator : UInt8) (file : Bytes) :
    assemble separator (partBytes none) file (partBytes none) = file :=
  List.append_nil _

section
variable {limits : Limits}

/-- A name that is taken for itself alone is UTF-8 without NUL, and its path is its components, each cut for
itself. -/
theorem fitAll_of_pathOfParts {file path : Name}
    (h : (pathOfParts none file none limits).result = .ok path) :
    0 ∉ file.toBytes ∧ Utf8.WellFormed file.toBytes ∧
      path.toBytes = fitAll limits.separator limits.maxComponent file.toBytes := by
  obtain ⟨hacc, hfit⟩ := fitComponents_of_pathOfParts h
  have hwf := hacc.wellFormed
  rw [assemble_none] at hfit hwf
  exact ⟨hacc.file_noNul, hwf, (Except.ok.inj ((fitComponents_nil _).symm.trans hfit)).symm⟩

/-- Without a directory and an extension, UTF-8 that fits is its own path. -/
theorem pathOfParts_of_fits {path : Name} (hne : path.toBytes ≠ []) (hnul : 0 ∉ path.toBytes)
    (hwf : Utf8.WellFormed path.toBytes)
    (hle : ∀ c ∈ path.toBytes.splitOn limits.separator, c.length ≤ limits.maxComponent)
    (hlt : path.toBytes.length < limits.maxPath) :
    (pathOfParts none path none limits).result = path.withBytes path.toBytes := by
  have hacc : Acceptable limits.separator (partBytes none) path.toBytes (partBytes none) :=
    ⟨hne, List.not_mem_nil, hnul, List.not_mem_nil, List.not_mem_nil, by rwa [assemble_none]⟩
  have hfit : fitComponents limits.separator limits.maxComponent (partBytes none) path.toBytes =
      .ok path.toBytes := by
    rw [show partBytes none = [] from rfl, fitComponents_nil, fitAll_of_le hle]
  rw [result_pathOfParts hacc, assemble_none, hfit]
  simp only [Nat.not_le.mpr hlt, if_false]

/-- A path of text goes through once more as it is. -/
theorem pathOfParts_pathOfParts (hfour : 4 ≤ limits.maxComponent) (hsep : limits.separator ≠ 0)
    {leading : Option Name} {t : Text} {extension : Option Name} {path : Name}
    (h : (pathOfParts leading (.text t) extension limits).result = .ok path) :
    (pathOfParts none path none limits).result = .ok path := by
  obtain ⟨hacc, fitted, hfit, hlt, hname⟩ := acceptable_of_pathOfParts h
  obtain ⟨name, hname', hbytes, hform⟩ := exists_withBytes_of_fitComponents hacc hfit
  obtain rfl : name = path := Except.ok.inj (hname'.symm.trans hname)
  have hlast := lastComponent_assemble hacc.noSeparator (partBytes leading) (Name.text t).toBytes
  have hclosed := wellFormed_of_closed (closed_text t) hacc
  have hne : assemble limits.separator (partBytes leading) (Name.text t).toBytes (partBytes extension) ≠ [] := by
    rw [assemble_eq]
    intro hnil
    exact hacc.named (List.append_eq_nil_iff.mp (List.append_eq_nil_iff.mp hnil).2).1
  rw [pathOfParts_of_fits, hform.withBytes_eq, hbytes, hname]
  · rw [hbytes, ne_eq, eq_nil_iff_of_fitComponents limits.separator_ascii hacc.wellFormed hne hlast hfit]
    have := Utf8.headWidth_le_four
      (assemble limits.separator (partBytes leading) (Name.text t).toBytes (partBytes extension))
    omega
  · rw [hbytes, zero_mem_fitComponents_iff hacc hfit]
    exact fun hzero => hsep hzero.1
  · rw [hbytes, wellFormed_fitComponents_iff limits.separator_ascii hacc hfit]
    exact Or.inl hclosed.2
  · rw [hbytes]
    exact component_le_of_fitComponents hlast hfit
  · rw [hbytes]
    exact hlt

/-- Two results are the same, or both are malformed text, at offsets that count alike from `m` and `n` on. -/
def AgreeBehind (m n : Nat) (a b : Except Fault Name) : Prop :=
  a = b ∨ ∃ k : Nat, a = .error (.path (.malformed ((m + k : Nat) : Int) [])) ∧
    b = .error (.path (.malformed ((n + k : Nat) : Int) []))

section
variable {leading leading' : Option Name} {file : Name} {extension : Option Name}

/-- A directory without NUL has no say in what is wrong with unusable parts. -/
theorem result_of_unusable (hnul : 0 ∉ partBytes leading) (hnul' : 0 ∉ partBytes leading')
    (h : Unusable limits.separator (partBytes leading) file.toBytes (partBytes extension)) :
    (pathOfParts leading file extension limits).result =
      (pathOfParts leading' file extension limits).result := by
  have hfault : partFault? limits.separator (partBytes leading) file.toBytes (partBytes extension) =
      partFault? limits.separator (partBytes leading') file.toBytes (partBytes extension) := by
    unfold partFault?
    simp only [hnul, hnul']
  unfold pathOfParts
  by_cases hempty : file.isEmpty = true
  · rw [if_pos hempty, if_pos hempty]
  · have hnamed : file.toBytes ≠ [] := fun hnil => hempty (file.toBytes_eq_nil_iff.mp hnil)
    rw [if_neg hempty, if_neg hempty]
    unfold pathOfBytes join
    rw [← hfault]
    cases hsome : partFault? limits.separator (partBytes leading) file.toBytes (partBytes extension) with
    | none => exact absurd h ((partFault?_eq_none_iff_usable hnamed).mp hsome)
    | some fault => rfl

/-- Behind a directory that is UTF-8, malformed text is found as far behind it as it stands. -/
theorem malformed_behind_folder (hwf : Utf8.WellFormed (partBytes leading))
    (husable : ¬Unusable limits.separator (partBytes leading) file.toBytes (partBytes extension))
    (h : ¬Utf8.WellFormed (file.toBytes ++ partBytes extension)) :
    (pathOfParts leading file extension limits).result =
      .error (.path (.malformed
        (((folder limits.separator (partBytes leading)).length +
          Utf8.scannedLength (file.toBytes ++ partBytes extension) : Nat) : Int) [])) := by
  have hfolder := wellFormed_folder limits.separator_ascii hwf
  rw [malformed_of_usable leading file extension limits husable, assemble_eq, hfolder.scannedLength_append]
  rw [assemble_eq, hfolder.append_iff]
  exact h

/-- A directory that is UTF-8 without NUL can be replaced by its components, each cut for itself. -/
theorem agreeBehind_of_fitAll (hfour : 4 ≤ limits.maxComponent) (hsep : limits.separator ≠ 0)
    (hnul : 0 ∉ partBytes leading) (hwf : Utf8.WellFormed (partBytes leading))
    (hcut : partBytes leading' = fitAll limits.separator limits.maxComponent (partBytes leading)) :
    AgreeBehind (folder limits.separator (partBytes leading')).length
      (folder limits.separator (partBytes leading)).length
      (pathOfParts leading' file extension limits).result
      (pathOfParts leading file extension limits).result := by
  have hnul' : 0 ∉ partBytes leading' := by
    rw [hcut]
    exact not_mem_fitAll (Ne.symm hsep) hnul
  have hwf' : Utf8.WellFormed (partBytes leading') := by
    rw [hcut]
    exact wellFormed_fitAll limits.separator_ascii hwf
  have hsame : Unusable limits.separator (partBytes leading') file.toBytes (partBytes extension) ↔
      Unusable limits.separator (partBytes leading) file.toBytes (partBytes extension) := by
    unfold Unusable
    simp only [hnul, hnul']
  by_cases hun : Unusable limits.separator (partBytes leading) file.toBytes (partBytes extension)
  · exact Or.inl (result_of_unusable hnul' hnul (hsame.mpr hun))
  have hun' := mt hsame.mp hun
  by_cases hrest : Utf8.WellFormed (file.toBytes ++ partBytes extension)
  · left
    have hacc : Acceptable limits.separator (partBytes leading) file.toBytes (partBytes extension) := by
      rw [acceptable_iff_usable, assemble_eq]
      exact ⟨hun, (wellFormed_folder limits.separator_ascii hwf).append hrest⟩
    have hacc' : Acceptable limits.separator (partBytes leading') file.toBytes (partBytes extension) := by
      rw [acceptable_iff_usable, assemble_eq]
      exact ⟨hun', (wellFormed_folder limits.separator_ascii hwf').append hrest⟩
    rw [result_pathOfParts hacc, result_pathOfParts hacc', hcut,
      fitComponents_assemble_fitAll limits.separator_ascii hfour hwf]
  · right
    exact ⟨_, malformed_behind_folder hwf' hun' hrest, malformed_behind_folder hwf hun hrest⟩

end

end

/-- **Building a path settles it.**  From four bytes for a component on, and with a separator that is not
NUL, a path that was built of a text name is built of itself once more, and a directory may be replaced by
the path that is built of it alone: with any name and extension behind it, it leads to the same path or
the same fault, except that the offset of malformed text is counted in the directory at hand. -/
theorem pathOfParts_settles {limits : Limits} (hfour : 4 ≤ limits.maxComponent)
    (hsep : limits.separator ≠ 0) :
    (∀ (leading : Option Name) (t : Text) (extension : Option Name) (path : Name),
      (pathOfParts leading (.text t) extension limits).result = .ok path →
        (pathOfParts none path none limits).result = .ok path) ∧
      ∀ given built : Name, (pathOfParts none given none limits).result = .ok built →
        ∀ (file : Name) (extension : Option Name),
          AgreeBehind (folder limits.separator built.toBytes).length
            (folder limits.separator given.toBytes).length
            (pathOfParts (some built) file extension limits).result
            (pathOfParts (some given) file extension limits).result := by
  refine ⟨fun leading t extension path h => pathOfParts_pathOfParts hfour hsep h, ?_⟩
  intro given built h file extension
  obtain ⟨hnul, hwf, hcut⟩ := fitAll_of_pathOfParts h
  have hnul' : 0 ∉ partBytes (some given) := hnul
  have hcut' : partBytes (some built) = fitAll limits.separator limits.maxComponent (partBytes (some given)) := hcut
  exact agreeBehind_of_fitAll hfour hsep hnul' hwf hcut'

/-- A directory with a cut in each component, and a name that is cut in front of its extension. -/
theorem pathOfParts_settles_narrow :
    let limits : Limits := { Limits.default with maxComponent := 6, maxComponent_pos := by decide }
    4 ≤ limits.maxComponent ∧ limits.separator ≠ 0 ∧
      (pathOfParts (some (.text "é€€/abcd€")) (.text "€€€") (some (.text ".x")) limits).result =
        .ok (.text "é€/abcd/€.x") ∧
      (pathOfParts none (.text "é€/abcd/€.x") none limits).result = .ok (.text "é€/abcd/€.x") ∧
      (pathOfParts none (.text "é€€/abcd€") none limits).result = .ok (.text "é€/abcd") ∧
      (pathOfParts (some (.text "é€/abcd")) (.text "€€€") (some (.text ".x")) limits).result =
        .ok (.text "é€/abcd/€.x") := by
  intro limits
  have hfour : 4 ≤ limits.maxComponent := by decide
  have hsep : limits.separator ≠ 0 := by decide
  have hrun : (pathOfParts (some (.text "é€€/abcd€")) (.text "€€€") (some (.text ".x")) limits).result =
      .ok (.text "é€/abcd/€.x") := by
    decide +kernel
  have hfolder : (pathOfParts none (.text "é€€/abcd€") none limits).result = .ok (.text "é€/abcd") := by
    decide +kernel
  obtain ⟨hagain, hreplaced⟩ := pathOfParts_settles hfour hsep
  refine ⟨hfour, hsep, hrun, hagain _ _ _ _ hrun, hfolder, ?_⟩
  rcases hreplaced _ _ hfolder (.text "€€€") (some (.text ".x")) with hsame | ⟨k, -, hmalformed⟩
  · rw [hsame, hrun]
  · cases hrun.symm.trans hmalformed

end SafePath
