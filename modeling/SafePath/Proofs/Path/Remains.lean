import SafePath.Proofs.Path.Parts
import SafePath.Proofs.Utf8.HeadWidth

/-!
# What the cuts leave of the components

Limits count bytes, and no code point is split.  So a component comes out empty exactly if its first code
point alone is wider than the limit (`fitInner_eq_nil_iff`), and a name in front of an extension exactly
if its first code point is wider than the room for it (`nameLeft_eq_nil_iff`).

A code point has at most four bytes: a limit of four keeps something of every component, and a limit of
seven more bytes than the extension has keeps something of every name in front of it, for a component that
is cut has at most six bytes less than the limit (`le_length_nameLeft_append`).
-/

namespace SafePath

namespace Path

/-! ## One component -/

section
variable {budget : Nat} {name extension : Bytes}

theorem fitInner_eq_nil_iff {c : Bytes} (h : Utf8.WellFormed c) (hne : c ≠ []) (budget : Nat) :
    fitInner budget c = [] ↔ budget < Utf8.headWidth c := by
  unfold fitInner
  by_cases hlong : budget < c.length
  · rw [if_pos hlong, List.take_eq_nil_iff, or_iff_left hne, Utf8.lastBoundary_eq_zero_iff h hne]
  · have hwidth := Utf8.headWidth_le_length c
    rw [if_neg hlong]
    simp only [hne, false_iff]
    omega

theorem nameLeft_eq_nil_iff (h : Utf8.WellFormed name) (hne : name ≠ [])
    (hlong : budget < (name ++ extension).length) :
    nameLeft budget name extension = [] ↔ nameRoom budget name extension < Utf8.headWidth name := by
  rw [nameLeft_of_lt hlong, List.take_eq_nil_iff, or_iff_left hne, Utf8.lastBoundary_eq_zero_iff h hne]

/-- Without an extension, the last component is cut like any other. -/
theorem nameLeft_nil (budget : Nat) (name : Bytes) : nameLeft budget name [] = fitInner budget name := by
  unfold nameLeft fitInner
  rw [nameRoom_nil, List.append_nil, Utf8.lastBoundary_lastBoundary]

/-- The last component comes out empty as the others do. -/
theorem nameLeft_append_eq_nil_iff (h : Utf8.WellFormed (name ++ extension)) (hne : name ++ extension ≠ [])
    (hroom : HasRoom budget name extension) :
    nameLeft budget name extension ++ extension = [] ↔ budget < Utf8.headWidth (name ++ extension) := by
  by_cases hnone : extension = []
  · subst hnone
    rw [List.append_nil] at h hne
    rw [List.append_nil, List.append_nil, nameLeft_nil, fitInner_eq_nil_iff h hne]
  · -- an extension stays, and there is no room behind a first code point that does not fit
    have hwidth := Utf8.headWidth_le_length (name ++ extension)
    have hzero := Utf8.lastBoundary_eq_zero_iff h hne budget
    simp only [List.append_eq_nil_iff, hnone, and_false, false_iff]
    intro hwide
    have hnoroom : nameRoom budget name extension = 0 := by
      rw [nameRoom, hzero.mpr hwide, Nat.zero_sub]
    rcases hroom with hle | hnil | hpos
    · omega
    · exact hnone hnil
    · omega

/-- **A last component that is cut loses at most six bytes of the limit**: three for the component, and
three more for the name in front of the extension. -/
theorem le_length_nameLeft_append (h : Utf8.WellFormed (name ++ extension)) (hname : Utf8.WellFormed name)
    (hroom : HasRoom budget name extension) (hlong : budget < (name ++ extension).length) :
    budget ≤ (nameLeft budget name extension ++ extension).length + 6 := by
  have hkept := Utf8.lt_lastBoundary_add_four h hlong
  have hle := Utf8.lastBoundary_le budget (name ++ extension)
  rw [List.length_append] at hlong
  have hfits : extension.length ≤ Utf8.lastBoundary budget (name ++ extension) := by
    rcases hroom with hshort | rfl | hpos
    · rw [List.length_append] at hshort
      omega
    · exact Nat.zero_le _
    · unfold nameRoom at hpos
      omega
  have hcut : nameRoom budget name extension < name.length := by
    unfold nameRoom
    omega
  have hleft := Utf8.lt_lastBoundary_add_four hname hcut
  rw [nameLeft_of_lt (by rwa [List.length_append]), List.length_append,
    List.length_take_of_le (Utf8.isBoundary_lastBoundary _ name).1]
  unfold nameRoom at hleft ⊢
  omega

end

/-! ## All components -/

/-- What is left of the components of `whole`, of which the last is `name` and `extension`, in `path`. -/
structure Remains (separator : UInt8) (budget : Nat) (whole name extension path : Bytes) : Prop where
  /-- A component comes out empty only where its first code point is wider than the limit. -/
  component : List.Forall₂
    (fun before after => before ≠ [] → (after = [] ↔ budget < Utf8.headWidth before))
    (whole.splitOn separator) (path.splitOn separator)
  /-- The path is empty only if it is one such component. -/
  path_eq_nil_iff : path = [] ↔ separator ∉ whole ∧ budget < Utf8.headWidth whole
  last_eq : lastComponent separator path = nameLeft budget name extension ++ extension
  /-- A name that is cut in front of an extension is left out only where its first code point is wider
  than the room for it. -/
  name_eq_nil_iff : budget < (name ++ extension).length → name ≠ [] →
    (nameLeft budget name extension = [] ↔ nameRoom budget name extension < Utf8.headWidth name)
  /-- A limit of four bytes keeps every component, and the path. -/
  component_of_le : 4 ≤ budget → path ≠ [] ∧
    List.Forall₂ (fun before after => before ≠ [] → after ≠ []) (whole.splitOn separator)
      (path.splitOn separator)
  /-- A limit of seven bytes more than the extension has keeps every name. -/
  name_of_le : extension.length + 7 ≤ budget → name ≠ [] → nameLeft budget name extension ≠ []

section
variable {separator : UInt8} {budget : Nat} {whole name extension path : Bytes}

theorem wellFormed_lastComponent (hs : separator < 0x80) (h : Utf8.WellFormed path) :
    Utf8.WellFormed (lastComponent separator path) := by
  apply (wellFormed_iff_splitOn hs path).mp h
  rw [splitOn_eq]
  exact List.mem_append_right _ (List.mem_singleton_self _)

theorem forall₂_of_fitComponents (hs : separator < 0x80) (h : Utf8.WellFormed whole)
    (hlast : lastComponent separator whole = name ++ extension)
    (hfit : fitComponents separator budget extension whole = .ok path) :
    List.Forall₂ (fun before after => before ≠ [] → (after = [] ↔ budget < Utf8.headWidth before))
      (whole.splitOn separator) (path.splitOn separator) := by
  obtain ⟨hroom, hsplit⟩ := splitOn_of_fitComponents hlast hfit
  have hparts := (wellFormed_iff_splitOn hs whole).mp h
  rw [splitOn_eq whole, hlast, List.forall_mem_append, List.forall_mem_singleton] at hparts
  rw [splitOn_eq whole, hlast, hsplit]
  apply List.rel_append
  · rw [List.forall₂_map_right_iff, List.forall₂_same]
    intro c hc hne
    exact fitInner_eq_nil_iff (hparts.1 c hc) hne budget
  · exact .cons (fun hne => nameLeft_append_eq_nil_iff hparts.2 hne hroom) .nil

theorem eq_nil_iff_of_fitComponents (hs : separator < 0x80) (h : Utf8.WellFormed whole) (hne : whole ≠ [])
    (hlast : lastComponent separator whole = name ++ extension)
    (hfit : fitComponents separator budget extension whole = .ok path) :
    path = [] ↔ separator ∉ whole ∧ budget < Utf8.headWidth whole := by
  have hcount := count_fitComponents hlast hfit
  by_cases hmem : separator ∈ whole
  · -- the separator is still there
    have hpath : separator ∈ path := by
      rw [← List.count_pos_iff] at hmem ⊢
      omega
    simp only [hmem, not_true_eq_false, false_and, iff_false]
    rintro rfl
    cases hpath
  · have hpath : separator ∉ path := by
      rw [← List.count_eq_zero] at hmem ⊢
      omega
    have hcomponent := forall₂_of_fitComponents hs h hlast hfit
    rw [splitOn_of_not_mem hmem, splitOn_of_not_mem hpath] at hcomponent
    cases hcomponent with
    | cons hhead _ => rw [hhead hne, and_iff_right hmem]

theorem remains_of_fitComponents (hs : separator < 0x80) (h : Utf8.WellFormed whole) (hne : whole ≠ [])
    (hlast : lastComponent separator whole = name ++ extension) (hname : Utf8.WellFormed name)
    (hfit : fitComponents separator budget extension whole = .ok path) :
    Remains separator budget whole name extension path := by
  have hroom := (splitOn_of_fitComponents hlast hfit).1
  have hcomponent := forall₂_of_fitComponents hs h hlast hfit
  have hpath := eq_nil_iff_of_fitComponents hs h hne hlast hfit
  have hend : Utf8.WellFormed (name ++ extension) := hlast ▸ wellFormed_lastComponent hs h
  refine ⟨hcomponent, hpath, lastComponent_of_fitComponents hlast hfit,
    fun hlong hname' => nameLeft_eq_nil_iff hname hname' hlong, fun hfour => ⟨?_, ?_⟩, ?_⟩
  · have := Utf8.headWidth_le_four whole
    rw [ne_eq, hpath]
    omega
  · refine hcomponent.imp fun before after hiff hbefore => ?_
    have := Utf8.headWidth_le_four before
    rw [ne_eq, hiff hbefore]
    omega
  · intro hseven hname'
    by_cases hlong : budget < (name ++ extension).length
    · have hleft := le_length_nameLeft_append hend hname hroom hlong
      rw [List.length_append] at hleft
      exact List.ne_nil_of_length_pos (by omega)
    · rwa [nameLeft_of_le (Nat.le_of_not_lt hlong)]

end

end Path

open SafePath.Path

/-- **What a path keeps of its parts**: a component that is not empty comes out empty exactly if its
first code point does not fit into the limit, and a name in front of an extension is left out exactly if
its first code point does not fit into what the extension leaves. -/
theorem pathOfParts_remains {leading : Option Name} {t : Text} {extension : Option Name} {limits : Limits}
    {path : Name} (h : (pathOfParts leading (.text t) extension limits).result = .ok path) :
    Remains limits.separator limits.maxComponent
      (assemble limits.separator (partBytes leading) t.encode (partBytes extension))
      (lastComponent limits.separator t.encode) (partBytes extension) path.toBytes := by
  obtain ⟨hacc, hfit⟩ := fitComponents_of_pathOfParts h
  have hfile : Utf8.WellFormed t.encode := (wellFormed_of_closed (closed_text t) hacc).1
  have hwhole : assemble limits.separator (partBytes leading) t.encode (partBytes extension) ≠ [] := by
    rw [assemble_eq]
    intro hnil
    exact hacc.named (List.append_eq_nil_iff.mp (List.append_eq_nil_iff.mp hnil).2).1
  exact remains_of_fitComponents limits.separator_ascii hacc.wellFormed hwhole
    (lastComponent_assemble hacc.noSeparator (partBytes leading) t.encode)
    (wellFormed_lastComponent limits.separator_ascii hfile) hfit

/-- A folder of which the last character goes, and a name that needs almost all the room that its
extension leaves. -/
theorem pathOfParts_remains_narrow :
    (pathOfParts (some (.text "abcd€")) (.text "€€€") (some (.text ".x"))
        { Limits.default with maxComponent := 6, maxComponent_pos := by decide }).result =
          .ok (.text "abcd/€.x") ∧
      Remains 0x2F 6 (Text.encode "abcd€/€€€.x") (Text.encode "€€€") (Text.encode ".x")
        (Text.encode "abcd/€.x") := by
  have hrun : (pathOfParts (some (.text "abcd€")) (.text "€€€") (some (.text ".x"))
      { Limits.default with maxComponent := 6, maxComponent_pos := by decide }).result =
        .ok (.text "abcd/€.x") := by
    decide +kernel
  exact ⟨hrun, pathOfParts_remains hrun⟩

/-- Names can be erased: of a character wider than the limit nothing is left, so that a path may come out
empty or begin with the separator, and of a name in front of an extension nothing where there is too
little room. -/
theorem exists_pathOfParts_erased :
    (pathOfParts none (.text "é") none
        { Limits.default with maxComponent := 1, maxComponent_pos := by decide }).result =
          .ok (.text "") ∧
      (pathOfParts (some (.text "é")) (.text "x") none
        { Limits.default with maxComponent := 1, maxComponent_pos := by decide }).result =
          .ok (.text "/x") ∧
      (pathOfParts none (.text "€€€") (some (.text ".abc"))
        { Limits.default with maxComponent := 6, maxComponent_pos := by decide }).result =
          .ok (.text ".abc") := by
  decide +kernel

end SafePath
