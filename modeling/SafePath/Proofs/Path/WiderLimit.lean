import SafePath.Proofs.Path.Remains

/-!
# Paths under a wider limit

The last boundary within a budget moves right as the budget grows.  So under a wider limit for components more
is left of each of them, and where an extension has room for a name in front of it, it still has:

    fitInner budget c <+: fitInner wider c                    (isPrefix_fitInner_of_le)
    HasRoom budget name extension → HasRoom wider name extension             (HasRoom.of_le)
    nameLeft budget name extension <+: nameLeft wider name extension  (isPrefix_nameLeft_of_le)

The last one goes through two cuts, of which the first decides on the room for the second; both move the same
way.  What fails under a wider limit is the length of the whole alone (`pathOfParts_wider`).

A component that is cut has at most three bytes less than the limit, and at most six if it is cut in front of an
extension (`le_length_fitInner`, `le_length_nameLeft_append`).
-/

namespace SafePath

namespace Path

/-! ## One component -/

section
variable {budget wider : Nat} {name extension : Bytes} (hle : budget ≤ wider)

include hle

theorem isPrefix_fitInner_of_le (c : Bytes) : fitInner budget c <+: fitInner wider c := by
  by_cases hlong : wider < c.length
  · rw [fitInner_of_lt hlong, fitInner_of_lt (Nat.lt_of_le_of_lt hle hlong)]
    exact List.take_prefix_take_left (Utf8.lastBoundary_mono hle c)
  · rw [fitInner_of_le (Nat.le_of_not_lt hlong)]
    exact isPrefix_fitInner budget c

theorem nameRoom_le_of_le (name extension : Bytes) :
    nameRoom budget name extension ≤ nameRoom wider name extension :=
  Nat.sub_le_sub_right (Utf8.lastBoundary_mono hle _) _

/-- Room for a name stays room for it. -/
theorem HasRoom.of_le (h : HasRoom budget name extension) : HasRoom wider name extension := by
  rcases h with hfits | hnone | hpos
  · exact Or.inl (Nat.le_trans hfits hle)
  · exact Or.inr (Or.inl hnone)
  · exact Or.inr (Or.inr (Nat.lt_of_lt_of_le hpos (nameRoom_le_of_le hle name extension)))

theorem isPrefix_nameLeft_of_le (name extension : Bytes) :
    nameLeft budget name extension <+: nameLeft wider name extension := by
  by_cases hlong : wider < (name ++ extension).length
  · rw [nameLeft_of_lt hlong, nameLeft_of_lt (Nat.lt_of_le_of_lt hle hlong)]
    exact List.take_prefix_take_left (Utf8.lastBoundary_mono (nameRoom_le_of_le hle name extension) name)
  · rw [nameLeft_of_le (Nat.le_of_not_lt hlong)]
    exact isPrefix_nameLeft budget name extension

end

/-! ## What a cut loses -/

section
variable {budget : Nat}

/-- **A component that is cut loses at most three bytes of the limit.** -/
theorem le_length_fitInner {c : Bytes} (h : Utf8.WellFormed c) (hlong : budget < c.length) :
    budget ≤ (fitInner budget c).length + 3 := by
  have hkept := Utf8.lt_lastBoundary_add_four h hlong
  rw [fitInner_of_lt hlong, List.length_take_of_le (Utf8.isBoundary_lastBoundary budget c).1]
  omega

theorem length_lt_of_fitInner_ne {c : Bytes} (h : fitInner budget c ≠ c) : budget < c.length := by
  by_contra hshort
  exact h (fitInner_of_le (Nat.le_of_not_lt hshort))

theorem length_lt_of_nameLeft_ne {name extension : Bytes}
    (h : nameLeft budget name extension ++ extension ≠ name ++ extension) :
    budget < (name ++ extension).length := by
  by_contra hshort
  exact h (by rw [nameLeft_of_le (Nat.le_of_not_lt hshort)])

end

/-- What the cuts lose of `whole`: of a component that comes out changed at least `budget - 3` bytes are kept, or
`budget - 6` if it is the last one and carries the extension. -/
structure LosesLittle (separator : UInt8) (budget : Nat) (whole extension path : Bytes) : Prop where
  inner : List.Forall₂ (fun before after => after ≠ before → budget ≤ after.length + 3)
    (innerComponents separator whole) (innerComponents separator path)
  last : lastComponent separator path ≠ lastComponent separator whole →
    budget ≤ (lastComponent separator path).length + if extension = [] then 3 else 6

/-- Component by component, and without the extension in the last one, `path` is the front of `wide`. -/
def IsFrontOf (separator : UInt8) (extension path wide : Bytes) : Prop :=
  ∃ inner base inner' base',
    path.splitOn separator = inner ++ [base ++ extension] ∧
    wide.splitOn separator = inner' ++ [base' ++ extension] ∧
    List.Forall₂ (· <+: ·) (inner ++ [base]) (inner' ++ [base'])

section
variable {separator : UInt8} {budget wider : Nat} {whole name extension path : Bytes}
  (hlast : lastComponent separator whole = name ++ extension)

include hlast

/-- Room for the name is all that a path needs to fit. -/
theorem exists_fitComponents_of_hasRoom (h : HasRoom budget name extension) :
    ∃ path, fitComponents separator budget extension whole = .ok path := by
  rw [fitComponents, hlast, fitLast_of_hasRoom h]
  exact ⟨_, rfl⟩

variable (hfit : fitComponents separator budget extension whole = .ok path)

include hfit

theorem innerComponents_of_fitComponents :
    innerComponents separator path = (innerComponents separator whole).map (fitInner budget) := by
  rw [innerComponents, (splitOn_of_fitComponents hlast hfit).2, List.dropLast_concat]

theorem losesLittle_of_fitComponents (hs : separator < 0x80) (h : Utf8.WellFormed whole)
    (hname : Utf8.WellFormed name) : LosesLittle separator budget whole extension path := by
  have hroom := (splitOn_of_fitComponents hlast hfit).1
  have hparts := (wellFormed_iff_splitOn hs whole).mp h
  rw [splitOn_eq whole, hlast, List.forall_mem_append, List.forall_mem_singleton] at hparts
  refine ⟨?_, ?_⟩
  · rw [innerComponents_of_fitComponents hlast hfit, List.forall₂_map_right_iff, List.forall₂_same]
    intro c hc hcut
    exact le_length_fitInner (hparts.1 c hc) (length_lt_of_fitInner_ne hcut)
  · rw [lastComponent_of_fitComponents hlast hfit, hlast]
    intro hcut
    have hlong := length_lt_of_nameLeft_ne hcut
    split
    · next hnone =>
      -- without an extension it is cut like the others
      subst hnone
      rw [List.append_nil] at hlong ⊢
      rw [nameLeft_nil]
      exact le_length_fitInner hname hlong
    · exact le_length_nameLeft_append hparts.2 hname hroom hlong

/-- What fits, fits under a wider limit too, and is the front of what comes out there. -/
theorem exists_isFrontOf_of_fitComponents (hle : budget ≤ wider) :
    ∃ wide, fitComponents separator wider extension whole = .ok wide ∧
      IsFrontOf separator extension path wide := by
  obtain ⟨hroom, hsplit⟩ := splitOn_of_fitComponents hlast hfit
  obtain ⟨wide, hwide⟩ := exists_fitComponents_of_hasRoom hlast (hroom.of_le hle)
  have hsplit' := (splitOn_of_fitComponents hlast hwide).2
  refine ⟨wide, hwide, _, _, _, _, hsplit, hsplit', ?_⟩
  apply List.rel_append
  · rw [List.forall₂_map_left_iff, List.forall₂_map_right_iff, List.forall₂_same]
    exact fun c _ => isPrefix_fitInner_of_le hle c
  · exact .cons (isPrefix_nameLeft_of_le hle name extension) .nil

end

end Path

open SafePath.Path

/-- **A wider limit for components keeps more of each, and a cut loses little of a limit.**  Where text parts
have a path, they have one under a wider limit for components too, unless it is too long as a whole; and then
both have as many components, each the front of the other, apart from the extension in the last one.  A
component that was cut has at most three bytes less than its limit, or six in front of an extension. -/
theorem pathOfParts_wider (leading : Option Name) (t : Text) (extension : Option Name) (limits wider : Limits)
    (hsep : wider.separator = limits.separator) (hmax : wider.maxPath = limits.maxPath)
    (hle : limits.maxComponent ≤ wider.maxComponent) {path : Name}
    (h : (pathOfParts leading (.text t) extension limits).result = .ok path) :
    ((∃ wide, (pathOfParts leading (.text t) extension wider).result = .ok wide ∧
        IsFrontOf limits.separator (partBytes extension) path.toBytes wide.toBytes) ∨
      ∃ length : Nat, (pathOfParts leading (.text t) extension wider).result =
        .error (.path (.pathTooLong length limits.maxPath))) ∧
    LosesLittle limits.separator limits.maxComponent
      (assemble limits.separator (partBytes leading) t.encode (partBytes extension)) (partBytes extension)
      path.toBytes := by
  obtain ⟨hacc, hfit⟩ := fitComponents_of_pathOfParts h
  have hlast := lastComponent_assemble hacc.noSeparator (partBytes leading) (Name.text t).toBytes
  have hfile : Utf8.WellFormed t.encode := (wellFormed_of_closed (closed_text t) hacc).1
  have hname := wellFormed_lastComponent limits.separator_ascii hfile
  refine ⟨?_, losesLittle_of_fitComponents hlast hfit limits.separator_ascii hacc.wellFormed hname⟩
  obtain ⟨fitted, hfitted, hfront⟩ := exists_isFrontOf_of_fitComponents hlast hfit hle
  rw [← hsep] at hacc hfitted
  rw [result_pathOfParts hacc, hfitted, ← hmax]
  by_cases hlong : wider.maxPath ≤ fitted.length
  · right
    simp only [hlong, if_true]
    exact ⟨fitted.length, rfl⟩
  · left
    obtain ⟨wide, hwide, hbytes, -⟩ := exists_withBytes_of_fitComponents hacc hfitted
    simp only [hlong, if_false]
    exact ⟨wide, hwide, hbytes ▸ hfront⟩

/-- Three bytes more keep the folder whole and one character more of the name. -/
theorem pathOfParts_wider_by_three :
    let limits : Limits := { Limits.default with maxComponent := 6, maxComponent_pos := by decide }
    let wider : Limits := { Limits.default with maxComponent := 9, maxComponent_pos := by decide }
    limits.maxComponent ≤ wider.maxComponent ∧
      (pathOfParts (some (.text "abcd€")) (.text "€€€") (some (.text ".x")) limits).result =
        .ok (.text "abcd/€.x") ∧
      (pathOfParts (some (.text "abcd€")) (.text "€€€") (some (.text ".x")) wider).result =
        .ok (.text "abcd€/€€.x") ∧
      IsFrontOf 0x2F (Text.encode ".x") (Text.encode "abcd/€.x") (Text.encode "abcd€/€€.x") ∧
      LosesLittle 0x2F 6 (Text.encode "abcd€/€€€.x") (Text.encode ".x") (Text.encode "abcd/€.x") := by
  intro limits wider
  have hle : limits.maxComponent ≤ wider.maxComponent := by decide
  have hrun : (pathOfParts (some (.text "abcd€")) (.text "€€€") (some (.text ".x")) limits).result =
      .ok (.text "abcd/€.x") := by
    decide +kernel
  have hwide : (pathOfParts (some (.text "abcd€")) (.text "€€€") (some (.text ".x")) wider).result =
      .ok (.text "abcd€/€€.x") := by
    decide +kernel
  obtain ⟨hmore, hlittle⟩ := pathOfParts_wider _ _ _ limits wider rfl rfl hle hrun
  refine ⟨hle, hrun, hwide, ?_, hlittle⟩
  rw [hwide] at hmore
  rcases hmore with ⟨wide, hsame, hfront⟩ | ⟨length, hlong⟩
  · cases hsame
    exact hfront
  · cases hlong

end SafePath
