import SafePath.Proofs.Name.Escaped
import SafePath.Proofs.Path.Settled
import SafePath.Proofs.Text.Surrogates

/-!
# Names that are built again

A text that is neither trimmed, nor sanitized, nor cut is a file name as it stands (`IsFileName`), and so is every
part of it that stands at its front.  What is built of a raw name alone is one, up to trimming: of the trimmed
name, a front is kept code point by code point.

    sanitizing `t` gives `t.plainFront.map (legalPoint asciiOnly)`          (result_sanitize_text)
    the path of `t` is `(trimmed.take n).map (legalPoint asciiOnly)`         (IsBuiltOf)

Trimming comes first, and what follows may cut the name behind a space.  So a built name may end in spaces, and
building it again takes them off (`pathOfRawName_again`); no other blank is left in it.
-/

namespace SafePath

open SafePath.Path

/-! ## Text that is sanitized -/

/-- The code point that stands for `c`. -/
def legalPoint (asciiOnly : Bool) (c : CodePoint) : CodePoint :=
  if isIllegal asciiOnly c.val then CodePoint.ofChar '_' else c

section
variable (asciiOnly : Bool)

theorem val_legalPoint (c : CodePoint) : (legalPoint asciiOnly c).val = legalValue asciiOnly c.val := by
  unfold legalPoint legalValue
  split <;> rfl

theorem isIllegal_legalPoint (c : CodePoint) : isIllegal asciiOnly (legalPoint asciiOnly c).val = false := by
  rw [val_legalPoint, isIllegal_legalValue]

theorem legalPoint_of_legal {asciiOnly : Bool} {c : CodePoint} (h : isIllegal asciiOnly c.val = false) :
    legalPoint asciiOnly c = c := by
  rw [legalPoint, h]
  rfl

theorem not_isSurrogate_legalPoint {c : CodePoint} (h : ¬c.IsSurrogate) : ¬(legalPoint asciiOnly c).IsSurrogate := by
  rw [← Text.isScalar_iff, val_legalPoint]
  exact isScalar_legalValue ((Text.isScalar_iff c).mpr h) asciiOnly

/-- Only a space comes out as a space. -/
theorem legalPoint_eq_space_iff (c : CodePoint) :
    legalPoint asciiOnly c = CodePoint.ofChar ' ' ↔ c = CodePoint.ofChar ' ' := by
  have hspace : isIllegal asciiOnly (CodePoint.ofChar ' ').val = false := by cases asciiOnly <;> decide
  constructor
  · intro h
    unfold legalPoint at h
    split at h
    · exact absurd h (by decide)
    · exact h
  · rintro rfl
    exact legalPoint_of_legal hspace

/-- Of the blanks that are trimmed, only the space is legal. -/
theorem isAsciiBlank_of_legal {asciiOnly : Bool} {c : CodePoint} (h : isIllegal asciiOnly c.val = false) :
    c.isAsciiBlank = c.is ' ' := by
  have hcontrol : ¬(c.val : Int) < 0x20 := by
    intro hlt
    rw [isIllegal, decide_eq_true hlt, Bool.or_true, Bool.true_or] at h
    cases h
  rw [Bool.eq_iff_iff, isAsciiBlank_iff, CodePoint.is, beq_iff_eq]
  constructor
  · intro hblank
    show c.val = 0x20
    omega
  · exact Or.inl

namespace Text

theorem values_encode (t : Text) : Utf8.values t.encode = t.plainFront.map CodePoint.val := by
  induction t with
  | nil => exact Utf8.values_nil
  | cons c t ih =>
    rw [encode_cons]
    by_cases hc : c.IsSurrogate
    · have hstop := Utf8.scanHead_encodeValue_append c.lt (encode t)
      rw [if_neg ((isScalar_iff c).not.mpr (not_not_intro hc))] at hstop
      rw [Utf8.values_of_scanHead_none hstop, plainFront_cons_of_surrogate hc]
      rfl
    · rw [Utf8.values_encodeValue_append ((isScalar_iff c).mpr hc), ih, plainFront_cons_of_not_surrogate hc,
        List.map_cons]

theorem not_isSurrogate_of_mem_plainFront {t : Text} {c : CodePoint} (h : c ∈ t.plainFront) : ¬c.IsSurrogate := by
  simpa using List.mem_takeWhile_imp h

theorem plainFront_of_plain {t : Text} (h : ∀ c ∈ t, ¬c.IsSurrogate) : t.plainFront = t :=
  List.takeWhile_eq_self_iff.mpr fun c hc => by simpa using h c hc

/-- The bytes of a text are the front of another's only if the text is. -/
theorem isPrefix_of_encode {t u : Text} (h : t.encode <+: u.encode) : t <+: u := by
  induction t generalizing u with
  | nil => exact List.nil_prefix
  | cons c t ih =>
    obtain ⟨rest, hrest⟩ := h
    cases u with
    | nil => exact absurd hrest (by simp [Utf8.encodeValue_ne_nil])
    | cons d u =>
      rw [encode_cons, encode_cons, List.append_assoc] at hrest
      obtain ⟨hval, htail⟩ := Utf8.encodeValue_append_inj c.lt d.lt hrest
      obtain rfl : c = d := (CodePoint.mk.injEq ..).mpr hval
      exact List.cons_prefix_cons.mpr ⟨rfl, ih ⟨rest, htail⟩⟩

end Text

theorem sanitizeBytes_encode (t : Text) :
    sanitizeBytes asciiOnly t.encode = Text.encode (t.plainFront.map (legalPoint asciiOnly)) := by
  rw [sanitizeBytes_eq, Text.values_encode, Text.encode, List.flatMap_map, List.flatMap_map, List.flatMap_map]
  congr 1
  funext c
  exact congrArg Utf8.encodeValue (val_legalPoint asciiOnly c).symm

/-- **Text is sanitized code point by code point**, up to its first surrogate. -/
theorem result_sanitize_text (t : Text) :
    ((Name.text t).sanitize asciiOnly).result = .ok (.text (t.plainFront.map (legalPoint asciiOnly))) := by
  have hplain : ∀ c ∈ t.plainFront.map (legalPoint asciiOnly), ¬c.IsSurrogate := by
    rw [List.forall_mem_map]
    exact fun c hc => not_isSurrogate_legalPoint asciiOnly (Text.not_isSurrogate_of_mem_plainFront hc)
  show (Name.text t).withBytes (sanitizeBytes asciiOnly t.encode) = _
  rw [sanitizeBytes_encode, Name.withBytes, (Text.decode_encode_iff _).mpr hplain]

end

/-! ## File names -/

/-- A text that is a file name as it stands: sanitizing and cutting leave it alone. -/
structure IsFileName (asciiOnly : Bool) (limits : Limits) (t : Text) : Prop where
  named : t ≠ []
  plain : ∀ c ∈ t, ¬c.IsSurrogate
  legal : ∀ c ∈ t, isIllegal asciiOnly c.val = false
  component_le : t.encode.length ≤ limits.maxComponent
  length_lt : t.encode.length < limits.maxPath

namespace IsFileName

variable {asciiOnly : Bool} {limits : Limits} {t : Text}

theorem of_isPrefix (h : IsFileName asciiOnly limits t) {front : Text} (hpre : front <+: t) (hne : front ≠ []) :
    IsFileName asciiOnly limits front := by
  have hle : front.encode.length ≤ t.encode.length := by
    obtain ⟨rest, rfl⟩ := hpre
    rw [Text.encode, Text.encode, List.flatMap_append, List.length_append]
    exact Nat.le_add_right _ _
  exact
    { named := hne
      plain := fun c hc => h.plain c (hpre.subset hc)
      legal := fun c hc => h.legal c (hpre.subset hc)
      component_le := Nat.le_trans hle h.component_le
      length_lt := Nat.lt_of_le_of_lt hle h.length_lt }

theorem legal_eq (h : IsFileName asciiOnly limits t) : t.plainFront.map (legalPoint asciiOnly) = t := by
  rw [Text.plainFront_of_plain h.plain]
  exact (List.map_congr_left fun c hc => legalPoint_of_legal (h.legal c hc)).trans (List.map_id t)

theorem sanitize (h : IsFileName asciiOnly limits t) :
    ((Name.text t).sanitize asciiOnly).result = .ok (.text t) := by
  rw [result_sanitize_text, h.legal_eq]

theorem not_mem_encode (h : IsFileName asciiOnly limits t) {b : UInt8} (hb : b < 0x80)
    (hillegal : isIllegal asciiOnly b.toNat = true) : b ∉ t.encode := by
  have hsame := sanitizeBytes_encode asciiOnly t
  rw [h.legal_eq] at hsame
  rw [← hsame]
  exact not_mem_sanitizeBytes asciiOnly _ hb hillegal

theorem pathOfParts (h : IsFileName asciiOnly limits t)
    (hsep : isIllegal asciiOnly limits.separator.toNat = true) :
    (pathOfParts none (.text t) none limits).result = .ok (.text t) := by
  have hnul : isIllegal asciiOnly (0 : UInt8).toNat = true := by cases asciiOnly <;> decide
  rw [pathOfParts_of_fits]
  · rw [Name.toBytes, Name.withBytes, (Text.decode_encode_iff t).mpr h.plain]
  · exact fun hnil => h.named (Text.encode_eq_nil_iff.mp hnil)
  · exact h.not_mem_encode (by decide) hnul
  · exact t.wellFormed_encode_iff.mpr h.plain
  · rw [Name.toBytes, splitOn_of_not_mem (h.not_mem_encode limits.separator_ascii hsep)]
    exact List.forall_mem_singleton.mpr h.component_le
  · exact h.length_lt

/-- A raw name that is a file name when it has been trimmed is built so. -/
theorem pathOfRawName {raw : Text}
    (h : IsFileName asciiOnly limits (raw.stripWhere CodePoint.isAsciiBlank))
    (hsep : isIllegal asciiOnly limits.separator.toNat = true) :
    (pathOfRawName (.text raw) none none asciiOnly limits).result =
      .ok (.text (raw.stripWhere CodePoint.isAsciiBlank)) := by
  rw [result_pathOfRawName, Name.trim, h.sanitize]
  exact h.pathOfParts hsep

end IsFileName

/-! ## Names that are trimmed -/

theorem isSpace_iff (c : CodePoint) : c.is ' ' = true ↔ c = CodePoint.ofChar ' ' := by
  rw [CodePoint.is, beq_iff_eq, CodePoint.mk.injEq]
  rfl

theorem rdropWhile_congr {α : Type} {p q : α → Bool} {l : List α} (h : ∀ a ∈ l, p a = q a) :
    l.rdropWhile p = l.rdropWhile q := by
  induction l using List.reverseRecOn with
  | nil => rfl
  | append_singleton l a ih =>
    rw [List.forall_mem_append, List.forall_mem_singleton] at h
    rw [List.rdropWhile_concat, List.rdropWhile_concat, h.2, ih h.1]

namespace Text

theorem not_of_head_stripWhere {p : CodePoint → Bool} {t : Text} (hne : t.stripWhere p ≠ []) :
    p ((t.stripWhere p).head hne) = false := by
  have hpre : t.stripWhere p <+: t.dropWhile p := List.rdropWhile_prefix _ _
  rw [hpre.head]
  exact List.head_dropWhile_not _ _

theorem not_of_getLast_stripWhere {p : CodePoint → Bool} {t : Text} (hne : t.stripWhere p ≠ []) :
    p ((t.stripWhere p).getLast hne) = false :=
  Bool.eq_false_iff.mpr (List.rdropWhile_last_not _ _ hne)

/-- A text that begins with no blank is trimmed at its end only. -/
theorem stripWhere_of_head {p : CodePoint → Bool} {t : Text} (hne : t ≠ []) (h : p (t.head hne) = false) :
    t.stripWhere p = t.rdropWhile p := by
  have hfront : t.dropWhile p = t := by
    obtain ⟨c, rest, rfl⟩ := List.exists_cons_of_ne_nil hne
    exact List.dropWhile_cons_of_neg (Bool.eq_false_iff.mp h)
  show (t.dropWhile p).rdropWhile p = t.rdropWhile p
  rw [hfront]

theorem stripWhere_stripWhere (p : CodePoint → Bool) (t : Text) :
    (t.stripWhere p).stripWhere p = t.stripWhere p := by
  by_cases hne : t.stripWhere p = []
  · rw [hne]
    rfl
  · rw [stripWhere_of_head hne (not_of_head_stripWhere hne)]
    exact List.rdropWhile_idempotent _ _

end Text

/-! ## Names that are built -/

/-- `t` is a file name, and as much of `trimmed` as is kept, with illegal code points replaced. -/
structure IsBuiltOf (asciiOnly : Bool) (limits : Limits) (trimmed t : Text) : Prop where
  fileName : IsFileName asciiOnly limits t
  eq_map : t = (trimmed.take t.length).map (legalPoint asciiOnly)

section
variable {asciiOnly : Bool} {limits : Limits}

/-- A text without a separator is one component, and is cut as such. -/
theorem exists_fitInner_of_pathOfParts {kept : Text} (hnosep : limits.separator ∉ kept.encode) {path : Name}
    (h : (pathOfParts none (.text kept) none limits).result = .ok path) :
    ∃ t, path = .text t ∧ t.encode = fitInner limits.maxComponent kept.encode ∧
      t.encode.length < limits.maxPath ∧ kept ≠ [] := by
  obtain ⟨hacc, fitted, hfit, hlt, hname⟩ := acceptable_of_pathOfParts h
  obtain ⟨name, hname', hbytes, hform⟩ := exists_withBytes_of_fitComponents hacc hfit
  obtain rfl : name = path := Except.ok.inj (hname'.symm.trans hname)
  cases name with
  | bytes b => exact hform.elim
  | text t =>
    have hall : t.encode = fitAll limits.separator limits.maxComponent kept.encode := (fitAll_of_pathOfParts h).2.2
    rw [fitAll, splitOn_of_not_mem hnosep, List.map_singleton, List.intercalate_singleton] at hall
    rw [← hbytes] at hlt
    exact ⟨t, rfl, hall, hlt, fun hnil => hacc.named (Text.encode_eq_nil_iff.mpr hnil)⟩

/-- **What is built of a text alone** is a front of the trimmed text, code point by code point. -/
theorem exists_isBuiltOf (hsep : isIllegal asciiOnly limits.separator.toNat = true)
    (hfour : 4 ≤ limits.maxComponent) {raw : Text} {path : Name}
    (h : (pathOfRawName (.text raw) none none asciiOnly limits).result = .ok path) :
    ∃ t, path = .text t ∧ IsBuiltOf asciiOnly limits (raw.stripWhere CodePoint.isAsciiBlank) t := by
  rw [result_pathOfRawName, Name.trim, result_sanitize_text] at h
  generalize raw.stripWhere CodePoint.isAsciiBlank = trimmed at h ⊢
  obtain ⟨kept, hkept⟩ : ∃ kept : Text, kept = trimmed.plainFront.map (legalPoint asciiOnly) := ⟨_, rfl⟩
  have hplain : ∀ c ∈ kept, ¬c.IsSurrogate := by
    rw [hkept, List.forall_mem_map]
    exact fun c hc => not_isSurrogate_legalPoint asciiOnly (Text.not_isSurrogate_of_mem_plainFront hc)
  have hlegal : ∀ c ∈ kept, isIllegal asciiOnly c.val = false := by
    rw [hkept, List.forall_mem_map]
    exact fun c _ => isIllegal_legalPoint asciiOnly c
  have hnosep : limits.separator ∉ kept.encode := by
    rw [hkept, ← sanitizeBytes_encode]
    exact not_mem_sanitizeBytes asciiOnly _ limits.separator_ascii hsep
  rw [← hkept] at h
  obtain ⟨t, rfl, hcut, hlt, hne⟩ := exists_fitInner_of_pathOfParts hnosep h
  have hpre : t <+: kept := by
    apply Text.isPrefix_of_encode
    rw [hcut]
    exact isPrefix_fitInner _ _
  refine ⟨t, rfl, ⟨?_, ?_, ?_, ?_, hlt⟩, ?_⟩
  · rw [ne_eq, ← Text.encode_eq_nil_iff, hcut,
      fitInner_eq_nil_iff_of_four_le (kept.wellFormed_encode_iff.mpr hplain) hfour, Text.encode_eq_nil_iff]
    exact hne
  · exact fun c hc => hplain c (hpre.subset hc)
  · exact fun c hc => hlegal c (hpre.subset hc)
  · rw [hcut]
    exact length_fitInner_le _ _
  · -- a front of what is read of the name is a front of the name
    have hlen : t.length ≤ trimmed.plainFront.length := by
      have hle := hpre.length_le
      rwa [hkept, List.length_map] at hle
    have hfront : trimmed.plainFront = trimmed.take trimmed.plainFront.length :=
      List.prefix_iff_eq_take.mp (List.takeWhile_prefix _)
    calc t = kept.take t.length := List.prefix_iff_eq_take.mp hpre
      _ = (trimmed.plainFront.take t.length).map (legalPoint asciiOnly) := by rw [hkept, List.map_take]
      _ = (trimmed.take t.length).map (legalPoint asciiOnly) := by
        rw [hfront, List.take_take, Nat.min_eq_left hlen]

namespace IsBuiltOf

variable {trimmed t : Text}

theorem trimmed_ne_nil (h : IsBuiltOf asciiOnly limits trimmed t) : trimmed ≠ [] := by
  rintro rfl
  have hmap := h.eq_map
  rw [List.take_nil, List.map_nil] at hmap
  exact h.fileName.named hmap

/-- Only a space comes out as a blank, so what is built of a trimmed name does not begin with one. -/
theorem not_of_head (h : IsBuiltOf asciiOnly limits trimmed t)
    (hhead : (trimmed.head h.trimmed_ne_nil).isAsciiBlank = false) :
    (t.head h.fileName.named).isAsciiBlank = false := by
  obtain ⟨c, rest, rfl⟩ := List.exists_cons_of_ne_nil h.fileName.named
  obtain ⟨d, others, rfl⟩ := List.exists_cons_of_ne_nil h.trimmed_ne_nil
  have hc : c = legalPoint asciiOnly d := by
    have hmap := h.eq_map
    rw [List.length_cons, List.take_succ_cons, List.map_cons] at hmap
    exact (List.cons.inj hmap).1
  rw [List.head_cons, isAsciiBlank_of_legal (h.fileName.legal c List.mem_cons_self), Bool.eq_false_iff, ne_eq,
    isSpace_iff, hc, legalPoint_eq_space_iff]
  rintro rfl
  cases hhead

/-- It is trimmed by taking spaces off its end. -/
theorem stripWhere_eq (h : IsBuiltOf asciiOnly limits trimmed t)
    (hhead : (trimmed.head h.trimmed_ne_nil).isAsciiBlank = false) :
    t.stripWhere CodePoint.isAsciiBlank = t.rdropWhile (·.is ' ') := by
  rw [Text.stripWhere_of_head h.fileName.named (h.not_of_head hhead)]
  exact rdropWhile_congr fun c hc => isAsciiBlank_of_legal (h.fileName.legal c hc)

theorem fileName_stripWhere (h : IsBuiltOf asciiOnly limits trimmed t)
    (hhead : (trimmed.head h.trimmed_ne_nil).isAsciiBlank = false) :
    IsFileName asciiOnly limits (t.stripWhere CodePoint.isAsciiBlank) := by
  apply h.fileName.of_isPrefix
  · rw [h.stripWhere_eq hhead]
    exact List.rdropWhile_prefix _ _
  · intro hnil
    rw [Text.stripWhere_of_head h.fileName.named (h.not_of_head hhead), List.rdropWhile_eq_nil_iff] at hnil
    exact absurd (hnil _ (List.head_mem _)) (Bool.eq_false_iff.mp (h.not_of_head hhead))

/-- It ends in a space exactly if the name goes on behind that space. -/
theorem getLast?_eq_space_iff (h : IsBuiltOf asciiOnly limits trimmed t)
    (hlast : (trimmed.getLast h.trimmed_ne_nil).isAsciiBlank = false) :
    t.getLast? = some (CodePoint.ofChar ' ') ↔
      t.length < trimmed.length ∧ (trimmed.take t.length).getLast? = some (CodePoint.ofChar ' ') := by
  have hsame : t.getLast? = some (CodePoint.ofChar ' ') ↔
      (trimmed.take t.length).getLast? = some (CodePoint.ofChar ' ') := by
    rw [h.eq_map, List.getLast?_map, ← h.eq_map, Option.map_eq_some_iff]
    simp only [legalPoint_eq_space_iff, exists_eq_right]
  rw [hsame, iff_and_self]
  intro hspace
  by_contra hwhole
  rw [List.take_of_length_le (Nat.le_of_not_lt hwhole), List.getLast?_eq_some_getLast h.trimmed_ne_nil] at hspace
  rw [Option.some.inj hspace] at hlast
  cases hlast

end IsBuiltOf

end

/-- **A built name is stable but for spaces at its end.**  From four bytes for a component on, what is built of
a raw text alone is a file name that sanitizing and cutting leave as it is.  Built again it loses the spaces at
its end, and nothing else, and after that it stays as it is; so it is built of itself exactly if it does not end
in a space.  It does if the trimmed name was cut behind a space, and not otherwise. -/
theorem pathOfRawName_again (raw : Text) (asciiOnly : Bool) (limits : Limits) (hsep : limits.separator = 0x2F)
    (hfour : 4 ≤ limits.maxComponent) {path : Name}
    (h : (pathOfRawName (.text raw) none none asciiOnly limits).result = .ok path) :
    ∃ t : Text, path = .text t ∧
      let trimmed := raw.stripWhere CodePoint.isAsciiBlank
      let settled := t.rdropWhile (·.is ' ')
      t = (trimmed.take t.length).map (legalPoint asciiOnly) ∧
        (path.sanitize asciiOnly).result = .ok path ∧
        (pathOfParts none path none limits).result = .ok path ∧
        settled ≠ [] ∧
        (pathOfRawName path none none asciiOnly limits).result = .ok (.text settled) ∧
        (pathOfRawName (.text settled) none none asciiOnly limits).result = .ok (.text settled) ∧
        ((pathOfRawName path none none asciiOnly limits).result = .ok path ↔
          t.getLast? ≠ some (CodePoint.ofChar ' ')) ∧
        (t.getLast? = some (CodePoint.ofChar ' ') ↔
          t.length < trimmed.length ∧ (trimmed.take t.length).getLast? = some (CodePoint.ofChar ' ')) := by
  have hillegal : isIllegal asciiOnly limits.separator.toNat = true := by
    rw [hsep]
    cases asciiOnly <;> decide
  obtain ⟨t, rfl, hbuilt⟩ := exists_isBuiltOf hillegal hfour h
  have hhead := Text.not_of_head_stripWhere hbuilt.trimmed_ne_nil
  have hlast := Text.not_of_getLast_stripWhere hbuilt.trimmed_ne_nil
  have hsettled := hbuilt.fileName_stripWhere hhead
  have hagain := hsettled.pathOfRawName hillegal
  have hstays : (pathOfRawName (.text (t.stripWhere CodePoint.isAsciiBlank)) none none asciiOnly limits).result =
      .ok (.text (t.stripWhere CodePoint.isAsciiBlank)) := by
    have hsame := Text.stripWhere_stripWhere CodePoint.isAsciiBlank t
    have hbuiltAgain :
        (pathOfRawName (.text (t.stripWhere CodePoint.isAsciiBlank)) none none asciiOnly limits).result =
          .ok (.text ((t.stripWhere CodePoint.isAsciiBlank).stripWhere CodePoint.isAsciiBlank)) :=
      IsFileName.pathOfRawName (hsame.symm ▸ hsettled) hillegal
    rwa [hsame] at hbuiltAgain
  rw [hbuilt.stripWhere_eq hhead] at hsettled hagain hstays
  refine ⟨t, rfl, hbuilt.eq_map, hbuilt.fileName.sanitize, hbuilt.fileName.pathOfParts hillegal, hsettled.named,
    hagain, hstays, ?_, hbuilt.getLast?_eq_space_iff hlast⟩
  rw [hagain, Except.ok.injEq, Name.text.injEq, List.rdropWhile_eq_self_iff]
  simp only [isSpace_iff, List.getLast?_eq_some_getLast hbuilt.fileName.named, ne_eq, Option.some.injEq,
    hbuilt.fileName.named, not_false_eq_true, forall_true_left]

/-- A name of which the limit keeps six bytes, the last of them a space. -/
theorem pathOfRawName_again_cut :
    let limits : Limits := { Limits.default with maxComponent := 6, maxComponent_pos := by decide }
    limits.separator = 0x2F ∧ 4 ≤ limits.maxComponent ∧
      (pathOfRawName (.text " é b: €") none none false limits).result = .ok (.text "é b_ ") ∧
      (pathOfRawName (.text "é b_ ") none none false limits).result = .ok (.text "é b_") ∧
      (pathOfRawName (.text "é b_") none none false limits).result = .ok (.text "é b_") := by
  intro limits
  have hfour : 4 ≤ limits.maxComponent := by decide
  have hrun : (pathOfRawName (.text " é b: €") none none false limits).result = .ok (.text "é b_ ") := by
    decide +kernel
  obtain ⟨t, ht, -, -, -, -, hagain, hstays, -, -⟩ := pathOfRawName_again _ _ limits rfl hfour hrun
  obtain rfl := Name.text.inj ht
  exact ⟨rfl, hfour, hrun, hagain, hstays⟩

/-- Built names lose a space when they are built again: behind it, a name was cut at a surrogate, or by a limit of
four bytes. -/
theorem exists_pathOfRawName_unstable :
    (Limits.default.separator = 0x2F ∧ 4 ≤ Limits.default.maxComponent ∧
      (pathOfRawName (.text (("abc " : Text) ++ [⟨0xD800, by decide⟩])) none none false Limits.default).result =
        .ok (.text "abc ") ∧
      (pathOfRawName (.text "abc ") none none false Limits.default).result = .ok (.text "abc")) ∧
    (pathOfRawName (.text "abc def") none none false
        { Limits.default with maxComponent := 4, maxComponent_pos := by decide }).result = .ok (.text "abc ") ∧
      (pathOfRawName (.text "abc ") none none false
        { Limits.default with maxComponent := 4, maxComponent_pos := by decide }).result = .ok (.text "abc") := by
  refine ⟨⟨rfl, ?_, ?_, ?_⟩, ?_, ?_⟩
  all_goals decide +kernel

end SafePath
