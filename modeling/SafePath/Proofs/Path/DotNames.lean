import SafePath.Config.Settings
import SafePath.Proofs.Path.Confinement
import SafePath.Proofs.Path.Remains

/-!
# Raw names that come out as dots

Two names do not name a file: a dot, which is the directory itself, and two dots, which are the one above
it.  A dot is an allowed code point, and no step looks at a name as a whole, so a raw name can come out as
either (`exists_pathOfRawName_dotName`).

    name ++ extension is a dot name exactly if the extension is empty and the name is a dot
      name, or the extension is a dot and the name empty or a dot, or the extension is two
      dots and the name empty                                       (isDotName_append_iff)
    a sanitized name is a dot name exactly if it was one             (isDotName_sanitizeBytes_iff)

A component that is cut has at most six bytes less than the limit, so from nine bytes on no cut makes a
dot name of another name (`isDotName_nameLeft_append_iff`).
-/

namespace SafePath

namespace Path

def dot : UInt8 := 0x2E

/-- A component that stands for its own directory or for the one above it. -/
def IsDotName (c : Bytes) : Prop := c = [dot] ∨ c = [dot, dot]

instance : DecidablePred IsDotName := fun c => by
  unfold IsDotName
  infer_instance

theorem IsDotName.length_le {c : Bytes} (h : IsDotName c) : c.length ≤ 2 := by
  rcases h with rfl | rfl
  · decide
  · decide

theorem isDotName_append_iff (name extension : Bytes) :
    IsDotName (name ++ extension) ↔
      (extension = [] ∧ IsDotName name) ∨ (extension = [dot] ∧ (name = [] ∨ name = [dot])) ∨
        (extension = [dot, dot] ∧ name = []) := by
  unfold IsDotName
  rcases name with - | ⟨a, - | ⟨b, name⟩⟩
  · simp
  · simp [and_comm]
  · simp [and_left_comm, and_comm]

/-- From nine bytes on, no cut makes a dot name of another name. -/
theorem isDotName_nameLeft_append_iff {budget : Nat} {name extension : Bytes}
    (h : Utf8.WellFormed (name ++ extension)) (hname : Utf8.WellFormed name)
    (hroom : HasRoom budget name extension) (hnine : 9 ≤ budget) :
    IsDotName (nameLeft budget name extension ++ extension) ↔ IsDotName (name ++ extension) := by
  by_cases hlong : budget < (name ++ extension).length
  · have hleft := le_length_nameLeft_append h hname hroom hlong
    constructor
    · intro hdots
      have := hdots.length_le
      omega
    · intro hdots
      have := hdots.length_le
      omega
  · rw [nameLeft_of_le (Nat.le_of_not_lt hlong)]

end Path

/-! ## Dots in a raw name -/

open SafePath.Path

/-- Only the replacement comes of more than one code point. -/
theorem legalValue_eq_iff {asciiOnly : Bool} {value legal : Nat} (hne : legal ≠ 0x5F)
    (hlegal : isIllegal asciiOnly legal = false) : legalValue asciiOnly value = legal ↔ value = legal := by
  unfold legalValue
  constructor
  · intro h
    split at h
    · exact absurd h.symm hne
    · exact h
  · rintro rfl
    rw [hlegal]
    rfl

theorem isIllegal_dot (asciiOnly : Bool) : isIllegal asciiOnly (0x2E : Nat) = false := by
  cases asciiOnly <;> decide

theorem flatMap_replicate_dot (n : Nat) :
    (List.replicate n 0x2E).flatMap Utf8.encodeValue = List.replicate n dot := by
  have hone : Utf8.encodeValue 0x2E = [dot] := rfl
  rw [List.flatMap_replicate, hone, List.flatten_replicate_singleton]

theorem values_replicate_dot (n : Nat) :
    Utf8.values (List.replicate n dot) = List.replicate n 0x2E := by
  rw [← flatMap_replicate_dot]
  apply Utf8.values_flatMap
  intro v hv
  rw [List.eq_of_mem_replicate hv]
  decide

/-- Sanitizing makes dots of dots only. -/
theorem sanitizeBytes_eq_dots_iff (asciiOnly : Bool) (data : Bytes) (n : Nat) :
    sanitizeBytes asciiOnly data = List.replicate n dot ↔
      Utf8.values data = List.replicate n 0x2E := by
  have hmap : (Utf8.values data).map (legalValue asciiOnly) = List.replicate n 0x2E ↔
      Utf8.values data = List.replicate n 0x2E := by
    rw [List.eq_replicate_iff, List.eq_replicate_iff, List.length_map, List.forall_mem_map]
    simp only [legalValue_eq_iff (by decide) (isIllegal_dot asciiOnly)]
  rw [← hmap, ← values_sanitizeBytes]
  constructor
  · intro h
    rw [h, values_replicate_dot]
  · intro h
    rw [← (wellFormed_sanitizeBytes asciiOnly data).flatMap_values, h, flatMap_replicate_dot]

/-- A sanitized name is a dot name exactly if it was one, up to where it stops being UTF-8. -/
theorem isDotName_sanitizeBytes_iff (asciiOnly : Bool) (data : Bytes) :
    IsDotName (sanitizeBytes asciiOnly data) ↔
      Utf8.values data = [0x2E] ∨ Utf8.values data = [0x2E, 0x2E] :=
  or_congr (sanitizeBytes_eq_dots_iff asciiOnly data 1) (sanitizeBytes_eq_dots_iff asciiOnly data 2)

section
variable {raw : Name} {leading extension : Option Name} {asciiOnly : Bool} {limits : Limits}

/-- The parts and the components behind the path of a raw name. -/
theorem fitComponents_of_pathOfRawName (hsep : isIllegal asciiOnly limits.separator.toNat = true)
    {path : Name} (h : (pathOfRawName raw leading extension asciiOnly limits).result = .ok path) :
    ∃ file, (raw.trim.sanitize asciiOnly).result = .ok file ∧
      file.toBytes = sanitizeBytes asciiOnly raw.trim.toBytes ∧
      Acceptable limits.separator (partBytes leading) file.toBytes (partBytes extension) ∧
      lastComponent limits.separator
          (assemble limits.separator (partBytes leading) file.toBytes (partBytes extension)) =
        file.toBytes ++ partBytes extension ∧
      fitComponents limits.separator limits.maxComponent (partBytes extension)
        (assemble limits.separator (partBytes leading) file.toBytes (partBytes extension)) =
          .ok path.toBytes := by
  obtain ⟨file, hfile, hbytes, -⟩ := raw.trim.exists_sanitize asciiOnly
  rw [result_pathOfRawName, hfile] at h
  obtain ⟨hacc, hfit⟩ := fitComponents_of_pathOfParts h
  have hnosep : limits.separator ∉ file.toBytes := by
    rw [hbytes]
    exact not_mem_sanitizeBytes asciiOnly _ limits.separator_ascii hsep
  have hlast := lastComponent_assemble hacc.noSeparator (partBytes leading) file.toBytes
  rw [lastComponent_of_not_mem hnosep] at hlast
  exact ⟨file, hfile, hbytes, hacc, hlast, hfit⟩

end

/-- **When a raw name comes out as dots.**  The last component is what is left of the sanitized name in
front of the extension, and a dot name exactly if these two make one.  With a limit of nine bytes or more,
that is so exactly for a raw name that is itself a dot name without an extension, or a dot with a dot for
its extension. -/
theorem pathOfRawName_dotName_iff (raw : Name) (leading extension : Option Name) (asciiOnly : Bool)
    (limits : Limits) (hsep : limits.separator = 0x2F) {path : Name}
    (h : (pathOfRawName raw leading extension asciiOnly limits).result = .ok path) :
    ∃ file, (raw.trim.sanitize asciiOnly).result = .ok file ∧
      let last := lastComponent limits.separator path.toBytes
      let left := nameLeft limits.maxComponent file.toBytes (partBytes extension)
      let read := Utf8.values raw.trim.toBytes
      last = left ++ partBytes extension ∧
        (IsDotName last ↔
          (partBytes extension = [] ∧ IsDotName left) ∨
            (partBytes extension = [dot] ∧ (left = [] ∨ left = [dot])) ∨
              (partBytes extension = [dot, dot] ∧ left = [])) ∧
        (9 ≤ limits.maxComponent →
          (IsDotName last ↔
            (partBytes extension = [] ∧ (read = [0x2E] ∨ read = [0x2E, 0x2E])) ∨
              (partBytes extension = [dot] ∧ read = [0x2E]))) := by
  have hillegal : isIllegal asciiOnly limits.separator.toNat = true := by
    rw [hsep]
    cases asciiOnly <;> decide
  obtain ⟨file, hfile, hbytes, hacc, hlast, hfit⟩ := fitComponents_of_pathOfRawName hillegal h
  have hroom := (splitOn_of_fitComponents hlast hfit).1
  have hwf := wellFormed_of_sanitize raw asciiOnly hbytes
  have hext := (wellFormed_of_closed (closed_of_wellFormed hwf) hacc).2
  have hend := lastComponent_of_fitComponents hlast hfit
  refine ⟨file, hfile, hend, ?_, fun hnine => ?_⟩
  · rw [hend]
    exact isDotName_append_iff _ _
  · have hone := sanitizeBytes_eq_dots_iff asciiOnly raw.trim.toBytes 1
    simp only [List.replicate_one] at hone
    rw [hend, isDotName_nameLeft_append_iff (hwf.append hext) hwf hroom hnine, isDotName_append_iff,
      ← isDotName_sanitizeBytes_iff asciiOnly, ← hone, ← hbytes]
    simp only [hacc.named, false_or, and_false, or_false]

/-- A name of dots between blanks, with an invalid byte behind it. -/
theorem pathOfRawName_dotName_iff_climbing :
    Limits.default.separator = 0x2F ∧
      (pathOfRawName (.bytes [0x20, 0x2E, 0x2E, 0xFF]) (some (.text "out")) none false
        Limits.default).result = .ok (.bytes [0x6F, 0x75, 0x74, 0x2F, 0x2E, 0x2E]) ∧
      IsDotName (lastComponent 0x2F [0x6F, 0x75, 0x74, 0x2F, 0x2E, 0x2E]) := by
  have hrun : (pathOfRawName (.bytes [0x20, 0x2E, 0x2E, 0xFF]) (some (.text "out")) none false
      Limits.default).result = .ok (.bytes [0x6F, 0x75, 0x74, 0x2F, 0x2E, 0x2E]) := by
    decide +kernel
  obtain ⟨-, -, -, -, hnine⟩ := pathOfRawName_dotName_iff _ _ _ _ _ rfl hrun
  exact ⟨rfl, hrun, (hnine (by decide)).mpr (Or.inl ⟨rfl, Or.inr (by decide +kernel)⟩)⟩

/-- Raw names come out as dots: as they are, in front of an extension that may be set, and by a cut. -/
theorem exists_pathOfRawName_dotName :
    ((Config.Settings.withExtension none).validate Limits.default.separatorText = .ok () ∧
      (pathOfRawName (.text "..") (some (.text "sd:/out")) none false Limits.default).result =
        .ok (.text "sd:/out/..") ∧
      IsDotName (lastComponent 0x2F (Text.encode "sd:/out/.."))) ∧
    ((Config.Settings.withExtension (some ".")).validate Limits.default.separatorText = .ok () ∧
      (pathOfRawName (.text ".") (some (.text "sd:/out")) (some (.text ".")) false
        Limits.default).result = .ok (.text "sd:/out/..") ∧
      IsDotName (lastComponent 0x2F (Text.encode "sd:/out/.."))) ∧
    ((pathOfRawName (.text ".€") (some (.text "out")) none false
        { Limits.default with maxComponent := 3, maxComponent_pos := by decide }).result =
          .ok (.text "out/.") ∧
      IsDotName (lastComponent 0x2F (Text.encode "out/."))) := by
  refine ⟨⟨rfl, ?_, ?_⟩, ⟨rfl, ?_, ?_⟩, ?_, ?_⟩
  all_goals decide +kernel

end SafePath
