import SafePath.Path.Parts
import SafePath.Proofs.Path.Cascade
import SafePath.Proofs.Utf8.Text

/-!
# The parts of a path in one buffer

The directory with its separator (`folder`), the name and the extension stand one behind the other.
The separator keeps the directory apart from the name, whatever their bytes are; nothing keeps the name
apart from the extension.
-/

namespace SafePath.Path

/-- The directory as it stands in front of the name, with a separator at its end if it is not empty. -/
def folder (separator : UInt8) (leading : Bytes) : Bytes :=
  if leading = [] ∨ leading.getLast? = some separator then leading else leading ++ [separator]

/-- The parts that are taken: a name, no NUL, no separator in the extension, UTF-8 once they are
joined. -/
structure Acceptable (separator : UInt8) (leading file extension : Bytes) : Prop where
  named : file ≠ []
  leading_noNul : 0 ∉ leading
  file_noNul : 0 ∉ file
  extension_noNul : 0 ∉ extension
  noSeparator : separator ∉ extension
  wellFormed : Utf8.WellFormed (assemble separator leading file extension)

section
variable {separator : UInt8} {leading file extension : Bytes}

theorem acceptable_iff :
    Acceptable separator leading file extension ↔
      file ≠ [] ∧ 0 ∉ leading ∧ 0 ∉ file ∧ 0 ∉ extension ∧ separator ∉ extension ∧
        Utf8.WellFormed (assemble separator leading file extension) :=
  ⟨fun ⟨h1, h2, h3, h4, h5, h6⟩ => ⟨h1, h2, h3, h4, h5, h6⟩,
    fun ⟨h1, h2, h3, h4, h5, h6⟩ => ⟨h1, h2, h3, h4, h5, h6⟩⟩

instance : Decidable (Acceptable separator leading file extension) :=
  decidable_of_iff _ acceptable_iff.symm

theorem assemble_eq (separator : UInt8) (leading file extension : Bytes) :
    assemble separator leading file extension = folder separator leading ++ (file ++ extension) :=
  List.append_assoc _ _ _

theorem folder_cases (separator : UInt8) (leading : Bytes) :
    (leading = [] ∧ folder separator leading = []) ∨
      (leading ≠ [] ∧ ∃ d, folder separator leading = d ++ [separator]) := by
  unfold folder
  by_cases hnil : leading = []
  · exact Or.inl ⟨hnil, by rw [if_pos (Or.inl hnil), hnil]⟩
  · right
    refine ⟨hnil, ?_⟩
    split
    · next h =>
      obtain ⟨d, rfl⟩ := List.getLast?_eq_some_iff.mp (h.resolve_left hnil)
      exact ⟨d, rfl⟩
    · exact ⟨leading, rfl⟩

theorem count_folder (separator : UInt8) (leading : Bytes) :
    (folder separator leading).count separator =
      leading.count separator +
        if leading = [] ∨ leading.getLast? = some separator then 0 else 1 := by
  unfold folder
  split
  · rfl
  · rw [List.count_append, List.count_singleton_self]

theorem wellFormed_folder (hs : separator < 0x80) (h : Utf8.WellFormed leading) :
    Utf8.WellFormed (folder separator leading) := by
  unfold folder
  split
  · exact h
  · exact (Utf8.wellFormed_append_ascii_cons_iff hs leading []).mpr ⟨h, .nil⟩

/-- The directory is UTF-8 by itself, and so is what follows it. -/
theorem wellFormed_folder_append_iff (hs : separator < 0x80) (rest : Bytes) :
    Utf8.WellFormed (folder separator leading ++ rest) ↔
      Utf8.WellFormed (folder separator leading) ∧ Utf8.WellFormed rest := by
  rcases folder_cases separator leading with ⟨-, h⟩ | ⟨-, d, h⟩
  · rw [h, List.nil_append]
    exact ⟨fun hrest => ⟨.nil, hrest⟩, And.right⟩
  · have hd := Utf8.wellFormed_append_ascii_cons_iff hs d []
    rw [h, List.append_assoc, List.singleton_append, Utf8.wellFormed_append_ascii_cons_iff hs, hd]
    exact ⟨fun ⟨h1, h2⟩ => ⟨⟨h1, .nil⟩, h2⟩, fun ⟨h1, h2⟩ => ⟨h1.1, h2⟩⟩

/-- The extension belongs to the last component of the name. -/
theorem lastComponent_append (hext : separator ∉ extension) (file : Bytes) :
    lastComponent separator (file ++ extension) = lastComponent separator file ++ extension := by
  induction file using component_induction separator with
  | last c hc =>
    have hmem : separator ∉ c ++ extension := fun h => (List.mem_append.mp h).elim hc hext
    rw [lastComponent_of_not_mem hc, lastComponent_of_not_mem hmem]
  | inner c rest hc ih =>
    rw [List.append_assoc, List.cons_append, lastComponent_append_cons, ih, lastComponent_append_cons]

theorem lastComponent_assemble (hext : separator ∉ extension) (leading file : Bytes) :
    lastComponent separator (assemble separator leading file extension) =
      lastComponent separator file ++ extension := by
  rw [assemble_eq]
  rcases folder_cases separator leading with ⟨-, h⟩ | ⟨-, d, h⟩
  · rw [h, List.nil_append, lastComponent_append hext]
  · rw [h, List.append_assoc, List.singleton_append, lastComponent_append_cons,
      lastComponent_append hext]

/-- A NUL of the buffer can only be its separator. -/
theorem Acceptable.component_noNul (h : Acceptable separator leading file extension) :
    ∀ c ∈ (assemble separator leading file extension).splitOn separator, 0 ∉ c := by
  intro c hc hnul
  have hmem := mem_of_mem_splitOn hc hnul
  rw [assemble_eq, List.mem_append, List.mem_append] at hmem
  rcases hmem with hmem | hmem | hmem
  · unfold folder at hmem
    split at hmem
    · exact h.leading_noNul hmem
    rcases List.mem_append.mp hmem with hmem | hmem
    · exact h.leading_noNul hmem
    · rw [List.mem_singleton] at hmem
      exact not_mem_of_mem_splitOn hc (hmem ▸ hnul)
  · exact h.file_noNul hmem
  · exact h.extension_noNul hmem

theorem zero_mem_assemble_iff (h : Acceptable separator leading file extension) :
    0 ∈ assemble separator leading file extension ↔ separator = 0 ∧ leading ≠ [] := by
  rw [assemble_eq, List.mem_append, List.mem_append]
  simp only [h.file_noNul, h.extension_noNul, or_self, or_false]
  rcases folder_cases separator leading with ⟨hnil, hf⟩ | ⟨hne, d, hf⟩
  · rw [hf]
    simp [hnil]
  · simp only [hne, ne_eq, not_false_eq_true, and_true]
    constructor
    · intro hmem
      unfold folder at hmem
      split at hmem
      · exact absurd hmem h.leading_noNul
      · rcases List.mem_append.mp hmem with hmem | hmem
        · exact absurd hmem h.leading_noNul
        · exact (List.mem_singleton.mp hmem).symm
    · rintro rfl
      rw [hf]
      exact List.mem_append_right _ (List.mem_singleton_self 0)

end

end SafePath.Path
