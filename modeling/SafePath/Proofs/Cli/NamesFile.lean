import Mathlib.Data.List.TakeWhile
import SafePath.Cli.NamesFile
import SafePath.Proofs.Text.Lines
import SafePath.Proofs.Utf8.Escaped

/-!
# A names file is read without loss

Bytes may be cut into lines before or after they are made text, since both terminators are ASCII
(`lines_decode`).  So the names are the lines of the file as bytes, less those that are blank or comments
(`namesOf_eq`), and each gives back the bytes of its line.  A blank line names nothing, and so two contents
may be read one after the other even where a carriage return and a line feed come together
(`namesOf_append`).
-/

namespace SafePath

theorem CodePoint.is_iff {c : CodePoint} {k : Char} : c.is k = true ↔ c = CodePoint.ofChar k := by
  rw [CodePoint.is, beq_iff_eq, CodePoint.mk.injEq]
  rfl

namespace Cli

open Utf8 (Escaped.decode Escaped.encode)

/-! ## Lines of bytes and lines of text -/

/-- The lines of the text are the lines of the bytes, each as text. -/
theorem linesOf_decode {content : Bytes} {lines : List Bytes} (h : LinesOf 0x0D 0x0A content lines) :
    LinesOf (CodePoint.ofByte 0x0D) (CodePoint.ofByte 0x0A) (Escaped.decode content)
      (lines.map Escaped.decode) := by
  have hunbroken : ∀ line : Bytes, Unbroken 0x0D 0x0A line →
      Unbroken (CodePoint.ofByte 0x0D) (CodePoint.ofByte 0x0A) (Escaped.decode line) := by
    rintro line ⟨hcr, hlf⟩
    exact ⟨fun hmem => hcr ((Utf8.Escaped.ofByte_mem_decode_iff (by decide) line).mp hmem),
      fun hmem => hlf ((Utf8.Escaped.ofByte_mem_decode_iff (by decide) line).mp hmem)⟩
  induction h with
  | nil =>
    rw [Utf8.Escaped.decode_nil]
    exact .nil
  | @unended line ne unbroken =>
    refine .unended (fun hnil => ne ?_) (hunbroken line unbroken)
    rw [← Utf8.Escaped.flatMap_encodePoint_decode line, hnil, List.flatMap_nil]
  | @feed line rest lines unbroken tail ih =>
    rw [Utf8.Escaped.decode_append_ascii_cons (by decide)]
    exact .feed (hunbroken line unbroken) ih
  | @returnFeed line rest lines unbroken tail ih =>
    rw [Utf8.Escaped.decode_append_ascii_cons (by decide), Utf8.Escaped.decode_cons_ascii (by decide)]
    exact .returnFeed (hunbroken line unbroken) ih
  | @loneReturn line rest lines unbroken lone tail ih =>
    rw [Utf8.Escaped.decode_append_ascii_cons (by decide)]
    refine .loneReturn (hunbroken line unbroken) (fun hfeed => lone ?_) ih
    exact (Utf8.Escaped.head?_decode_eq_ofByte_iff (by decide) rest).mp hfeed

theorem lines_decode (content : Bytes) :
    (Escaped.decode content).lines = (cutLines 0x0D 0x0A content).map Escaped.decode :=
  (linesOf_decode (linesOf_cutLines content)).cutLines_eq (by decide)

theorem namesOf_eq (content : Bytes) :
    namesOf content = ((cutLines 0x0D 0x0A content).map Escaped.decode).filter isNameLine := by
  rw [namesOf, lines_decode]

/-! ## Lines with a name -/

/-- `#` is the first character of the line that is not blank. -/
def IsComment (line : Text) : Prop :=
  ∃ blanks rest, line = blanks ++ CodePoint.ofChar '#' :: rest ∧ ∀ c ∈ blanks, c.isBlank = true

theorem isComment_iff (line : Text) :
    IsComment line ↔ (line.dropWhile CodePoint.isBlank).head?.any (·.is '#') = true := by
  rw [Option.any_eq_true]
  constructor
  · rintro ⟨blanks, rest, rfl, hblanks⟩
    refine ⟨CodePoint.ofChar '#', ?_, rfl⟩
    rw [List.dropWhile_append_of_pos hblanks]
    rfl
  · rintro ⟨c, hhead, hc⟩
    obtain ⟨rest, hrest⟩ := List.head?_eq_some_iff.mp hhead
    rw [CodePoint.is_iff.mp hc] at hrest
    refine ⟨line.takeWhile CodePoint.isBlank, rest, ?_, fun d hd => List.mem_takeWhile_imp hd⟩
    rw [← hrest, List.takeWhile_append_dropWhile]

theorem isNameLine_iff (line : Text) :
    isNameLine line = true ↔ (∃ c ∈ line, c.isBlank = false) ∧ ¬IsComment line := by
  rw [isComment_iff, isNameLine, Bool.and_eq_true, Bool.not_eq_true', Bool.not_eq_true', Text.isAllBlank,
    List.all_eq_false, Bool.not_eq_true]
  simp only [Bool.not_eq_true]

/-! ## Two contents -/

/-- **The names of two contents** are those of the first, which ends with its last line, and those of the second. -/
theorem namesOf_append {a : Bytes} (hended : Ended 0x0D 0x0A a) (b : Bytes) :
    namesOf (a ++ b) = namesOf a ++ namesOf b := by
  simp only [namesOf_eq]
  rcases cutLines_append (by decide) hended b with h | ⟨lines, hb, h⟩
  · rw [h, List.map_append, List.filter_append]
  · rw [h, hb, List.map_append, List.filter_append, List.map_cons, Utf8.Escaped.decode_nil,
      List.filter_cons_of_neg (by decide)]

/-! ## The file -/

/-- **A names file is read without loss.**  The names in a file that can be read are its lines as text, less
the blank ones and the comments; each gives back the bytes of its line; and two contents, the first of which
ends with its last line, have the names of both. -/
theorem readNames_without_loss :
    (∀ files path j content, (files (Log.Journal.begin "read_names_file" j)).read path = .ok content →
      (readNames files path j).1 = .ok (namesOf content)) ∧
    (∀ content, ∃ lines, (∀ lines', LinesOf 0x0D 0x0A content lines' ↔ lines' = lines) ∧
      namesOf content = (lines.map Escaped.decode).filter isNameLine ∧
      (namesOf content).map Escaped.encode =
        (lines.filter fun line => isNameLine (Escaped.decode line)).map .ok) ∧
    (∀ line, isNameLine line = true ↔ (∃ c ∈ line, c.isBlank = false) ∧ ¬IsComment line) ∧
    ∀ a b, Ended 0x0D 0x0A a → namesOf (a ++ b) = namesOf a ++ namesOf b := by
  refine ⟨?_, ?_, isNameLine_iff, fun a b hended => namesOf_append hended b⟩
  · intro files path j content hread
    simp only [readNames, Log.Journal.timed, hread]
    rfl
  · intro content
    refine ⟨cutLines 0x0D 0x0A content, fun lines => ?_, namesOf_eq content, ?_⟩
    · rw [linesOf_iff (by decide), eq_comm]
    · rw [namesOf_eq, List.filter_map, List.map_map]
      apply List.map_congr_left
      exact fun line _ => Utf8.Escaped.encode_decode line

/-- A carriage return and a line feed from two contents, behind a byte that is no text. -/
theorem readNames_without_loss_split_terminator :
    let first : Bytes := [0x78, 0xFF, 0x0D]
    let second : Bytes := [0x0A, 0x23, 0x0A, 0x79]
    let path := Files.FilePath.ofText "names.txt"
    let tree : Files.Tree := ⟨[], [(["names.txt"], .file (first ++ second))]⟩
    tree.read path = .ok (first ++ second) ∧ Ended 0x0D 0x0A first ∧
      (readNames (fun _ => tree) path ⟨[], 0, []⟩).1 = .ok (namesOf first ++ namesOf second) ∧
      namesOf (first ++ second) =
        [[CodePoint.ofByte 0x78, Utf8.Escaped.escapedByte 0xFF], [CodePoint.ofByte 0x79]] := by
  intro first second path tree
  obtain ⟨hnames, -, -, happend⟩ := readNames_without_loss
  have hread : tree.read path = .ok (first ++ second) := by decide +kernel
  have hended : Ended 0x0D 0x0A first := Or.inr (Or.inr rfl)
  refine ⟨hread, hended, ?_, by decide +kernel⟩
  rw [hnames (fun _ => tree) path ⟨[], 0, []⟩ (first ++ second) hread, happend first second hended]

end Cli

end SafePath
