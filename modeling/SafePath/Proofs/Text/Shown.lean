import SafePath.Number.Binary64
import SafePath.Text.Quoted

/-!
# Text that is safe to show

A text is shown as it is if all of its code points are printable (`IsShown`).  No printable code point is a
control, so a text that is shown stays on its line and changes nothing on a terminal.  Fixed wording is
shown, numerals are, and quoting makes any text shown (`isShown_quoted`): surrogates, controls and line
separators come out as escapes, whichever quote is in use.
-/

namespace SafePath

namespace CodePoint

/-- A control: line feed, carriage return, escape and their like, DEL, and the second set from `0x80` on. -/
def IsControl (c : CodePoint) : Prop := c.val < 0x20 ∨ (0x7F ≤ c.val ∧ c.val < 0xA0)

/-- The runs of printable code points leave the controls out. -/
theorem printableRuns_bounds : ∀ run ∈ printableRuns, 0x20 ≤ run.1 ∧ (run.2 < 0x7F ∨ 0xA0 ≤ run.1) := by
  decide +kernel

theorem not_isControl_of_isPrintable {c : CodePoint} (h : c.isPrintable = true) : ¬c.IsControl := by
  unfold isPrintable at h
  obtain ⟨run, hrun, hc⟩ := List.any_eq_true.mp h
  simp only [Bool.and_eq_true, decide_eq_true_eq] at hc
  have := printableRuns_bounds run hrun
  unfold IsControl
  omega

theorem printableRuns_surrogates : ∀ run ∈ printableRuns, run.2 < 0xD800 ∨ 0xDFFF < run.1 := by
  decide +kernel

theorem not_isSurrogate_of_isPrintable {c : CodePoint} (h : c.isPrintable = true) : ¬c.IsSurrogate := by
  unfold isPrintable at h
  obtain ⟨run, hrun, hc⟩ := List.any_eq_true.mp h
  simp only [Bool.and_eq_true, decide_eq_true_eq] at hc
  have := printableRuns_surrogates run hrun
  unfold IsSurrogate
  omega

theorem isPrintable_of_ascii {c : CodePoint} (hlow : 0x20 ≤ c.val) (hhigh : c.val ≤ 0x7E) :
    c.isPrintable = true := by
  unfold isPrintable
  exact List.any_eq_true.mpr ⟨(0x20, 0x7E), List.mem_cons_self, by simp [hlow, hhigh]⟩

end CodePoint

namespace Text

def IsShown (t : Text) : Prop := ∀ c ∈ t, c.isPrintable = true

instance (t : Text) : Decidable t.IsShown := by
  unfold IsShown
  infer_instance

theorem isShown_append_iff {a b : Text} : IsShown (a ++ b) ↔ a.IsShown ∧ b.IsShown := List.forall_mem_append

theorem isShown_cons_iff {c : CodePoint} {t : Text} : IsShown (c :: t) ↔ c.isPrintable = true ∧ t.IsShown :=
  List.forall_mem_cons

theorem IsShown.not_isControl {t : Text} (h : t.IsShown) : ∀ c ∈ t, ¬c.IsControl :=
  fun c hc => CodePoint.not_isControl_of_isPrintable (h c hc)

theorem IsShown.not_isSurrogate {t : Text} (h : t.IsShown) : ∀ c ∈ t, ¬c.IsSurrogate :=
  fun c hc => CodePoint.not_isSurrogate_of_isPrintable (h c hc)

end Text

/-! ## Numerals -/

namespace Numeral

open Text

theorem isShown_inBase {alphabet : List Char} (h : IsShown (('0' :: alphabet).map CodePoint.ofChar))
    (base n : Nat) : IsShown (inBase alphabet base n) := by
  unfold IsShown at h
  unfold inBase IsShown
  rw [List.forall_mem_map] at h ⊢
  intro d _
  apply h
  rw [List.getD_eq_getElem?_getD]
  cases hd : alphabet[d]? with
  | none => exact List.mem_cons_self
  | some k => exact List.mem_cons_of_mem _ (List.mem_of_getElem? hd)

theorem isShown_decimal (n : Nat) : (decimal n).IsShown := isShown_inBase (by decide) 10 n

theorem isShown_signed {written : Nat → Text} (h : ∀ n, (written n).IsShown) (n : Int) :
    (signed written n).IsShown := by
  unfold signed
  split
  · exact isShown_cons_iff.mpr ⟨by decide, h _⟩
  · exact h _

theorem isShown_signedDecimal (n : Int) : (signedDecimal n).IsShown := isShown_signed isShown_decimal n

theorem isShown_upperHex (n : Int) : (upperHex n).IsShown :=
  isShown_signed (isShown_inBase (by decide) 16) n

theorem isShown_padLeft {t : Text} (h : t.IsShown) (width : Nat) : (padLeft width t).IsShown := by
  unfold padLeft
  refine isShown_append_iff.mpr ⟨fun c hc => ?_, h⟩
  rw [List.eq_of_mem_replicate hc]
  decide

theorem isShown_lowerHex (width n : Nat) : (lowerHex width n).IsShown :=
  isShown_padLeft (isShown_inBase (by decide) 16 n) width

theorem isShown_withPlaces (places n : Nat) : (withPlaces places n).IsShown := by
  simp +decide only [withPlaces, isShown_append_iff, isShown_decimal, isShown_padLeft, and_self]

end Numeral

theorem Binary64.isShown_fixed (places : Nat) (x : Binary64) : (x.fixed places).IsShown := by
  cases x with
  | nan =>
    show Text.IsShown "nan"
    decide
  | infinite negative =>
    unfold fixed
    simp only
    split
    · decide
    · decide
  | finite negative m e =>
    unfold fixed
    simp only
    split
    · exact Text.isShown_cons_iff.mpr ⟨by decide, Numeral.isShown_withPlaces _ _⟩
    · exact Numeral.isShown_withPlaces _ _

/-! ## Quoted text -/

namespace Text

theorem isShown_numericEscape (c : CodePoint) : (numericEscape c).IsShown := by
  unfold numericEscape
  split
  · exact isShown_append_iff.mpr ⟨by decide, Numeral.isShown_lowerHex _ _⟩
  split
  · exact isShown_append_iff.mpr ⟨by decide, Numeral.isShown_lowerHex _ _⟩
  · exact isShown_append_iff.mpr ⟨by decide, Numeral.isShown_lowerHex _ _⟩

/-- Whatever stands between the quotes, its escape is shown. -/
theorem isShown_quotedPoint {quote : Char} (hquote : (CodePoint.ofChar quote).isPrintable = true)
    (c : CodePoint) : (quotedPoint quote c).IsShown := by
  unfold quotedPoint
  split
  · next h =>
    -- the quote and the backslash are printable themselves
    have hc : c.isPrintable = true := by
      rw [Bool.or_eq_true] at h
      unfold CodePoint.is at h
      rcases h with h | h
      · have hval : c.val = quote.toNat := eq_of_beq h
        rw [show c = CodePoint.ofChar quote from by cases c; simpa [CodePoint.ofChar] using hval]
        exact hquote
      · have hval : c.val = 0x5C := eq_of_beq h
        exact CodePoint.isPrintable_of_ascii (by omega) (by omega)
    exact isShown_cons_iff.mpr ⟨by decide, isShown_cons_iff.mpr ⟨hc, List.forall_mem_nil _⟩⟩
  split
  · decide
  split
  · decide
  split
  · decide
  split
  · next h => exact isShown_cons_iff.mpr ⟨h, List.forall_mem_nil _⟩
  · exact isShown_numericEscape c

/-- **Quoting makes every text safe to show.** -/
theorem isShown_quoted (t : Text) : t.quoted.IsShown := by
  have hquote : (CodePoint.ofChar t.quoteFor).isPrintable = true := by
    unfold quoteFor
    split
    · decide
    · decide
  have hends : IsShown [CodePoint.ofChar t.quoteFor] :=
    isShown_cons_iff.mpr ⟨hquote, List.forall_mem_nil _⟩
  unfold quoted
  refine isShown_append_iff.mpr ⟨isShown_append_iff.mpr ⟨hends, fun c hc => ?_⟩, hends⟩
  obtain ⟨d, -, hd⟩ := List.mem_flatMap.mp hc
  exact isShown_quotedPoint hquote d c hd

/-- A name that ends its line and starts another record, with a terminal's escape sequence and half of a
character. -/
example : Text.quoted (("x\nERROR: y\x1b[2J'" : Text) ++ [⟨0xDC80, by decide⟩]) =
    ("\"x\\nERROR: y\\x1b[2J'\\udc80\"" : Text) := by
  decide +kernel

end Text

end SafePath
