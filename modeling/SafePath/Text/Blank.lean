import SafePath.Text.Basic

/-!
# Blank code points

Two sets of blanks.  `isBlank` is Unicode white space together with the four separators `0x1C` to
`0x1F`: it decides which lines of a names file are blank and what may stand around a number.
`isAsciiBlank` holds the six ASCII characters that are trimmed from a raw name; each of them is
blank in the first sense too.
-/

namespace SafePath

namespace CodePoint

/-- White space in the sense of Unicode, or one of the separators `0x1C` to `0x1F`. -/
def isBlank (c : CodePoint) : Bool :=
  let v := c.val
  (0x09 ≤ v && v ≤ 0x0D) || (0x1C ≤ v && v ≤ 0x20) || v == 0x85 || v == 0xA0 || v == 0x1680
    || (0x2000 ≤ v && v ≤ 0x200A) || v == 0x2028 || v == 0x2029 || v == 0x202F || v == 0x205F
    || v == 0x3000

/-- The space and the five controls from tab to carriage return. -/
def isAsciiBlank (c : CodePoint) : Bool := c.val == 0x20 || (0x09 ≤ c.val && c.val ≤ 0x0D)

theorem isBlank_of_isAsciiBlank {c : CodePoint} (h : c.isAsciiBlank = true) : c.isBlank = true := by
  simp only [isAsciiBlank, isBlank, Bool.or_eq_true, Bool.and_eq_true, beq_iff_eq,
    decide_eq_true_eq] at h ⊢
  omega

end CodePoint

namespace Text

def isAllBlank (t : Text) : Bool := t.all CodePoint.isBlank

end Text

end SafePath
