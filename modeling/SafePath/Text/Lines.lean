import SafePath.Text.Basic

/-!
# Lines

A line ends at a line feed, at a carriage return, or at the two together in that order; nothing else
ends a line.  `cutLines` is stated for any alphabet with those two symbols, so that it cuts bytes and
text alike.  A terminator ends a line and starts none: there is no empty line after the last one.
-/

namespace SafePath

/-- What follows a carriage return: the line feed right behind it belongs to the same terminator. -/
def afterReturn {α : Type} [DecidableEq α] (lf : α) (rest : List α) : List α :=
  if rest.head? = some lf then rest.tail else rest

theorem length_afterReturn_le {α : Type} [DecidableEq α] (lf : α) (rest : List α) :
    (afterReturn lf rest).length ≤ rest.length := by
  unfold afterReturn
  split
  · simp
  · exact Nat.le_refl _

/-- The lines of a sequence, without their terminators. -/
def cutLines {α : Type} [DecidableEq α] (cr lf : α) : List α → List (List α)
  | [] => []
  | c :: rest =>
    if c = lf then [] :: cutLines cr lf rest
    else if c = cr then [] :: cutLines cr lf (afterReturn lf rest)
    else
      match cutLines cr lf rest with
      | [] => [[c]]
      | line :: lines => (c :: line) :: lines
termination_by s => s.length
decreasing_by
  · simp
  · have := length_afterReturn_le lf rest; simp only [List.length_cons]; omega
  · simp

namespace Text

def lines (t : Text) : List Text := cutLines (CodePoint.ofChar '\r') (CodePoint.ofChar '\n') t

/-- Lines as a text, a line feed behind each. -/
def ofLines (lines : List Text) : Text := lines.flatMap fun line => line ++ [CodePoint.ofChar '\n']

end Text

end SafePath
