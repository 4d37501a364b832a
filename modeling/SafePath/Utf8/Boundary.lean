import SafePath.Utf8.Scan

/-!
# UTF-8: where a byte string may be cut

`cutBelow` finds the last code point boundary that lies strictly below a budget; it is conservative:
a code point that ends exactly on the budget is left out, and so is all that follows a NUL.
`cutWithin` puts that code point back, and so gives the greatest boundary within the budget.

The measure of the walk is the number of bytes that are left.
-/

namespace SafePath.Utf8

/-- The last boundary below `budget` in front of the first NUL or malformed sequence. -/
def boundaryBelow (budget : Nat) (data : Bytes) : Nat :=
  match _h : scanHead data with
  | none => 0
  | some s =>
    if s.value ≠ 0 ∧ s.size < budget then
      s.size + boundaryBelow (budget - s.size) (data.drop s.size)
    else 0
termination_by data.length
decreasing_by
  have := scanHead_size _h
  simp only [List.length_drop]
  omega

/-- Where to cut the first `size` bytes of `data` so that less than `budget` bytes are kept; nothing
is cut off if all of them fit. -/
def cutBelow (data : Bytes) (size budget : Int) : Nat :=
  if data = [] ∨ size ≤ 0 ∨ budget ≤ 0 then 0
  else if size ≤ budget then size.toNat
  else boundaryBelow budget.toNat (data.take size.toNat)

/-- `cutBelow` for a whole byte string. -/
def cutPoint (data : Bytes) (budget : Int) : Nat := cutBelow data data.length budget

/-- Where to cut the first `size` bytes of `element` so that at most `budget` bytes are kept. -/
def cutWithin (element : Bytes) (size budget : Int) : Int :=
  if size ≤ budget then size
  else
    let boundary := cutBelow element size budget
    match scanAt element boundary (some size) with
    | some s => if s.value ≠ 0 ∧ (boundary : Int) + s.size = budget then budget else boundary
    | none => boundary

end SafePath.Utf8
