import SafePath.Number.Binary64

/-!
# Quantities

A quantity of bytes is counted or measured: an integer, or a 64-bit floating point number.  Two
quantities are compared by their exact values.  A measured one that is no number has no place in the
order, so no comparison with it holds.

Counts of bytes are whole, so of a quantity that bounds them only one whole number matters: up to which
count it is not exceeded.
-/

namespace SafePath

/-- A number of bytes, counted or measured. -/
inductive Quantity
  | count (n : Int)
  | measure (x : Binary64)

namespace Quantity

/-- The quantity has a place in the order. -/
def isOrdered : Quantity → Bool
  | .measure .nan => false
  | _ => true

/-- On which side of all numbers an infinite quantity lies; zero for a finite one. -/
def side : Quantity → Int
  | .measure (.infinite negative) => if negative then -1 else 1
  | _ => 0

/-- A finite quantity as a numerator and a denominator. -/
def ratio : Quantity → Int × Nat
  | .count n => (n, 1)
  | .measure (.finite negative m e) =>
    let (num, den) := Binary64.magnitude m e
    (Binary64.withSign negative num, den)
  | .measure _ => (0, 1)

/-- The order of two quantities, if they have one. -/
def order? (x y : Quantity) : Option Ordering :=
  if x.isOrdered && y.isOrdered then
    if x.side = 0 ∧ y.side = 0 then
      some (compare (x.ratio.1 * y.ratio.2) (y.ratio.1 * x.ratio.2))
    else some (compare x.side y.side)
  else none

def isLess (x y : Quantity) : Bool := x.order? y == some .lt

def isEqual (x y : Quantity) : Bool := x.order? y == some .eq

def isAtMost (x y : Quantity) : Bool := x.isLess y || x.isEqual y

/-- How far the counts up to `most` go without exceeding `q`. -/
def countWithin (q : Quantity) (most : Nat) : Nat :=
  match q with
  | .measure .nan => most
  | .measure (.infinite negative) => if negative then 0 else most
  | finite => min most (finite.ratio.1 / (finite.ratio.2 : Int)).toNat

/-- The integer that the quantity equals. -/
def whole? : Quantity → Option Int
  | .count n => some n
  | .measure (.finite negative m e) =>
    let (num, den) := (Quantity.measure (.finite negative m e)).ratio
    if num % (den : Int) = 0 then some (num / (den : Int)) else none
  | .measure _ => none

end Quantity

end SafePath
