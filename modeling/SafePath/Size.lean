import SafePath.Number.Quantity

/-!
# Sizes for the reader

A byte count with two decimals and a binary unit: the largest of B, KiB, MiB, GiB and TiB that does
not exceed it.  The unit is chosen from the exact size, the number is rounded afterwards, so that a
size just below a unit can be shown as `1024.00` of the next smaller one.
-/

namespace SafePath

namespace Size

/-- The units, each 1024 times the one before. -/
inductive Scale
  | b
  | kib
  | mib
  | gib
  | tib
deriving DecidableEq

def Scale.all : List Scale := [.b, .kib, .mib, .gib, .tib]

/-- A unit is `1024 ^ power` bytes. -/
def Scale.power : Scale → Nat
  | .b => 0
  | .kib => 1
  | .mib => 2
  | .gib => 3
  | .tib => 4

def Scale.bytes (u : Scale) : Nat := Nat.pow 1024 u.power

def Scale.symbol : Scale → String
  | .b => "B"
  | .kib => "KiB"
  | .mib => "MiB"
  | .gib => "GiB"
  | .tib => "TiB"

/-- The first unit whose next larger one exceeds the size, or the largest unit. -/
def scaleWhere (isBelow : Nat → Bool) : Scale :=
  (([.b, .kib, .mib, .gib] : List Scale).find? fun u => isBelow (1024 * u.bytes)).getD .tib

end Size

namespace Quantity

open Size

/-- The unit for a size, whatever its sign. -/
def scale : Quantity → Scale
  | .count n => scaleWhere fun bound => n.natAbs < bound
  | .measure x => scaleWhere x.abs.isBelow

/-- The size as a floating point number without its sign; none if it is too large for one. -/
def toBinary64? : Quantity → Option Binary64
  | .count n =>
    match Binary64.ofInt n.natAbs with
    | .infinite _ => none
    | x => some x
  | .measure x => some x.abs

/-- The size in its unit, with two decimals; none for a count too large for a floating point number. -/
def format? (q : Quantity) : Option Text :=
  q.toBinary64?.map fun x =>
    let scaled := x.div (Binary64.ofInt q.scale.bytes)
    scaled.fixed 2 ++ " " ++ Text.ofString q.scale.symbol

end Quantity

end SafePath
