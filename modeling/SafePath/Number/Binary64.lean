import SafePath.Text.Numeral

/-!
# Binary floating point, 64 bits

A finite number is `± mantissa * 2 ^ exponent`, so it is an exact fraction.  Every operation takes
the exact result of its operands and rounds it once, to the nearest number with at most 53 binary
digits and an exponent in range; of two equally near ones to the one with an even last digit.

`ofRatio` is that rounding, of a quotient by `roundDiv`.  `fixed` writes a number with a fixed count
of decimal places, again from its exact value and with ties to even.
-/

namespace SafePath

/-- The nearest whole number to `num / den`, of two equally near ones the even one. -/
def roundDiv (num den : Nat) : Nat :=
  let q := num / den
  let twice := 2 * (num % den)
  if twice < den then q
  else if den < twice then q + 1
  else q + q % 2

/-- A 64-bit floating point number by its value. -/
inductive Binary64
  | nan
  | infinite (negative : Bool)
  | finite (negative : Bool) (mantissa : Nat) (exponent : Int)
deriving DecidableEq

namespace Binary64

def zero : Binary64 := .finite false 0 0

/-- `2 ^ k` as a numerator and a denominator. -/
def powerOfTwo (k : Int) : Nat × Nat := (Nat.pow 2 k.toNat, Nat.pow 2 (-k).toNat)

/-- The largest `k` with `2 ^ k ≤ num / den`, for positive numbers. -/
def floorLog2 (num den : Nat) : Int :=
  let k : Int := (num.log2 : Int) - (den.log2 : Int)
  let (up, down) := powerOfTwo k
  if num * down < den * up then k - 1 else k

/-- The 64-bit number nearest to `num / den`, with a sign. -/
def ofRatio (negative : Bool) (num den : Nat) : Binary64 :=
  if num = 0 then .finite negative 0 0
  else
    let exponent : Int := max (floorLog2 num den - 52) (-1074)
    let (up, down) := powerOfTwo exponent
    let mantissa := roundDiv (num * down) (den * up)
    if 971 < exponent ∨ (exponent = 971 ∧ Nat.pow 2 53 ≤ mantissa) then .infinite negative
    else .finite negative mantissa exponent

def ofInt (n : Int) : Binary64 := ofRatio (decide (n < 0)) n.natAbs 1

/-- The number that a 64-bit pattern stands for. -/
def ofBits (bits : Nat) : Binary64 :=
  let negative := decide (bits / Nat.pow 2 63 % 2 = 1)
  let exponent : Nat := bits / Nat.pow 2 52 % Nat.pow 2 11
  let fraction : Nat := bits % Nat.pow 2 52
  if exponent = 0x7FF then
    if fraction = 0 then .infinite negative else .nan
  else if exponent = 0 then .finite negative fraction (-1074)
  else .finite negative (Nat.pow 2 52 + fraction) ((exponent : Int) - 1075)

/-- The size of a finite number as a numerator and a denominator. -/
def magnitude (mantissa : Nat) (exponent : Int) : Nat × Nat :=
  let (up, down) := powerOfTwo exponent
  (mantissa * up, down)

def abs : Binary64 → Binary64
  | .nan => .nan
  | .infinite _ => .infinite false
  | .finite _ m e => .finite false m e

def neg : Binary64 → Binary64
  | .nan => .nan
  | .infinite n => .infinite (!n)
  | .finite n m e => .finite (!n) m e

def withSign (negative : Bool) (m : Nat) : Int := if negative then -(m : Int) else m

/-- The sum; an exact zero is positive. -/
def add : Binary64 → Binary64 → Binary64
  | .nan, _ => .nan
  | _, .nan => .nan
  | .infinite a, .infinite b => if a = b then .infinite a else .nan
  | .infinite a, .finite .. => .infinite a
  | .finite .., .infinite b => .infinite b
  | .finite a m e, .finite b n f =>
    let (x, dx) := magnitude m e
    let (y, dy) := magnitude n f
    let sum := withSign a (x * dy) + withSign b (y * dx)
    ofRatio (decide (sum < 0)) sum.natAbs (dx * dy)

def sub (x y : Binary64) : Binary64 := add x y.neg

def div : Binary64 → Binary64 → Binary64
  | .nan, _ => .nan
  | _, .nan => .nan
  | .infinite _, .infinite _ => .nan
  | .infinite a, .finite b _ _ => .infinite (a != b)
  | .finite a _ _, .infinite b => .finite (a != b) 0 0
  | .finite a m e, .finite b n f =>
    if n = 0 then
      if m = 0 then .nan else .infinite (a != b)
    else
      let (x, dx) := magnitude m e
      let (y, dy) := magnitude n f
      ofRatio (a != b) (x * dy) (dx * y)

def isPositive : Binary64 → Bool
  | .nan => false
  | .infinite negative => !negative
  | .finite negative m _ => !negative && m != 0

/-- The number is a fraction. -/
def isFinite : Binary64 → Bool
  | .finite .. => true
  | _ => false

def isZero : Binary64 → Bool
  | .finite _ m _ => m == 0
  | _ => false

def isBelow (x : Binary64) (bound : Nat) : Bool :=
  match x with
  | .nan => false
  | .infinite negative => negative
  | .finite negative m e =>
    let (num, den) := magnitude m e
    decide (withSign negative num < (bound : Int) * den)

/-- The number with `places` decimal places, rounded from its exact value. -/
def fixed (places : Nat) : Binary64 → Text
  | .nan => "nan"
  | .infinite negative => if negative then "-inf" else "inf"
  | .finite negative m e =>
    let (num, den) := magnitude m e
    let written := Numeral.withPlaces places (roundDiv (num * Nat.pow 10 places) den)
    if negative then CodePoint.ofChar '-' :: written else written

end Binary64

end SafePath
