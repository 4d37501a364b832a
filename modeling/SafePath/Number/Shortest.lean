import SafePath.Number.Binary64

/-!
# The shortest decimal of a binary number

The reals that round to a binary number form an interval: from half way to the number below to half
way to the number above, the two ends included exactly if the mantissa is even.  `shortest` is the
decimal in that interval with the fewest digits; of several, the one nearest to the number, and of
two equally near ones the one with an even last digit.

The interval is measured in quarters of the last binary digit, so that its ends are whole numbers
also where the gap below is half the gap above.  For each count of digits only the two neighbours of
the number on that decimal grid have to be looked at.  Seventeen digits are always enough.

`Layout.write` lays the digits out, positionally or with an exponent.
-/

namespace SafePath

/-- The number `digits * 10 ^ exponent`. -/
structure Decimal where
  digits : Nat
  exponent : Int
deriving DecidableEq

namespace Decimal

/-- `10 ^ k` as a numerator and a denominator. -/
def powerOfTen (k : Int) : Nat × Nat := (Nat.pow 10 k.toNat, Nat.pow 10 (-k).toNat)

/-- The order of a decimal and `n * 2 ^ e`. -/
def compareBinary (d : Decimal) (n : Nat) (e : Int) : Ordering :=
  let (tenUp, tenDown) := powerOfTen d.exponent
  let (twoUp, twoDown) := Binary64.powerOfTwo e
  compare (d.digits * tenUp * twoDown) (n * twoUp * tenDown)

/-- The decimal rounds to `m * 2 ^ e`. -/
def readsAs (d : Decimal) (m : Nat) (e : Int) : Bool :=
  let low := if m = Nat.pow 2 52 ∧ -1074 < e then 4 * m - 1 else 4 * m - 2
  let high := 4 * m + 2
  let inside (limit : Nat) (side : Ordering) : Bool :=
    d.compareBinary limit (e - 2) == side || (m % 2 == 0 && d.compareBinary limit (e - 2) == .eq)
  inside low .gt && inside high .lt

/-- The count of digits in front of the point of `num / den`; zero or less if there are none. -/
def pointOf (num den : Nat) : Int :=
  let k : Int := ((Numeral.digits 10 num).length : Int) - (Numeral.digits 10 den).length
  let (up, down) := powerOfTen k
  if num * down < den * up then k else k + 1

/-- The decimal of `places` digits nearest to `m * 2 ^ e`, if one of that many digits rounds to it. -/
def ofDigits? (m : Nat) (e : Int) (places : Nat) : Option Decimal :=
  let (num, den) := Binary64.magnitude m e
  let exponent := pointOf num den - places
  let (up, down) := powerOfTen exponent
  let below : Decimal := ⟨num * down / (den * up), exponent⟩
  let above : Decimal := ⟨below.digits + 1, exponent⟩
  let nearest : Decimal := ⟨roundDiv (num * down) (den * up), exponent⟩
  if nearest.readsAs m e then some nearest
  else if below.readsAs m e then some below
  else if above.readsAs m e then some above
  else none

/-- The decimal that equals `m * 2 ^ e`. -/
def exact (m : Nat) (e : Int) : Decimal := ⟨m * Nat.pow 2 e.toNat * Nat.pow 5 (-e).toNat, min e 0⟩

/-- The shortest decimal that rounds to `m * 2 ^ e`, a number with at most 53 binary digits. -/
def shortest (m : Nat) (e : Int) : Decimal :=
  if m = 0 then ⟨0, 0⟩
  else ((List.range 17).findSome? fun i => ofDigits? m e (i + 1)).getD (exact m e)

/-- The digits without the zeros at their end. -/
def significant (d : Decimal) : List Nat :=
  match ((Numeral.digits 10 d.digits).reverse.dropWhile (· == 0)).reverse with
  | [] => [0]
  | ds => ds

/-- Where the point stands, counted from the first digit. -/
def point (d : Decimal) : Int := (Numeral.digits 10 d.digits).length + d.exponent

/-- How decimals are written. -/
structure Layout where
  /-- The point of the smallest number that is written positionally. -/
  leastPoint : Int
  /-- The point of the largest number that is written positionally. -/
  greatestPoint : Int
  /-- How many digits an exponent has at least. -/
  exponentWidth : Nat

def written (ds : List Nat) : Text := ds.map fun d => CodePoint.ofChar (Numeral.capitals.getD d '0')

def zeros (n : Nat) : List Nat := List.replicate n 0

/-- A decimal as a layout has it: positionally, with at least one digit on both sides of the point, or as
one digit, the other digits behind a point, and a signed exponent. -/
def Layout.write (form : Layout) (d : Decimal) : Text :=
  let ds := d.significant
  let point := d.point
  if form.leastPoint ≤ point ∧ point ≤ form.greatestPoint then
    let padded := zeros (1 - point).toNat ++ ds ++ zeros (point + 1 - ds.length).toNat
    let whole := (max point 1).toNat
    written (padded.take whole) ++ "." ++ written (padded.drop whole)
  else
    let exponent := point - 1
    let fraction : Text := if ds.length ≤ 1 then [] else "." ++ written (ds.drop 1)
    written (ds.take 1) ++ fraction ++ "e" ++ (if exponent < 0 then "-" else "+")
      ++ Numeral.padLeft form.exponentWidth (Numeral.decimal exponent.natAbs)

end Decimal

/-- A 64-bit number in a layout, with the fewest digits that identify it. -/
def Binary64.shortest (form : Decimal.Layout) : Binary64 → Text
  | .nan => "nan"
  | .infinite negative => if negative then "-inf" else "inf"
  | .finite negative m e =>
    let size := form.write (Decimal.shortest m e)
    if negative then CodePoint.ofChar '-' :: size else size

end SafePath
