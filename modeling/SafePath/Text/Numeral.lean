import SafePath.Text.Basic

/-!
# Numerals

The digits of a number in a base, and the written forms that messages use: decimal with a sign,
hexadecimal with at least some number of digits, and a decimal fraction with a fixed number of
places.  Numbers without a bound of their own are written in decimal up to some number of digits only.
Bytes are written in hexadecimal with two digits each.

Numbers are read in the digits of any script.  Each script with decimal digits has ten consecutive code
points for them, so a script is given by its zero.
-/

namespace SafePath.Numeral

/-- The digits of `n` in a base of two or more, the most significant first; `[0]` for zero. -/
def digits (base n : Nat) : List Nat :=
  if 2 ≤ base ∧ base ≤ n then digits base (n / base) ++ [n % base] else [n]
termination_by n
decreasing_by exact Nat.div_lt_self (by omega) (by omega)

/-- The sixteen digits with capital letters. -/
def capitals : List Char := "0123456789ABCDEF".toList

/-- The sixteen digits with small letters. -/
def smalls : List Char := "0123456789abcdef".toList

/-- The digits of `n` in a base up to sixteen, written in an alphabet. -/
def inBase (alphabet : List Char) (base n : Nat) : Text :=
  (digits base n).map fun d => CodePoint.ofChar (alphabet.getD d '0')

/-- `t` with zeros in front up to `width`. -/
def padLeft (width : Nat) (t : Text) : Text :=
  List.replicate (width - t.length) (CodePoint.ofChar '0') ++ t

def decimal (n : Nat) : Text := inBase capitals 10 n

/-- The written form of an integer: a minus sign in front of a negative one. -/
def signed (written : Nat → Text) (n : Int) : Text :=
  if n < 0 then CodePoint.ofChar '-' :: written n.natAbs else written n.natAbs

def signedDecimal (n : Int) : Text := signed decimal n

/-- How many digits a number written in decimal may have. -/
def digitLimit : Nat := 4300

/-- The least number with more digits than that. -/
def decimalBound : Nat := Nat.pow 10 digitLimit

/-- An integer in decimal, unless it has too many digits. -/
def boundedDecimal? (n : Int) : Option Text :=
  if n.natAbs < decimalBound then some (signedDecimal n) else none

/-- What is said instead of a number with too many digits. -/
def tooManyDigits : Text :=
  "Exceeds the limit (" ++ decimal digitLimit
    ++ " digits) for integer string conversion; use sys.set_int_max_str_digits() to increase the limit"

def upperHex (n : Int) : Text := signed (inBase capitals 16) n

/-- A natural number in hexadecimal with small letters and at least `width` digits. -/
def lowerHex (width n : Nat) : Text := padLeft width (inBase smalls 16 n)

/-- `n` units of the last of `places` decimal places: `withPlaces 2 1250` is `12.50`. -/
def withPlaces (places n : Nat) : Text :=
  decimal (n / Nat.pow 10 places) ++ "." ++ padLeft places (decimal (n % Nat.pow 10 places))

end SafePath.Numeral

namespace SafePath

/-- The two digits of a byte. -/
def hexByte (capital : Bool) (b : UInt8) : Text :=
  let alphabet := if capital then Numeral.capitals else Numeral.smalls
  [b.toNat / 16, b.toNat % 16].map fun d => CodePoint.ofChar (alphabet.getD d '0')

/-- The digits of all bytes in order. -/
def hexOfBytes (capital : Bool) (data : List UInt8) : Text := data.flatMap (hexByte capital)

namespace CodePoint

/-- The digit zero of every script, in order. -/
def zeros : List Nat := [
   0x30, 0x660, 0x6F0, 0x7C0, 0x966, 0x9E6, 0xA66, 0xAE6, 0xB66, 0xBE6,
   0xC66, 0xCE6, 0xD66, 0xDE6, 0xE50, 0xED0, 0xF20, 0x1040, 0x1090, 0x17E0,
   0x1810, 0x1946, 0x19D0, 0x1A80, 0x1A90, 0x1B50, 0x1BB0, 0x1C40, 0x1C50, 0xA620,
   0xA8D0, 0xA900, 0xA9D0, 0xA9F0, 0xAA50, 0xABF0, 0xFF10, 0x104A0, 0x10D30, 0x11066,
   0x110F0, 0x11136, 0x111D0, 0x112F0, 0x11450, 0x114D0, 0x11650, 0x116C0, 0x11730, 0x118E0,
   0x11950, 0x11C50, 0x11D50, 0x11DA0, 0x16A60, 0x16AC0, 0x16B50, 0x1D7CE, 0x1D7D8, 0x1D7E2,
   0x1D7EC, 0x1D7F6, 0x1E140, 0x1E2F0, 0x1E950, 0x1FBF0]

/-- The value of a decimal digit, whatever its script. -/
def digitValue? (c : CodePoint) : Option Nat :=
  (zeros.find? fun z => z ≤ c.val && c.val ≤ z + 9).map fun z => c.val - z

def isDecimalDigit (c : CodePoint) : Bool := c.digitValue?.isSome

end CodePoint

end SafePath
