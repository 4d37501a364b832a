import SafePath.Text.Blank
import SafePath.Text.Numeral

/-!
# Integer literals

The written integers that a setting may hold: blanks around, a sign, a base prefix `0x`, `0o` or
`0b`, and digits with single underscores between them.  Without a base prefix the digits are
decimal and may not begin with a zero, unless all of them are zeros; a decimal literal has at most
`Numeral.digitLimit` digits.

Digits and blanks of every script count, except that of the ASCII blanks only space and `0x09` to
`0x0D` do, and an ASCII character always stands for itself.
-/

namespace SafePath.Literal

/-- A character of a literal after the scripts have been unified. -/
inductive Symbol
  | blank
  | digit (value : Nat)
  | letter (c : Char)
deriving DecidableEq

def symbol? (c : CodePoint) : Option Symbol :=
  if c.val < 0x7F then
    if c.isAsciiBlank then some .blank
    else
      match c.digitValue? with
      | some d => some (.digit d)
      | none => some (.letter (Char.ofNat c.val))
  else if c.isBlank then some .blank
  else c.digitValue?.map .digit

/-- The value of a digit in bases up to sixteen. -/
def digitOf : Symbol → Option Nat
  | .digit d => some d
  | .letter c =>
    if 'a' ≤ c ∧ c ≤ 'f' then some (c.toNat - 'a'.toNat + 10)
    else if 'A' ≤ c ∧ c ≤ 'F' then some (c.toNat - 'A'.toNat + 10)
    else none
  | .blank => none

/-- The digits of a literal, where underscores stand only between two digits. -/
def digits? (base : Nat) : List Symbol → Option (List Nat)
  | [] => none
  | [s] => (digitOf s).bind fun d => if d < base then some [d] else none
  | s :: .letter '_' :: rest =>
    (digitOf s).bind fun d => if d < base then (digits? base rest).map (d :: ·) else none
  | s :: rest =>
    (digitOf s).bind fun d => if d < base then (digits? base rest).map (d :: ·) else none

/-- The number with these digits. -/
def valueOf (base : Nat) (ds : List Nat) : Nat := ds.foldl (fun n d => n * base + d) 0

/-- The digits after a base prefix, in front of which one underscore may stand. -/
def based? (base : Nat) : List Symbol → Option Nat
  | .letter '_' :: rest => (digits? base rest).map (valueOf base)
  | rest => (digits? base rest).map (valueOf base)

/-- The digits of a decimal number. -/
def decimalDigits? (symbols : List Symbol) : Option (List Nat) :=
  (digits? 10 symbols).filter fun ds => ds.length ≤ Numeral.digitLimit

def decimal? (symbols : List Symbol) : Option Nat :=
  (decimalDigits? symbols).bind fun ds =>
    if ds.head? ≠ some 0 ∨ ds.all (· == 0) then some (valueOf 10 ds) else none

/-- A literal without its sign. -/
def unsigned? : List Symbol → Option Nat
  | .digit 0 :: .letter c :: rest =>
    if c = 'x' ∨ c = 'X' then based? 16 rest
    else if c = 'o' ∨ c = 'O' then based? 8 rest
    else if c = 'b' ∨ c = 'B' then based? 2 rest
    else decimal? (.digit 0 :: .letter c :: rest)
  | symbols => decimal? symbols

/-- A number that may have a sign, without blanks around it. -/
def signed? (unsigned : List Symbol → Option Nat) : List Symbol → Option Int
  | .letter '+' :: rest => (unsigned rest).map Int.ofNat
  | .letter '-' :: rest => (unsigned rest).map fun n => -(n : Int)
  | symbols => (unsigned symbols).map Int.ofNat

/-- The symbols of a text without the blanks around them. -/
def symbols? (t : Text) : Option (List Symbol) :=
  (t.mapM symbol?).map fun symbols =>
    ((symbols.dropWhile (· == .blank)).reverse.dropWhile (· == .blank)).reverse

/-- The integer that a text is a literal of. -/
def parse? (t : Text) : Option Int := (symbols? t).bind (signed? unsigned?)

/-- The integer that a text is in decimal; it may begin with zeros. -/
def parseDecimal? (t : Text) : Option Int :=
  (symbols? t).bind (signed? fun symbols => (decimalDigits? symbols).map (valueOf 10))

end SafePath.Literal
