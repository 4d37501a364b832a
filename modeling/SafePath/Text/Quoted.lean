import SafePath.Text.Numeral
import SafePath.Text.Printable

/-!
# Quoted text

How messages show a text that came from outside: in single quotes, or in double quotes if the text
holds a single quote and no double one.  The quote in use and the backslash get a backslash in
front, a line feed, carriage return or tab is a letter after a backslash, and every other code point
that is not printable is a hexadecimal escape of two, four or eight digits.  So a quoted text never
breaks the line it stands on.
-/

namespace SafePath.Text

/-- The escape of a code point by its number: `\xNN`, `\uNNNN` or `\UNNNNNNNN`. -/
def numericEscape (c : CodePoint) : Text :=
  if c.val ≤ 0xFF then "\\x" ++ Numeral.lowerHex 2 c.val
  else if c.val ≤ 0xFFFF then "\\u" ++ Numeral.lowerHex 4 c.val
  else "\\U" ++ Numeral.lowerHex 8 c.val

/-- What stands for `c` between two of `quote`. -/
def quotedPoint (quote : Char) (c : CodePoint) : Text :=
  if c.is quote || c.is '\\' then [CodePoint.ofChar '\\', c]
  else if c.is '\n' then "\\n"
  else if c.is '\r' then "\\r"
  else if c.is '\t' then "\\t"
  else if c.isPrintable then [c]
  else numericEscape c

/-- Single quotes, unless only they would have to be escaped. -/
def quoteFor (t : Text) : Char :=
  if t.any (·.is '\'') && !t.any (·.is '"') then '"' else '\''

/-- `t` between quotes, on one line and unambiguous. -/
def quoted (t : Text) : Text :=
  let quote := quoteFor t
  [CodePoint.ofChar quote] ++ t.flatMap (quotedPoint quote) ++ [CodePoint.ofChar quote]

/-- A text that may be missing: quoted, or the word `None`. -/
def quotedOption : Option Text → Text
  | none => "None"
  | some t => quoted t

/-- Surrogates as numeric escapes, all else as it is: what a console shows. -/
def withoutSurrogates (t : Text) : Text :=
  t.flatMap fun c => if c.IsSurrogate then numericEscape c else [c]

end SafePath.Text
