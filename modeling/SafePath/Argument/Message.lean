import SafePath.Argument
import SafePath.Number.Shortest

/-!
# Arguments in messages

An error may be raised with any values.  A single text is the message itself; any other value is shown
as a literal, and so are several values, in brackets.  Bytes are shown in ASCII: in quotes like a text,
with a hexadecimal escape for every byte that is no printable ASCII character.  In a buffer the single
quote has a backslash in front also where the quotes around are double.
-/

namespace SafePath

/-- What stands for a byte where `escaped` gets a backslash in front. -/
def quotedByte (escaped : Char) (b : UInt8) : Text :=
  match CodePoint.ofNat? b.toNat with
  | none => []
  | some c => if c.val < 0x80 then Text.quotedPoint escaped c else Text.numericEscape c

/-- The quotes that bytes stand in. -/
def quoteForBytes (data : Bytes) : Char := Text.quoteFor (data.filterMap fun b => CodePoint.ofNat? b.toNat)

/-- Bytes between quotes, in which `escaped` gets a backslash in front. -/
def quotedBytes (escaped : Char) (data : Bytes) : Text :=
  let quote := CodePoint.ofChar (quoteForBytes data)
  "b" ++ [quote] ++ data.flatMap (quotedByte escaped) ++ [quote]

namespace Argument

/-- Doubles are written positionally from `0.0001` to below `10 ^ 16`, else with a signed exponent of two
digits or more. -/
def realLayout : Decimal.Layout := ⟨-3, 16, 2⟩

def literal : Argument → Text
  | .absent => "None"
  | .flag b => if b then "True" else "False"
  | .integer n => Numeral.signedDecimal n
  | .real x => x.shortest realLayout
  | .text t => t.quoted
  | .bytes data => quotedBytes (quoteForBytes data) data
  | .buffer data => "bytearray(" ++ quotedBytes '\'' data ++ ")"
  | .list items => "[" ++ Text.join ", " (items.map literal) ++ "]"

def asMessage : Argument → Text
  | .text t => t
  | other => other.literal

/-- Several values as the message of an error. -/
def messageOf : List Argument → Text
  | [] => []
  | [a] => a.asMessage
  | several => "(" ++ Text.join ", " (several.map literal) ++ ")"

/-- The message of an error about malformed text: the note, or else the usual wording for an offset. -/
def malformedMessage (offset note : Argument) : Text :=
  if note.isEmpty then malformedAtOffset offset.asMessage else note.asMessage

end Argument

end SafePath
