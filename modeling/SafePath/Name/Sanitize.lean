import SafePath.Log.Record
import SafePath.Name.Basic
import SafePath.Text.Blank
import SafePath.Utf8.Scan

/-!
# Trimming and sanitizing a name

Space, tab, line feed, vertical tab, form feed and carriage return are taken off both ends of a name.
Every other blank is kept, and so is everything inside.

Code points that a file system does not allow become underscores, one for one.  A name that is not
UTF-8 throughout is cut where it stops being so, and the cut is reported.  So what is sanitized is UTF-8,
holds only allowed code points and is never longer than the name.
-/

namespace SafePath

/-! ## Trimming -/

/-- The six bytes that are trimmed. -/
def isBlankByte (b : UInt8) : Bool := b == 0x20 || (0x09 ≤ b && b ≤ 0x0D)

/-- The bytes between the first and the last that is not trimmed. -/
def trimBytes (data : Bytes) : Bytes :=
  ((data.dropWhile isBlankByte).reverse.dropWhile isBlankByte).reverse

/-- The name without ASCII blanks at its ends. -/
def Name.trim : Name → Name
  | .text t => .text (t.stripWhere CodePoint.isAsciiBlank)
  | .bytes b => .bytes (trimBytes b)

/-! ## Sanitizing -/

/-- The punctuation that file systems reserve. -/
def reservedPunctuation : List Nat := "\\/:*?\"<>|".toList.map Char.toNat

/-- A value that may not stand in a file name: a control, reserved punctuation, and all beyond
printable ASCII if only that is wanted. -/
def isIllegal (asciiOnly : Bool) (value : Int) : Bool :=
  (reservedPunctuation.any fun r => (r : Int) == value) || value < 0x20
    || (if asciiOnly then decide (0x7F ≤ value) else value == 0x7F)

/-- What stands for an illegal code point. -/
def replacementByte : UInt8 := 0x5F

/-- The bytes that stand for a code point: its own, or the replacement if it is illegal. -/
def sanitizedValue (asciiOnly : Bool) (value : Nat) : Bytes :=
  if isIllegal asciiOnly value then [replacementByte] else Utf8.encodeValue value

/-- The code points of `data` in order, each as it is or replaced. -/
def sanitizeBytes (asciiOnly : Bool) (data : Bytes) : Bytes :=
  (Utf8.scan data).flatMap fun located => sanitizedValue asciiOnly located.scanned.value

namespace Name

def sanitizeSource : Text := "nxdt_paths.core.filename_sanitizer"

def cutRecord (offset : Nat) : Log.Record :=
  { level := .debug
    source := sanitizeSource
    message := "Invalid UTF-8 sequence at offset " ++ Numeral.decimal offset ++ ", truncating name" }

/-- The name with every illegal code point replaced. -/
def sanitize (asciiOnly : Bool) (name : Name) : Log.Logged (Except Fault Name) :=
  let data := name.toBytes
  { result := name.withBytes (sanitizeBytes asciiOnly data)
    records := ((Utf8.malformedAt data).map cutRecord).toList }

end Name

end SafePath
