import SafePath.Text.Numeral
import SafePath.Text.Quoted

/-!
# Why a path cannot be built

One constructor for each cause, and one wording for each.  Lengths are shown in hexadecimal.
-/

namespace SafePath

/-- What is wrong with the parts a path is to be built from. -/
inductive PartFault
  | emptyName
  | embeddedNul
  | separatorInExtension (separator : Text)
  | other (message : Text)
deriving DecidableEq

inductive PathFault
  | general (message : Text)
  /-- The input is no UTF-8 from `offset` on; an empty `note` stands for the usual wording. -/
  | malformed (offset : Int) (note : Text)
  | invalidParts (fault : PartFault)
  /-- The extension leaves no room for a name in front of it. -/
  | extensionTooLong (extensionLength boundary : Int)
  | pathTooLong (length limit : Int)
deriving DecidableEq

def PartFault.message : PartFault → Text
  | .emptyName => "File name must not be empty"
  | .embeddedNul => "Path inputs must not contain NUL bytes"
  | .separatorInExtension separator => "Extension must not contain " ++ separator.quoted
  | .other message => message

/-- A length as messages show it. -/
def shownLength (n : Int) : Text := "0x" ++ Numeral.upperHex n

/-- The complaint about malformed text at an offset. -/
def malformedAtOffset (offset : Text) : Text := "Invalid UTF-8 sequence at byte offset " ++ offset

/-- The complaint about an extension, by its length and the length that it should be below. -/
def extensionTooLongMessage (extensionLength boundary : Text) : Text :=
  "File extension length is >= truncated filename length (" ++ extensionLength ++ " >= " ++ boundary ++ ")"

/-- The complaint about a path, by its length and the length that it should be below. -/
def pathTooLongMessage (length limit : Text) : Text :=
  "Generated path length is >= maximum path length (" ++ length ++ " >= " ++ limit ++ ")"

def PathFault.message : PathFault → Text
  | .general message => message
  | .malformed offset note =>
    if note.isEmpty then malformedAtOffset (Numeral.signedDecimal offset) else note
  | .invalidParts fault => fault.message
  | .extensionTooLong extensionLength boundary =>
    extensionTooLongMessage (shownLength extensionLength) (shownLength boundary)
  | .pathTooLong length limit => pathTooLongMessage (shownLength length) (shownLength limit)

end SafePath
