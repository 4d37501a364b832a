import SafePath.Argument.Message
import SafePath.Argument.Misuse
import SafePath.Name.Basic

/-!
# Errors as an untyped caller sees them

An error has a kind, a message and values that it carries by name.  One that a caller makes itself is
made of the values that its kind takes, in their order; lengths have to have a hexadecimal form, for
the message shows them in it.  A fault of this library is such an error too.

A call with untyped arguments fails in three ways: by a fault of the library, by an error that carries
values as the caller gave them, or by a misuse, which keeps an error from being made at all.
-/

namespace SafePath

inductive RaisedKind
  | general
  | malformed
  | invalidParts
  | extensionTooLong
  | pathTooLong
deriving DecidableEq

namespace RaisedKind

def all : List RaisedKind := [.general, .malformed, .invalidParts, .extensionTooLong, .pathTooLong]

def name : RaisedKind → String
  | .general => "PathError"
  | .malformed => "DecodeError"
  | .invalidParts => "InvalidArgumentsError"
  | .extensionTooLong => "ExtensionTooLongError"
  | .pathTooLong => "PathTooLongError"

def ofName? (name : String) : Option RaisedKind := all.find? fun kind => kind.name == name

/-- The values that an error of a kind has to be made of, if it does not take any values whatever. -/
def required : RaisedKind → Option (List String)
  | .general => none
  | .malformed => some ["offset"]
  | .invalidParts => none
  | .extensionTooLong => some ["extension_length", "boundary"]
  | .pathTooLong => some ["path_length", "limit"]

/-- How many values more it may be made of. -/
def optional : RaisedKind → Nat
  | .malformed => 1
  | _ => 0

/-- The count of values does for the kind. -/
def checkCount (kind : RaisedKind) (given : Nat) : Except Misuse Unit :=
  match kind.required with
  | none => .ok ()
  | some names =>
    let operation := kind.name ++ ".__init__"
    let most := names.length + kind.optional
    if given < names.length then .error (.missing operation (names.drop given))
    else if most < given then .error (.tooMany operation (names.length + 1) (most + 1) (given + 1))
    else .ok ()

end RaisedKind

/-- An error: its kind, its message, and the values that it carries. -/
structure Raised where
  kind : RaisedKind
  message : Text
  values : List (String × Argument)

/-- A value as a length in a message. -/
def Argument.shownAsLength (a : Argument) : Except Misuse Text :=
  match a with
  | .text _ => .error (.notHexadecimal a.kind)
  | .real _ => .error (.notHexadecimal a.kind)
  | .integer n => .ok (shownLength n)
  | .flag b => .ok (shownLength (if b then 1 else 0))
  | _ => .error (.withoutForms a.kind)

namespace Raised

def extensionTooLong (extensionLength boundary : Argument) : Except Misuse Raised := do
  let shown ← extensionLength.shownAsLength
  let bound ← boundary.shownAsLength
  return {
    kind := .extensionTooLong
    message := extensionTooLongMessage shown bound
    values := [("extension_length", extensionLength), ("boundary", boundary)] }

def pathTooLong (length limit : Argument) : Except Misuse Raised := do
  let shown ← length.shownAsLength
  let bound ← limit.shownAsLength
  return {
    kind := .pathTooLong
    message := pathTooLongMessage shown bound
    values := [("path_length", length), ("limit", limit)] }

/-- An error of a kind, made of values. -/
def make (kind : RaisedKind) (values : List Argument) : Except Misuse Raised :=
  match kind.checkCount values.length, kind, values with
  | .error misuse, _, _ => .error misuse
  | .ok (), .malformed, offset :: rest =>
    .ok {
      kind := kind
      message := Argument.malformedMessage offset (rest.headD .absent)
      values := [("offset", offset)] }
  | .ok (), .extensionTooLong, [extensionLength, boundary] => extensionTooLong extensionLength boundary
  | .ok (), .pathTooLong, [length, limit] => pathTooLong length limit
  | .ok (), _, _ => .ok { kind := kind, message := Argument.messageOf values, values := [] }

/-- A fault of this library as an error. -/
def ofFault (fault : PathFault) : Raised :=
  let (kind, values) : RaisedKind × List (String × Argument) :=
    match fault with
    | .general _ => (.general, [])
    | .malformed offset _ => (.malformed, [("offset", .integer offset)])
    | .invalidParts _ => (.invalidParts, [])
    | .extensionTooLong extensionLength boundary =>
      (.extensionTooLong,
        [("extension_length", .integer extensionLength), ("boundary", .integer boundary)])
    | .pathTooLong length limit =>
      (.pathTooLong, [("path_length", .integer length), ("limit", .integer limit)])
  { kind := kind, message := fault.message, values := values }

end Raised

inductive CallFault
  | fault (fault : Fault)
  | raised (error : Raised)
  | misuse (misuse : Misuse)

namespace CallFault

def message : CallFault → Text
  | .fault f => f.message
  | .raised e => e.message
  | .misuse m => m.message

/-- An error, or the misuse for which it cannot be made. -/
def ofRaised : Except Misuse Raised → CallFault
  | .ok e => .raised e
  | .error m => .misuse m

end CallFault

end SafePath
