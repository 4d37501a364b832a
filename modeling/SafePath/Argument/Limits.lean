import SafePath.Argument.Message
import SafePath.Argument.Order
import SafePath.Path.Limits

/-!
# Limits from an untyped caller

The limits of a path, given as any values.  Each number is compared with zero, so it has to be a number,
and may not be zero or less; it need not be whole.  Then the separator has to be a text of one byte.
Whole numbers are the usual limits, and `toLimits?` makes them so.
-/

namespace SafePath

/-- Limits whose numbers are kept as they were given. -/
structure LooseLimits where
  maxComponent : Argument
  maxPath : Argument
  separator : { b : UInt8 // b < 0x80 }

inductive LooseLimitsFault
  | misuse (misuse : Misuse)
  | notPositive (limit : Text) (given : Argument)
  | separator (fault : LimitsFault)

def LooseLimitsFault.message : LooseLimitsFault → Text
  | .misuse m => m.message
  | .notPositive limit (.integer n) => SafePath.notPositive limit n
  | .notPositive limit given => limit ++ " must be positive: " ++ given.asMessage
  | .separator fault => fault.message

namespace LooseLimits

def names : List String := ["max_component_bytes", "max_path_bytes", "separator"]

/-- The first of some names by which there is no limit. -/
def unexpected? (given : List String) : Option Misuse :=
  (given.find? fun name => !names.contains name).map (.unexpected "PathLimits.__init__")

/-- The number of a limit is not zero or less. -/
def checkPositive (limit : Text) (given : Argument) : Except LooseLimitsFault Unit :=
  match given.isAtMostZero with
  | .error misuse => .error (.misuse misuse)
  | .ok true => .error (.notPositive limit given)
  | .ok false => .ok ()

def separatorOf (given : Argument) : Except LooseLimitsFault { b : UInt8 // b < 0x80 } :=
  match given with
  | .text t => (Limits.separatorByte t).mapError .separator
  | other => .error (.misuse (.withoutMember other.kind "encode"))

/-- Limits from two values that should be numbers and one that should be a separator. -/
def make (maxComponent maxPath separator : Argument) : Except LooseLimitsFault LooseLimits := do
  checkPositive "max_component_bytes" maxComponent
  checkPositive "max_path_bytes" maxPath
  let byte ← separatorOf separator
  return { maxComponent := maxComponent, maxPath := maxPath, separator := byte }

def usual : LooseLimits where
  maxComponent := .integer Limits.defaultMaxComponent
  maxPath := .integer Limits.defaultMaxPath
  separator := ⟨Limits.default.separator, Limits.default.separator_ascii⟩

/-- The limits with whole numbers. -/
def toLimits? (limits : LooseLimits) : Option Limits :=
  limits.maxComponent.toInt?.bind fun component =>
    limits.maxPath.toInt?.bind fun path => Limits.ofNumbers? component path limits.separator

def separatorText (limits : LooseLimits) : Text := Limits.textOfSeparator limits.separator.val

/-- A component of `size` bytes that is cut to the limit is cut at a place that is no whole number, for
the limit itself is that place. -/
def isBetweenPlaces (limits : LooseLimits) (size : Nat) : Bool :=
  match limits.maxComponent with
  | .real x => (Quantity.count size).isEqual (.measure x)
  | _ => false

/-- How many bytes of a path of `length` bytes a component may have. -/
def budgetWithin (limits : LooseLimits) (length : Nat) : Nat :=
  match limits.maxComponent.quantity? with
  | some q => q.countWithin length
  | none => length

/-- A path of `length` bytes is too long. -/
def isReached (limits : LooseLimits) (length : Nat) : Bool :=
  match limits.maxPath.quantity? with
  | some q => q.isAtMost (.count length)
  | none => false

end LooseLimits

end SafePath
