import SafePath.Text.Numeral
import SafePath.Utf8.Strict

/-!
# Limits of a path

How many bytes a component and a whole path may have, and which byte separates components.  The
separator is one ASCII character, so it is never a part of another character's encoding.
-/

namespace SafePath

/-- Byte limits and the separator of components. -/
structure Limits where
  maxComponent : Nat
  maxPath : Nat
  separator : UInt8
  maxComponent_pos : 0 < maxComponent
  maxPath_pos : 0 < maxPath
  separator_ascii : separator < 0x80

inductive LimitsFault
  | componentNotPositive (n : Int)
  | pathNotPositive (n : Int)
  | separatorUnencodable (failure : Utf8.Strict.EncodeFailure)
  | separatorNotOneByte (separator : Text)

/-- The complaint that a limit is not positive, if the number can be written. -/
def notPositive (limit : Text) (n : Int) : Text :=
  match Numeral.boundedDecimal? n with
  | some shown => limit ++ " must be positive: " ++ shown
  | none => Numeral.tooManyDigits

def LimitsFault.message : LimitsFault → Text
  | .componentNotPositive n => notPositive "max_component_bytes" n
  | .pathNotPositive n => notPositive "max_path_bytes" n
  | .separatorUnencodable failure => failure.message
  | .separatorNotOneByte separator => "Path separator must be a single byte: " ++ separator.quoted

namespace Limits

def defaultMaxComponent : Nat := 255

def defaultMaxPath : Nat := 0x301

def defaultSeparator : Text := "/"

/-- Limits of 255 and 769 bytes, with a slash between components. -/
def default : Limits where
  maxComponent := defaultMaxComponent
  maxPath := defaultMaxPath
  separator := 0x2F
  maxComponent_pos := by decide
  maxPath_pos := by decide
  separator_ascii := by decide

/-- The byte of a separator, which has to be one ASCII character. -/
def separatorByte (separator : Text) : Except LimitsFault { b : UInt8 // b < 0x80 } :=
  match Utf8.Strict.encode separator with
  | .error failure => .error (.separatorUnencodable failure)
  | .ok _ =>
    match separator with
    | [c] =>
      if hs : c.val < 0x80 then
        .ok ⟨UInt8.ofNat c.val, by
          rw [UInt8.lt_iff_toNat_lt, UInt8.toNat_ofNat']
          show c.val % 256 < 128
          omega⟩
      else .error (.separatorNotOneByte separator)
    | _ => .error (.separatorNotOneByte separator)

/-- Limits from two numbers, if they are positive, and the byte of a separator. -/
def ofNumbers? (maxComponent maxPath : Int) (separator : { b : UInt8 // b < 0x80 }) : Option Limits :=
  if hc : maxComponent ≤ 0 then none
  else if hp : maxPath ≤ 0 then none
  else
    some {
      maxComponent := maxComponent.toNat
      maxPath := maxPath.toNat
      separator := separator.val
      maxComponent_pos := by omega
      maxPath_pos := by omega
      separator_ascii := separator.property }

/-- Limits from two numbers, which have to be positive, and a separator of one byte. -/
def make (maxComponent maxPath : Int) (separator : Text) : Except LimitsFault Limits :=
  if hc : maxComponent ≤ 0 then .error (.componentNotPositive maxComponent)
  else if hp : maxPath ≤ 0 then .error (.pathNotPositive maxPath)
  else
    (separatorByte separator).map fun byte =>
      { maxComponent := maxComponent.toNat
        maxPath := maxPath.toNat
        separator := byte.val
        maxComponent_pos := by omega
        maxPath_pos := by omega
        separator_ascii := byte.property }

def textOfSeparator (separator : UInt8) : Text :=
  [⟨separator.toNat, by have := separator.toNat_lt; omega⟩]

def separatorText (limits : Limits) : Text := textOfSeparator limits.separator

/-- The limits as a log line shows them, if their numbers can be written. -/
def shown? (limits : Limits) : Option Text :=
  match Numeral.boundedDecimal? limits.maxComponent, Numeral.boundedDecimal? limits.maxPath with
  | some component, some path =>
    some ("PathLimits(max_component_bytes=" ++ component ++ ", max_path_bytes=" ++ path
      ++ ", separator=" ++ limits.separatorText.quoted ++ ")")
  | _, _ => none

end Limits

end SafePath
