import SafePath.Text.Basic
import SafePath.Text.Numeral

/-!
# Misuse by an untyped caller

A caller without static types can hand over a value of a kind that an operation does not take.  There
is one constructor for each way in which the operation then fails, and one wording for each; kinds are
called by their names.
-/

namespace SafePath

/-- Why an operation does not take its arguments. -/
inductive Misuse
  /-- Values of these two kinds have no order. -/
  | unordered (sign left right : String)
  | withoutLength (kind : String)
  /-- A value that is no whole number stands for a place in `container`. -/
  | notAPlace (container kind : String)
  /-- There is no such place in `container`. -/
  | noSuchPlace (container : String)
  /-- There is no such place in anything. -/
  | placeTooFar
  /-- Values of these two kinds cannot be put together so. -/
  | withoutOperation (sign left right : String)
  /-- An operation takes nothing by this name. -/
  | unexpected (operation name : String)
  /-- A part is to be cut off at a place that is no whole number. -/
  | cutBetweenPlaces
  /-- A value of this kind is in no set. -/
  | unhashable (kind : String)
  | withoutMember (kind member : String)
  /-- A text does not hold values of this kind. -/
  | notInText (kind : String)
  /-- A byte string does not begin with a text. -/
  | beginsWithText
  /-- A value of this kind has written forms, but no hexadecimal one. -/
  | notHexadecimal (kind : String)
  /-- A value of this kind has one written form only. -/
  | withoutForms (kind : String)
  | missing (operation : String) (names : List String)
  /-- More values than an operation takes; the least and the greatest number count the receiver. -/
  | tooMany (operation : String) (least most given : Nat)

namespace Misuse

/-- Names in quotes. -/
def listed (names : List String) : Text :=
  Text.join " and " (names.map fun name => "'" ++ Text.ofString name ++ "'")

/-- How places in a container are called. -/
def placesOf (container : String) : Text :=
  if container = "bytes" then "byte indices" else Text.ofString container ++ " indices"

/-- How a container is called when a place in it is missing. -/
def containerOf (container : String) : Text :=
  match container with
  | "bytes" => []
  | "str" => "string "
  | other => Text.ofString other ++ " "

def message : Misuse → Text
  | .unordered sign left right =>
    "'" ++ Text.ofString sign ++ "' not supported between instances of '" ++ Text.ofString left
      ++ "' and '" ++ Text.ofString right ++ "'"
  | .withoutLength kind => "object of type '" ++ Text.ofString kind ++ "' has no len()"
  | .notAPlace container kind =>
    if container = "str" then "string indices must be integers, not '" ++ Text.ofString kind ++ "'"
    else placesOf container ++ " must be integers or slices, not " ++ Text.ofString kind
  | .noSuchPlace container => containerOf container ++ "index out of range"
  | .placeTooFar => "cannot fit 'int' into an index-sized integer"
  | .withoutOperation sign left right =>
    "unsupported operand type(s) for " ++ Text.ofString sign ++ ": '" ++ Text.ofString left
      ++ "' and '" ++ Text.ofString right ++ "'"
  | .unexpected operation name =>
    Text.ofString operation ++ "() got an unexpected keyword argument '" ++ Text.ofString name ++ "'"
  | .cutBetweenPlaces => "slice indices must be integers or None or have an __index__ method"
  | .unhashable kind => "unhashable type: '" ++ Text.ofString kind ++ "'"
  | .withoutMember kind member =>
    "'" ++ Text.ofString kind ++ "' object has no attribute '" ++ Text.ofString member ++ "'"
  | .notInText kind => "'in <string>' requires string as left operand, not " ++ Text.ofString kind
  | .beginsWithText => "startswith first arg must be bytes or a tuple of bytes, not str"
  | .notHexadecimal kind => "Unknown format code 'X' for object of type '" ++ Text.ofString kind ++ "'"
  | .withoutForms kind => "unsupported format string passed to " ++ Text.ofString kind ++ ".__format__"
  | .missing operation names =>
    Text.ofString operation ++ "() missing " ++ Numeral.decimal names.length
      ++ " required positional argument" ++ (if names.length = 1 then ": " else "s: ") ++ listed names
  | .tooMany operation least most given =>
    Text.ofString operation ++ "() takes "
      ++ (if least = most then Numeral.decimal most
          else "from " ++ Numeral.decimal least ++ " to " ++ Numeral.decimal most)
      ++ " positional arguments but " ++ Numeral.decimal given ++ " were given"

end Misuse

end SafePath
