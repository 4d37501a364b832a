import SafePath.Name.Basic
import SafePath.Size
import SafePath.Text.Numeral

/-!
# Arguments from an untyped caller

A caller without static types may hand over any value where a name, a size or bytes are wanted.
`Argument` is such a value; the functions below take it as what the library expects, or refuse it by
the name of its kind.  An empty or zero value of any kind counts as an absent part of a path.
-/

namespace SafePath

/-- A value of any kind. -/
inductive Argument
  | absent
  | flag (b : Bool)
  | integer (n : Int)
  | real (x : Binary64)
  | text (t : Text)
  | bytes (b : Bytes)
  | buffer (b : Bytes)
  | list (items : List Argument)

instance : Inhabited Argument := ⟨.absent⟩

inductive ByteSourceFault
  | negativeCount
  | countTooLarge
  | tooManyBytes
  | outOfMemory
  | byteOutOfRange
  | textWithoutEncoding
  | notBytes (kind : String)
  | itemNotInteger (kind : String)

def ByteSourceFault.message : ByteSourceFault → Text
  | .negativeCount => "negative count"
  | .countTooLarge => "cannot fit 'int' into an index-sized integer"
  | .tooManyBytes => "byte string is too large"
  | .outOfMemory => ""
  | .byteOutOfRange => "bytes must be in range(0, 256)"
  | .textWithoutEncoding => "string argument without an encoding"
  | .notBytes kind => "cannot convert '" ++ Text.ofString kind ++ "' object to bytes"
  | .itemNotInteger kind => "'" ++ Text.ofString kind ++ "' object cannot be interpreted as an integer"

inductive SizeFault
  | notANumber (kind : String)
  | tooLarge

def SizeFault.message : SizeFault → Text
  | .notANumber kind => "bad operand type for abs(): '" ++ Text.ofString kind ++ "'"
  | .tooLarge => "int too large to convert to float"

namespace Argument

def kind : Argument → String
  | .absent => "NoneType"
  | .flag _ => "bool"
  | .integer _ => "int"
  | .real _ => "float"
  | .text _ => "str"
  | .bytes _ => "bytes"
  | .buffer _ => "bytearray"
  | .list _ => "list"

/-- The value is empty, zero or absent. -/
def isEmpty : Argument → Bool
  | .absent => true
  | .flag b => !b
  | .integer n => n == 0
  | .real x => x.isZero
  | .text t => t.isEmpty
  | .bytes b => b.isEmpty
  | .buffer b => b.isEmpty
  | .list items => items.isEmpty

def toName : Argument → Except Fault Name
  | .text t => .ok (.text t)
  | .bytes b => .ok (.bytes b)
  | .buffer b => .ok (.bytes b)
  | other => .error (.notAName other.kind)

def ofName : Name → Argument
  | .text t => .text t
  | .bytes b => .bytes b

/-- The value as an optional part of a path. -/
def toPart (a : Argument) : Except Fault (Option Name) :=
  if a.isEmpty then .ok none else a.toName.map some

/-- The value as an integer; a flag counts as one or zero. -/
def toInt? : Argument → Option Int
  | .integer n => some n
  | .flag b => some (if b then 1 else 0)
  | _ => none

def quantity? : Argument → Option Quantity
  | .real x => some (.measure x)
  | a => a.toInt?.map .count

def toQuantity (a : Argument) : Except SizeFault Quantity :=
  match a.quantity? with
  | some q => .ok q
  | none => .error (.notANumber a.kind)

def toByte (a : Argument) : Except ByteSourceFault UInt8 :=
  match a.toInt? with
  | none => .error (.itemNotInteger a.kind)
  | some n => if 0 ≤ n ∧ n < 256 then .ok (UInt8.ofNat n.toNat) else .error .byteOutOfRange

/-- The first count that is too large for an index. -/
def indexBound : Nat := Nat.pow 2 63

/-- What a byte string takes besides its bytes. -/
def bytesOverhead : Nat := 33

/-- `n` zero bytes, where there is room for `room` bytes. -/
def zeroBytes (room : Nat) (n : Int) : Except ByteSourceFault Bytes :=
  if n < -indexBound ∨ indexBound ≤ n then .error .countTooLarge
  else if n < 0 then .error .negativeCount
  else if indexBound ≤ n + bytesOverhead then .error .tooManyBytes
  else if room < n then .error .outOfMemory
  else .ok (List.replicate n.toNat 0)

/-- The bytes that a value holds, lists or counts. -/
def toBytes (room : Nat) : Argument → Except ByteSourceFault Bytes
  | .bytes b => .ok b
  | .buffer b => .ok b
  | .integer n => zeroBytes room n
  | .flag b => zeroBytes room (if b then 1 else 0)
  | .list items => items.mapM toByte
  | .text _ => .error .textWithoutEncoding
  | other => .error (.notBytes other.kind)

def hex (room : Nat) (capital : Bool) (a : Argument) : Except ByteSourceFault Text :=
  (a.toBytes room).map (hexOfBytes capital)

def formatSize (a : Argument) : Except SizeFault Text :=
  match a.toQuantity with
  | .error fault => .error fault
  | .ok q =>
    match q.format? with
    | some t => .ok t
    | none => .error .tooLarge

end Argument

end SafePath
