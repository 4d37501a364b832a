import SafePath.Argument.Raised
import SafePath.Argument.Scan
import SafePath.Name.Sanitize
import SafePath.Utf8.Boundary

/-!
# Cutting with untyped arguments

The cuts for a caller who may hand over anything.  Bytes and whole numbers go to the typed operations as
they are.  For all other values the order of the tests decides which misuse is found first, and a test
that is not reached finds none: no bytes are cut at zero, whatever the size and the budget are.  A result
that is the size or the budget itself is given back as it was given.
-/

namespace SafePath.Argument

/-! ## Cutting -/

/-- The walk to the last boundary below `budget`: `items` stand at `place`, `best` is the last boundary
so far, and `steps` bounds the number of code points. -/
def walkBelow (size budget stop : Argument) (steps place best : Nat) (items : List Argument) :
    Except Misuse Nat :=
  match steps with
  | 0 => .ok best
  | steps + 1 => do
    if !(← (integer place).compare .less size) then return best
    if !(← (integer place).compare .less budget) then return best
    match ← scanFront items place stop with
    | none => return best
    | some s =>
      if s.value.isSameNumber zero then return best
      let next := place + s.size
      let isBelow ← (integer next).compare .less budget
      walkBelow size budget stop steps next (if isBelow then next else best) (items.drop s.size)

/-- Where to cut the first `size` bytes of `data` so that less than `budget` bytes are kept; the size
itself if all of them fit. -/
def cutBelow (data size budget : Argument) : Except Misuse Argument :=
  match data.byteString?, size, budget with
  | some b, .integer s, .integer n => .ok (.integer (Utf8.cutBelow b s n))
  | _, _, _ => do
    if data.isEmpty then return zero
    if ← size.isAtMostZero then return zero
    if ← budget.isAtMostZero then return zero
    if ← budget.compare .atLeast size then return size
    if !(← zero.compare .less size) then return zero
    if !(← zero.compare .less budget) then return zero
    let items ← data.parts
    let stop ← stopOf items.length size
    return .integer (← walkBelow size budget stop (items.length + 1) 0 0 items)

/-- Where to cut the first `size` bytes of `element` so that at most `budget` bytes are kept. -/
def cutWithin (element size budget : Argument) : Except Misuse Argument :=
  match element.byteString?, size, budget with
  | some b, .integer s, .integer n => .ok (.integer (Utf8.cutWithin b s n))
  | _, _, _ => do
    if ← budget.compare .atLeast size then return size
    let boundary ← element.cutBelow size budget
    match ← element.scanAt boundary size, boundary.toInt? with
    | some s, some place =>
      if !s.value.isEmpty && (integer (place + s.size)).isSameNumber budget then return budget
      else return boundary
    | _, _ => return boundary

/-- Where to cut a value that should be a name: `cutBelow` for all of its bytes. -/
def cutPoint (value budget : Argument) : Except CallFault Argument :=
  match value.toName, budget with
  | .error fault, _ => .error (.fault fault)
  | .ok name, .integer n => .ok (.integer (Utf8.cutPoint name.toBytes n))
  | .ok name, _ =>
    let data := name.toBytes
    ((Argument.bytes data).cutBelow (.integer data.length) budget).mapError .misuse

/-! ## Forms -/

/-- `data` as text if `form` is text, else as it is. -/
def withBytes (form data : Argument) : Except CallFault Argument :=
  match form, data.byteString? with
  | .text _, none => .error (.misuse (.withoutMember data.kind "decode"))
  | .text t, some b => ((Name.text t).withBytes b).mapError CallFault.fault |>.map ofName
  | _, _ => .ok data

/-! ## Code points -/

/-- A number may not stand in a name; one that is not whole is placed by the order. -/
def isIllegal (asciiOnly : Bool) (value : Argument) : Except Misuse Bool :=
  match value, value.quantity? with
  | .list _, _ => .error (.unhashable value.kind)
  | .buffer _, _ => .error (.unhashable value.kind)
  | _, none => .error (.unordered Comparison.less.sign value.kind zero.kind)
  | _, some q =>
    match q.whole? with
    | some n => .ok (SafePath.isIllegal asciiOnly n)
    | none => .ok (q.isLess (.count 0x20) || (asciiOnly && (Quantity.count 0x7F).isLess q))

end SafePath.Argument
