import SafePath.Argument.Order
import SafePath.Utf8.Scan

/-!
# Reading UTF-8 from untyped items

Bytes and whole numbers go to the typed reader.  Any other value with items is read item by item, as if
its items were bytes: the first one is compared with the bounds of lead bytes, so it has to be a number,
and the bits of it and of those behind it are taken, so these have to be whole.  An item that is not
looked at may be anything.

Reading stops in front of `stop`, which need not be whole.  A code point of one item has to begin in front
of it, a longer one to end there.  If `stop` is no number in the order, nothing is found to end too late,
and bits of items that are not there are left out.
-/

namespace SafePath

/-- A code point that was read from items, and how many of them it takes. -/
structure LooseScanned where
  value : Argument
  size : Nat

def LooseScanned.ofScanned (s : Utf8.Scanned) : LooseScanned := ⟨.integer s.value, s.size⟩

/-- The code points of items with their places, and how the reading ended: by a misuse, or at the place where
a strict one is refused, or without either. -/
structure LooseScan where
  found : List (Nat × LooseScanned)
  ending : Except Misuse (Option Nat)

namespace Argument

def parts : Argument → Except Misuse (List Argument)
  | .bytes b => .ok (b.map fun x => .integer x.toNat)
  | .buffer b => .ok (b.map fun x => .integer x.toNat)
  | .text t => .ok (t.map fun c => .text [c])
  | .list items => .ok items
  | other => .error (.withoutLength other.kind)

/-- The value as a whole number whose bits can be taken. -/
def bits (a : Argument) : Except Misuse Int :=
  match a.toInt? with
  | some n => .ok n
  | none => .error (.withoutOperation "&" a.kind zero.kind)

/-- How many items a lead announces, and how many values its own bits can have. -/
def leadShape (lead : Argument) : Except Misuse (Option (Nat × Nat)) := do
  if ← lead.compare .less (.integer 0xC2) then return none
  if ← lead.compare .less (.integer 0xE0) then return some (2, 32)
  if ← lead.compare .less (.integer 0xF0) then return some (3, 16)
  if ← lead.compare .less (.integer 0xF5) then return some (4, 8)
  return none

/-- The value with the bits of the items behind the lead, if all of them continue it. -/
def continued (value : Nat) : List Argument → Except Misuse (Option Nat)
  | [] => .ok (some value)
  | item :: rest => do
    let n ← item.bits
    if n % 256 / 64 = 2 then continued (value * 64 + (n % 64).toNat) rest else return none

/-- The value is not too small for its count of items, and a scalar value. -/
def isProper (size value : Nat) : Bool :=
  !(size == 3 && decide (value < 0x800)) && !(size == 4 && decide (value < 0x10000))
    && decide (Utf8.IsScalar value)

/-- The code point at the front of `items`, which stand at `place`. -/
def scanFront (items : List Argument) (place : Nat) (stop : Argument) :
    Except Misuse (Option LooseScanned) :=
  match items with
  | [] => .ok none
  | lead :: rest => do
    if ← lead.compare .less (.integer 0x80) then return some ⟨lead, 1⟩
    match ← leadShape lead with
    | none => return none
    | some (size, room) =>
      let top ← lead.bits
      if ← stop.compare .less (.integer (place + size)) then return none
      match ← continued (top % room).toNat (rest.take (size - 1)) with
      | none => return none
      | some value => return if isProper size value then some ⟨.integer value, size⟩ else none

/-- Where the reading of `length` items stops. -/
def stopOf (length : Nat) (stop : Argument) : Except Misuse Argument :=
  match stop with
  | .absent => .ok (.integer length)
  | other => do
    if ← (integer length).compare .less other then .ok (.integer length) else .ok other

/-- A value as a place among `length` items of a container. -/
def placeIn (container : String) (length : Nat) (place : Argument) : Except Misuse Nat :=
  match place.toInt? with
  | none => .error (.notAPlace container place.kind)
  | some p =>
    if indexBound ≤ p then .error .placeTooFar
    else if length ≤ p then .error (.noSuchPlace container)
    else .ok p.toNat

/-- The code point at `place`, read from the items before `stop` alone. -/
def scanAt (data place stop : Argument) : Except Misuse (Option LooseScanned) :=
  match data.byteString?, place, stop with
  | some b, .integer p, .integer e => .ok ((Utf8.scanAt b p (some e)).map .ofScanned)
  | some b, .integer p, .absent => .ok ((Utf8.scanAt b p none).map .ofScanned)
  | _, _, _ => do
    let items ← data.parts
    let stop ← stopOf items.length stop
    if ← place.compare .less zero then return none
    if ← place.compare .atLeast stop then return none
    let p ← placeIn data.kind items.length place
    scanFront (items.drop p) p stop

/-- The code points at all places of `data`, from the one before the first to the one behind the last. -/
def scanEach (data stop : Argument) : Except Misuse (List (Option LooseScanned)) := do
  let items ← data.parts
  (List.range (items.length + 2)).mapM fun (i : Nat) => data.scanAt (.integer ((i : Int) - 1)) stop

/-- The code points of `items`, which stand at `place`, one after the other; `steps` bounds their number. -/
def scanParts (strict : Bool) (stop : Argument) : Nat → Nat → List Argument → LooseScan
  | _, _, [] => ⟨[], .ok none⟩
  | 0, _, _ => ⟨[], .ok none⟩
  | steps + 1, place, items =>
    match scanFront items place stop with
    | .error misuse => ⟨[], .error misuse⟩
    | .ok none => ⟨[], .ok (if strict then some place else none)⟩
    | .ok (some s) =>
      let rest := scanParts strict stop steps (place + s.size) (items.drop s.size)
      ⟨(place, s) :: rest.found, rest.ending⟩

/-- The code points of a value, up to where it cannot be read on; there a strict reading is refused. -/
def scan (strict : Bool) (data : Argument) : LooseScan :=
  match data.byteString?, data.parts with
  | some b, _ =>
    let reading := Utf8.read strict b
    ⟨reading.found.map fun l => (l.offset, .ofScanned l.scanned), .ok reading.refusedAt⟩
  | none, .error misuse => ⟨[], .error misuse⟩
  | none, .ok items => scanParts strict (.integer items.length) items.length 0 items

end Argument

end SafePath
