import SafePath.Argument
import SafePath.Argument.Misuse

/-!
# The order of untyped values

Numbers of all kinds are compared by their exact values, texts by their code points, byte strings by
their bytes, and lists by the first place at which they differ.  All other values have no order, and to
compare them is a misuse.
-/

namespace SafePath.Argument

inductive Comparison
  | less
  | atMost
  | atLeast

def Comparison.sign : Comparison → String
  | .less => "<"
  | .atMost => "<="
  | .atLeast => ">="

/-- The comparison holds of values in this order; of values without a place in it, it does not. -/
def Comparison.holds : Comparison → Option Ordering → Bool
  | _, none => false
  | .less, some o => o == .lt
  | .atMost, some o => o != .gt
  | .atLeast, some o => o != .lt

def byteString? : Argument → Option Bytes
  | .bytes b => some b
  | .buffer b => some b
  | _ => none

/-- Both values are numbers, and equal. -/
def isSameNumber (x y : Argument) : Bool :=
  match x.quantity?, y.quantity? with
  | some p, some q => p.isEqual q
  | _, _ => false

mutual

/-- The values are equal: as numbers, texts, byte strings, or item by item. -/
def isSame : Argument → Argument → Bool
  | .list xs, .list ys => areSame xs ys
  | .absent, .absent => true
  | .text s, .text t => s == t
  | x, y =>
    match x.byteString?, y.byteString? with
    | some a, some b => a == b
    | _, _ => x.isSameNumber y

/-- The values are equal one by one. -/
def areSame : List Argument → List Argument → Bool
  | [], [] => true
  | x :: xs, y :: ys => isSame x y && areSame xs ys
  | _, _ => false

end

mutual

def compare (comparison : Comparison) : Argument → Argument → Except Misuse Bool
  | .list xs, .list ys => compareItems comparison xs ys
  | .text s, .text t =>
    .ok (comparison.holds (some (Ord.compare (s.map (·.val)) (t.map (·.val)))))
  | x, y =>
    match x.quantity?, y.quantity?, x.byteString?, y.byteString? with
    | some p, some q, _, _ => .ok (comparison.holds (p.order? q))
    | _, _, some a, some b =>
      .ok (comparison.holds (some (Ord.compare (a.map (·.toNat)) (b.map (·.toNat)))))
    | _, _, _, _ => .error (.unordered comparison.sign x.kind y.kind)

/-- A comparison of two lists, by the first place at which they differ. -/
def compareItems (comparison : Comparison) : List Argument → List Argument → Except Misuse Bool
  | [], [] => .ok (comparison.holds (some .eq))
  | [], _ :: _ => .ok (comparison.holds (some .lt))
  | _ :: _, [] => .ok (comparison.holds (some .gt))
  | x :: xs, y :: ys => if isSame x y then compareItems comparison xs ys else compare comparison x y

end

def zero : Argument := .integer 0

def isAtMostZero (x : Argument) : Except Misuse Bool := x.compare .atMost zero

end SafePath.Argument
