/-!
# Text: sequences of code points

A `CodePoint` is any number below `0x110000`.  Surrogates are code points too, and a text may hold
them alone: a name read from outside can carry bytes that no character stands for (see
`SafePath.Utf8.Escaped`).  So text is a list of code points and not a `String`, whose characters are
scalar values only; `Text.ofString` brings a `String` over and is used for all fixed wording.
-/

namespace SafePath

/-- A number below `0x110000`: a Unicode scalar value or a surrogate. -/
structure CodePoint where
  val : Nat
  lt : val < 0x110000
deriving DecidableEq

/-- A sequence of code points. -/
abbrev Text := List CodePoint

namespace CodePoint

/-- The code points `0xD800` to `0xDFFF`, which stand for no character. -/
def IsSurrogate (c : CodePoint) : Prop := 0xD800 ≤ c.val ∧ c.val ≤ 0xDFFF

instance (c : CodePoint) : Decidable c.IsSurrogate := by unfold IsSurrogate; infer_instance

def ofChar (c : Char) : CodePoint :=
  ⟨c.toNat, by
    have h := c.valid
    simp only [UInt32.isValidChar, Nat.isValidChar] at h
    show c.val.toNat < _
    omega⟩

instance : Inhabited CodePoint := ⟨ofChar 'A'⟩

def ofNat? (n : Nat) : Option CodePoint :=
  if h : n < 0x110000 then some ⟨n, h⟩ else none

def is (c : CodePoint) (k : Char) : Bool := c.val == k.toNat

end CodePoint

namespace Text

/-- The characters of a `String`, in order. -/
def ofString (s : String) : Text := s.toList.map CodePoint.ofChar

instance : Coe String Text := ⟨ofString⟩

def startsWith (t head : Text) : Bool := head.isPrefixOf t

/-- `t` without the code points of `p` at its two ends. -/
def stripWhere (p : CodePoint → Bool) (t : Text) : Text :=
  ((t.dropWhile p).reverse.dropWhile p).reverse

/-- `part` stands somewhere in `t`, without a gap. -/
def contains (part : Text) : Text → Bool
  | [] => part.isEmpty
  | c :: rest => part.isPrefixOf (c :: rest) || contains part rest

/-- The pieces of `t` between the code points of `p`; there is one more piece than such code points. -/
def splitWhere (p : CodePoint → Bool) : Text → List Text
  | [] => [[]]
  | c :: rest =>
    if p c then [] :: splitWhere p rest
    else
      match splitWhere p rest with
      | [] => [[c]]
      | piece :: pieces => (c :: piece) :: pieces

/-- The pieces in order, with `separator` between each two. -/
def join (separator : Text) (pieces : List Text) : Text := separator.intercalate pieces

/-- `A` to `Z` in lower case; every other code point is kept. -/
def asciiLower (t : Text) : Text :=
  t.map fun c =>
    if h : 0x41 ≤ c.val ∧ c.val ≤ 0x5A then ⟨c.val + 0x20, by omega⟩ else c

end Text

end SafePath
