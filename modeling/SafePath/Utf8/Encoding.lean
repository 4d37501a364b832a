import SafePath.Text.Basic

/-!
# UTF-8: the encoding

`encodeValue` writes one number as one to four bytes, `Text.encode` a text.  Only scalar values have
a place in UTF-8; a surrogate is written by the same rule as its neighbours, and the three bytes that
come out are then refused by every reader.  `WellFormed` says which byte strings are UTF-8: the
concatenations of encodings of scalar values.
-/

namespace SafePath

abbrev Bytes := List UInt8

namespace Utf8

/-- The numbers that stand for a character. -/
def IsScalar (v : Nat) : Prop := v < 0xD800 ∨ (0xDFFF < v ∧ v < 0x110000)

instance (v : Nat) : Decidable (IsScalar v) := by unfold IsScalar; infer_instance

/-- How many bytes a number below `0x110000` takes. -/
def encodedSize (v : Nat) : Nat :=
  if v < 0x80 then 1 else if v < 0x800 then 2 else if v < 0x10000 then 3 else 4

/-- A continuation byte with the low six bits of `v`. -/
def continuation (v : Nat) : UInt8 := UInt8.ofNat (0x80 + v % 64)

/-- The bytes of a number below `0x110000`: a lead byte that tells their count, then six bits each. -/
def encodeValue (v : Nat) : Bytes :=
  if v < 0x80 then [UInt8.ofNat v]
  else if v < 0x800 then [UInt8.ofNat (0xC0 + v / 64), continuation v]
  else if v < 0x10000 then
    [UInt8.ofNat (0xE0 + v / 4096), continuation (v / 64), continuation v]
  else
    [UInt8.ofNat (0xF0 + v / 262144), continuation (v / 4096), continuation (v / 64), continuation v]

/-- A byte string is UTF-8 if it is cut into encodings of scalar values. -/
inductive WellFormed : Bytes → Prop
  | nil : WellFormed []
  | cons {v : Nat} {rest : Bytes} (scalar : IsScalar v) (tail : WellFormed rest) :
    WellFormed (encodeValue v ++ rest)

end Utf8

/-- The bytes of a text, surrogates included. -/
def Text.encode (t : Text) : Bytes := t.flatMap fun c => Utf8.encodeValue c.val

end SafePath
