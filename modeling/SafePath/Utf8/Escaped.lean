import SafePath.Utf8.Strict

/-!
# UTF-8 with escaped bytes

Any byte string as text, without loss: a byte that belongs to no character becomes the surrogate
`0xDC00` plus the byte.  Only bytes from `0x80` on are ever escaped, so ASCII means itself, and
writing the text back gives the bytes again.  File names, environment variables and names files are
read this way.
-/

namespace SafePath.Utf8.Escaped

/-- The surrogate that stands for a byte. -/
def escapedByte (b : UInt8) : CodePoint :=
  ⟨0xDC00 + b.toNat, by have := b.toNat_lt; omega⟩

/-- The byte that a surrogate stands for, if it stands for one. -/
def byte? (c : CodePoint) : Option UInt8 :=
  if 0xDC80 ≤ c.val ∧ c.val ≤ 0xDCFF then some (UInt8.ofNat (c.val - 0xDC00)) else none

/-- The bytes as text: characters where the table of the strict codec finds them, and every byte that it
blames escaped. -/
def decode : Bytes → Text
  | [] => []
  | lead :: rest =>
    match Strict.followers lead with
    | none => escapedByte lead :: decode rest
    | some ranges =>
      let n := (Strict.inRanges ranges rest).1
      if n = ranges.length then
        match CodePoint.ofNat? (Strict.valueOf lead (rest.take n)) with
        | some c => c :: decode (rest.drop n)
        | none => escapedByte lead :: decode rest
      else (lead :: rest.take n).map escapedByte ++ decode (rest.drop n)
termination_by data => data.length
decreasing_by all_goals simp only [List.length_cons, List.length_drop]; omega

/-- The bytes of a code point: one byte for an escaped byte. -/
def encodePoint (c : CodePoint) : Bytes :=
  match byte? c with
  | some b => [b]
  | none => encodeValue c.val

/-- The bytes of a text whose surrogates all stand for bytes. -/
def encode (t : Text) : Except Strict.EncodeFailure Bytes :=
  match Strict.refusedRun (fun c => decide c.IsSurrogate && (byte? c).isNone) 0 t with
  | some failure => .error failure
  | none => .ok (t.flatMap encodePoint)

/-- A text as it comes back after a passage through bytes. -/
def normalise (t : Text) : Text :=
  match encode t with
  | .ok data => decode data
  | .error _ => t

end SafePath.Utf8.Escaped
