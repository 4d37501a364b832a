import SafePath.Utf8.Encoding
import SafePath.Text.Numeral
import SafePath.Text.Quoted

/-!
# UTF-8: the strict codec

Reading bytes as text, all or nothing.  This reader goes by the table of well-formed byte sequences:
the lead byte fixes how many bytes follow and which range the second one has, every later byte is a
continuation byte.  A failure tells which bytes are to blame: the lead byte and the bytes behind it
that were still in their ranges.

Writing text as bytes fails on surrogates; a failure names the whole run of them.
-/

namespace SafePath.Utf8.Strict

inductive Reason
  | badStart
  | badContinuation
  | cutShort
deriving DecidableEq

/-- The bytes from `start` up to `stop` are no character; `first` is the first of them. -/
structure DecodeFailure where
  start : Nat
  stop : Nat
  first : UInt8
  reason : Reason
deriving DecidableEq

/-- The ranges of the bytes that must follow a lead byte. -/
def followers (lead : UInt8) : Option (List (UInt8 × UInt8)) :=
  if lead < 0x80 then some []
  else if lead < 0xC2 then none
  else if lead < 0xE0 then some [(0x80, 0xBF)]
  else if lead = 0xE0 then some [(0xA0, 0xBF), (0x80, 0xBF)]
  else if lead = 0xED then some [(0x80, 0x9F), (0x80, 0xBF)]
  else if lead < 0xF0 then some [(0x80, 0xBF), (0x80, 0xBF)]
  else if lead = 0xF0 then some [(0x90, 0xBF), (0x80, 0xBF), (0x80, 0xBF)]
  else if lead < 0xF4 then some [(0x80, 0xBF), (0x80, 0xBF), (0x80, 0xBF)]
  else if lead = 0xF4 then some [(0x80, 0x8F), (0x80, 0xBF), (0x80, 0xBF)]
  else none

/-- How many leading bytes of `rest` are in the ranges, and whether one stands outside its range. -/
def inRanges : List (UInt8 × UInt8) → Bytes → Nat × Bool
  | [], _ => (0, false)
  | _ :: _, [] => (0, false)
  | (lo, hi) :: ranges, b :: rest =>
    if lo ≤ b ∧ b ≤ hi then
      let (n, outside) := inRanges ranges rest
      (n + 1, outside)
    else (0, true)

/-- The number that a lead byte with its followers stands for. -/
def valueOf (lead : UInt8) : Bytes → Nat
  | [] => lead.toNat
  | [b] => (lead.toNat - 0xC0) * 64 + (b.toNat - 0x80)
  | [b, c] => (lead.toNat - 0xE0) * 4096 + (b.toNat - 0x80) * 64 + (c.toNat - 0x80)
  | b :: c :: d :: _ =>
    (lead.toNat - 0xF0) * 262144 + (b.toNat - 0x80) * 4096 + (c.toNat - 0x80) * 64 + (d.toNat - 0x80)

/-- The bytes from `offset` on as text. -/
def decodeFrom (offset : Nat) : Bytes → Except DecodeFailure Text
  | [] => .ok []
  | lead :: rest =>
    match followers lead with
    | none => .error ⟨offset, offset + 1, lead, .badStart⟩
    | some ranges =>
      match inRanges ranges rest with
      | (n, outside) =>
        if n = ranges.length then
          match CodePoint.ofNat? (valueOf lead (rest.take n)) with
          | none => .error ⟨offset, offset + 1, lead, .badStart⟩
          | some c => (decodeFrom (offset + 1 + n) (rest.drop n)).map (c :: ·)
        else
          .error ⟨offset, offset + 1 + n, lead, if outside then .badContinuation else .cutShort⟩
termination_by data => data.length
decreasing_by simp only [List.length_cons, List.length_drop]; omega

/-- The bytes as text, if they are UTF-8 throughout. -/
def decode (data : Bytes) : Except DecodeFailure Text := decodeFrom 0 data

def Reason.message : Reason → Text
  | .badStart => "invalid start byte"
  | .badContinuation => "invalid continuation byte"
  | .cutShort => "unexpected end of data"

/-- One byte is shown by its value, several by the first and the last position. -/
def DecodeFailure.message (f : DecodeFailure) : Text :=
  if f.stop = f.start + 1 then
    "'utf-8' codec can't decode byte 0x" ++ Numeral.lowerHex 2 f.first.toNat ++ " in position "
      ++ Numeral.decimal f.start ++ ": " ++ f.reason.message
  else
    "'utf-8' codec can't decode bytes in position " ++ Numeral.decimal f.start ++ "-"
      ++ Numeral.decimal (f.stop - 1) ++ ": " ++ f.reason.message

/-- The code points from `start` up to `stop` have no encoding; `first` is the first of them. -/
structure EncodeFailure where
  start : Nat
  stop : Nat
  first : CodePoint
deriving DecidableEq

/-- The first place from which a code point of `refused` begins a run of surrogates, to the end of the run. -/
def refusedRun (refused : CodePoint → Bool) (offset : Nat) : Text → Option EncodeFailure
  | [] => none
  | c :: rest =>
    if refused c then
      some ⟨offset, offset + 1 + (rest.takeWhile fun d => decide d.IsSurrogate).length, c⟩
    else refusedRun refused (offset + 1) rest

/-- The bytes of a text without surrogates. -/
def encode (t : Text) : Except EncodeFailure Bytes :=
  match refusedRun (fun c => decide c.IsSurrogate) 0 t with
  | some failure => .error failure
  | none => .ok t.encode

/-- One code point is shown escaped, several by the first and the last position. -/
def EncodeFailure.message (f : EncodeFailure) : Text :=
  if f.stop = f.start + 1 then
    "'utf-8' codec can't encode character '" ++ Text.numericEscape f.first ++ "' in position "
      ++ Numeral.decimal f.start ++ ": surrogates not allowed"
  else
    "'utf-8' codec can't encode characters in position " ++ Numeral.decimal f.start ++ "-"
      ++ Numeral.decimal (f.stop - 1) ++ ": surrogates not allowed"

end SafePath.Utf8.Strict
