import SafePath.Utf8.Encoding

/-!
# UTF-8: reading one code point after the other

`scanHead` reads the code point at the front of a byte string: it takes the count of bytes and the
top bits from the lead byte, six bits from each continuation byte, and refuses a value that is not
scalar or that a shorter form would have held.  So a sequence is read as a whole or not at all, and
what is read is always the one encoding of its value.

`scan` reads on until the bytes end or do not go on as UTF-8; `scannedLength` is where it stops.
`read` does the same for a caller who may want to be told: a strict reading is refused there.
-/

namespace SafePath.Utf8

/-- A code point that was read, and how many bytes it took. -/
structure Scanned where
  value : Nat
  size : Nat
deriving DecidableEq

/-- The byte count and the top bits that a lead byte announces. -/
def leadShape (lead : UInt8) : Option (Nat × Nat) :=
  if lead < 0x80 then some (1, lead.toNat)
  else if lead < 0xC2 then none
  else if lead < 0xE0 then some (2, lead.toNat % 32)
  else if lead < 0xF0 then some (3, lead.toNat % 16)
  else if lead < 0xF5 then some (4, lead.toNat % 8)
  else none

/-- `10xxxxxx`, the form of every byte after the lead. -/
def isContinuation (b : UInt8) : Bool := b &&& 0xC0 == 0x80

/-- The value with the six low bits of `b` appended. -/
def appendBits (value : Nat) (b : UInt8) : Nat := value * 64 + b.toNat % 64

/-- The code point at the front, or nothing where no encoding of a scalar value stands. -/
def scanHead : Bytes → Option Scanned
  | [] => none
  | lead :: rest =>
    match leadShape lead with
    | none => none
    | some (size, top) =>
      let tail := rest.take (size - 1)
      let value := tail.foldl appendBits top
      if tail.length = size - 1 ∧ tail.all isContinuation ∧ encodedSize value = size ∧ IsScalar value then
        some ⟨value, size⟩
      else none

theorem leadShape_size_pos {lead : UInt8} {size top : Nat} (h : leadShape lead = some (size, top)) :
    0 < size := by
  unfold leadShape at h
  repeat' split at h
  all_goals simp_all
  all_goals omega

/-- What is read takes at least one byte, and no more than there are. -/
theorem scanHead_size {data : Bytes} {s : Scanned} (h : scanHead data = some s) :
    0 < s.size ∧ s.size ≤ data.length := by
  cases data with
  | nil => simp [scanHead] at h
  | cons lead rest =>
    simp only [scanHead] at h
    split at h
    · simp at h
    · next size top hl =>
      split at h
      · next hc =>
        have hs := leadShape_size_pos hl
        simp only [Option.some.injEq] at h
        subst h
        have hlen := hc.1
        simp only [List.length_take] at hlen
        simp only [List.length_cons]
        omega
      · simp at h

/-- The bytes from `pos` up to `stop`, or up to the end where `stop` is absent or beyond it. -/
def window (data : Bytes) (pos : Nat) (stop : Option Int) : Bytes :=
  match stop with
  | none => data.drop pos
  | some e => (data.take e.toNat).drop pos

/-- The code point at `pos`, read from the bytes before `stop` alone. -/
def scanAt (data : Bytes) (pos : Int) (stop : Option Int) : Option Scanned :=
  if pos < 0 then none else scanHead (window data pos.toNat stop)

/-- A code point and the offset it was read at. -/
structure Located where
  offset : Nat
  scanned : Scanned
deriving DecidableEq

/-- The code points from the front on, the first of them at `offset`. -/
def scanFrom (offset : Nat) (data : Bytes) : List Located :=
  match _h : scanHead data with
  | none => []
  | some s => ⟨offset, s⟩ :: scanFrom (offset + s.size) (data.drop s.size)
termination_by data.length
decreasing_by
  have := scanHead_size _h
  simp only [List.length_drop]
  omega

/-- The code points of `data` up to where it stops being UTF-8. -/
def scan (data : Bytes) : List Located := scanFrom 0 data

/-- How many bytes `scan` reads. -/
def scannedLength (data : Bytes) : Nat := (scan data).foldr (fun l n => l.scanned.size + n) 0

/-- The offset at which `data` stops being UTF-8, if it does. -/
def malformedAt (data : Bytes) : Option Nat :=
  if scannedLength data < data.length then some (scannedLength data) else none

/-- What a reading came to: its code points, and the offset at which it was refused, if it was. -/
structure Reading where
  found : List Located
  refusedAt : Option Nat
deriving DecidableEq

/-- A reading from the front on, the first code point at `offset`.  It ends where no code point stands; if
bytes are left there, a strict reading is refused. -/
def readFrom (strict : Bool) (offset : Nat) (data : Bytes) : Reading :=
  if data = [] then ⟨[], none⟩
  else
    match _h : scanHead data with
    | none => ⟨[], if strict then some offset else none⟩
    | some s =>
      let rest := readFrom strict (offset + s.size) (data.drop s.size)
      ⟨⟨offset, s⟩ :: rest.found, rest.refusedAt⟩
termination_by data.length
decreasing_by
  have := scanHead_size _h
  simp only [List.length_drop]
  omega

/-- The reading of all of `data`. -/
def read (strict : Bool) (data : Bytes) : Reading := readFrom strict 0 data

end SafePath.Utf8
