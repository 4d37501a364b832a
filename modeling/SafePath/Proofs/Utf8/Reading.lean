import Mathlib.Data.Set.List
import SafePath.Proofs.Utf8.Boundary
import SafePath.Proofs.Utf8.Values

/-!
# What is read

The encoding of a code point is read wherever it stands, and nothing else is.  At one place, in front of
an end, the character that stands there is read (`scanAt_eq_some_iff`):

    scanAt data pos stop = ⟨v, n⟩ exactly if the `n` bytes from `pos` on are the encoding of `v`

From the front on, code point after code point: a reading comes to the last boundary of all, and a strict one
is refused exactly if bytes are left behind it.

    read strict data = ⟨scan data, if strict then malformedAt data else none⟩     (read_eq)
    encodings of what is scanned = data.take (scannedLength data)                 (flatMap_encodeValue_scan)

Encodings are compared with those of the characters of a `String`, so no encoder of our own has to be
trusted (`encodeValue_toNat`).
-/

namespace SafePath.Utf8

/-! ## Characters -/

/-- The scalar values are the characters. -/
theorem isScalar_iff_exists_char {v : Nat} : IsScalar v ↔ ∃ c : Char, c.toNat = v := by
  constructor
  · intro hv
    exact ⟨Char.ofNatAux v hv, rfl⟩
  · rintro ⟨c, rfl⟩
    exact c.valid

/-- **The encoding of a scalar value is that of the character.** -/
theorem encodeValue_toNat (c : Char) : encodeValue c.toNat = String.utf8EncodeChar c := by
  have hlt : c.toNat < 0x110000 := (CodePoint.ofChar c).lt
  have hval : c.val.toNat = c.toNat := rfl
  unfold encodeValue String.utf8EncodeChar continuation
  simp only [hval]
  generalize c.toNat = v at hlt
  by_cases h1 : v < 0x80
  · rw [if_pos h1, if_pos (by omega)]
  by_cases h2 : v < 0x800
  · rw [if_neg h1, if_pos h2, if_neg (by omega), if_pos (by omega)]
    simp only [List.cons.injEq, and_true]
    exact ⟨by congr 1; omega, by congr 1; omega⟩
  by_cases h3 : v < 0x10000
  · rw [if_neg h1, if_neg h2, if_pos h3, if_neg (by omega), if_neg (by omega), if_pos (by omega)]
    simp only [List.cons.injEq, and_true]
    exact ⟨by congr 1; omega, by congr 1; omega, by congr 1; omega⟩
  · rw [if_neg h1, if_neg h2, if_neg h3, if_neg (by omega), if_neg (by omega), if_neg (by omega)]
    simp only [List.cons.injEq, and_true]
    exact ⟨by congr 1; omega, by congr 1; omega, by congr 1; omega, by congr 1; omega⟩

theorem flatMap_encodeValue_map_toNat (cs : List Char) :
    (cs.map Char.toNat).flatMap encodeValue = cs.flatMap String.utf8EncodeChar := by
  rw [List.flatMap_map]
  congr 1
  funext c
  exact encodeValue_toNat c

/-- Scalar values are the numbers of characters. -/
theorem exists_chars_of_isScalar {vs : List Nat} (h : ∀ v ∈ vs, IsScalar v) :
    ∃ cs : List Char, cs.map Char.toNat = vs := by
  have hrange : vs ∈ Set.range (List.map Char.toNat) := by
    rw [Set.range_list_map]
    exact fun v hv => isScalar_iff_exists_char.mp (h v hv)
  exact hrange

/-! ## At one place -/

/-- Where the reading of `data` ends: in front of `stop`, but not behind the last byte. -/
def readEnd (data : Bytes) (stop : Option Int) : Int :=
  match stop with
  | none => data.length
  | some e => min e data.length

/-- The bytes from `pos` on that a reading may look at. -/
def between (data : Bytes) (pos : Int) (stop : Option Int) : Bytes :=
  (data.take (readEnd data stop).toNat).drop pos.toNat

/-- The `n` bytes from `pos` on are the encoding of the character `c`, and they are all in front of the end. -/
structure StandsAt (data : Bytes) (pos : Int) (stop : Option Int) (c : Char) (n : Nat) : Prop where
  start : 0 ≤ pos
  inside : pos + n ≤ readEnd data stop
  bytes : (data.drop pos.toNat).take n = String.utf8EncodeChar c

section
variable (data : Bytes) (pos : Int) (stop : Option Int)

theorem window_eq_between : window data pos.toNat stop = between data pos stop := by
  unfold window between readEnd
  cases stop with
  | none => rw [Int.toNat_natCast, List.take_length]
  | some e =>
    show (data.take e.toNat).drop pos.toNat = (data.take (min e data.length).toNat).drop pos.toNat
    rcases Int.le_total e data.length with h | h
    · rw [Int.min_eq_left h]
    · rw [Int.min_eq_right h, Int.toNat_natCast, List.take_length, List.take_of_length_le (by omega)]

/-- What is read depends on the bytes between the place and the end alone. -/
theorem scanAt_eq_scanHead : scanAt data pos stop = if pos < 0 then none else scanHead (between data pos stop) := by
  rw [scanAt, window_eq_between]

theorem readEnd_le_length : readEnd data stop ≤ data.length := by
  unfold readEnd
  split
  · exact Int.le_refl _
  · exact Int.min_le_right _ _

/-- An encoding stands at the front of the bytes that may be looked at exactly if it stands at the place and
ends in front of the end. -/
theorem encodeValue_isPrefix_between_iff (v : Nat) (hpos : 0 ≤ pos) :
    encodeValue v <+: between data pos stop ↔
      pos + encodedSize v ≤ readEnd data stop ∧
        (data.drop pos.toNat).take (encodedSize v) = encodeValue v := by
  have hsize := encodedSize_pos v
  have hend := readEnd_le_length data stop
  rw [between, List.drop_take, List.prefix_take_iff, List.prefix_iff_eq_take, length_encodeValue, eq_comm, and_comm]
  refine and_congr_left fun h => ?_
  omega

end

/-- As many bytes as the character takes. -/
theorem StandsAt.size_eq {data : Bytes} {pos : Int} {stop : Option Int} {c : Char} {n : Nat}
    (h : StandsAt data pos stop c n) : n = encodedSize c.toNat := by
  have hstart := h.start
  have hinside := h.inside
  have hend := readEnd_le_length data stop
  rw [← length_encodeValue, encodeValue_toNat, ← h.bytes, List.length_take, List.length_drop]
  omega

theorem scanAt_eq_some_iff (data : Bytes) (pos : Int) (stop : Option Int) (v n : Nat) :
    scanAt data pos stop = some ⟨v, n⟩ ↔ ∃ c : Char, c.toNat = v ∧ StandsAt data pos stop c n := by
  rw [scanAt_eq_scanHead]
  rcases Int.lt_or_le pos 0 with hneg | hpos
  · rw [if_pos hneg]
    constructor
    · intro h
      cases h
    · rintro ⟨c, -, hstart, -, -⟩
      omega
  · rw [if_neg (by omega), scanHead_eq_some_iff]
    constructor
    · rintro ⟨hscalar, hsize, rest, hrest⟩
      obtain ⟨c, rfl⟩ := isScalar_iff_exists_char.mp hscalar
      obtain rfl : n = encodedSize c.toNat := hsize
      have hfront : encodeValue c.toNat <+: between data pos stop := ⟨rest, hrest.symm⟩
      obtain ⟨hinside, hbytes⟩ := (encodeValue_isPrefix_between_iff data pos stop _ hpos).mp hfront
      exact ⟨c, rfl, hpos, hinside, by rw [hbytes, encodeValue_toNat]⟩
    · rintro ⟨c, rfl, h⟩
      obtain rfl := h.size_eq
      have hbytes := h.bytes
      rw [← encodeValue_toNat] at hbytes
      obtain ⟨rest, hrest⟩ :=
        (encodeValue_isPrefix_between_iff data pos stop _ hpos).mpr ⟨h.inside, hbytes⟩
      exact ⟨isScalar_iff_exists_char.mpr ⟨c, rfl⟩, rfl, rest, hrest.symm⟩

theorem scanAt_eq_none_iff (data : Bytes) (pos : Int) (stop : Option Int) :
    scanAt data pos stop = none ↔ ¬∃ c n, StandsAt data pos stop c n := by
  constructor
  · rintro hnone ⟨c, n, h⟩
    have hsome := (scanAt_eq_some_iff data pos stop c.toNat n).mpr ⟨c, rfl, h⟩
    rw [hnone] at hsome
    cases hsome
  · intro hno
    cases hs : scanAt data pos stop with
    | none => rfl
    | some s =>
      obtain ⟨c, -, h⟩ := (scanAt_eq_some_iff data pos stop s.value s.size).mp hs
      exact absurd ⟨c, s.size, h⟩ hno

/-- **At a place, the encodings of characters are read and nothing else**, and only the bytes between the
place and the end count. -/
theorem scanAt_reads_characters (data : Bytes) (pos : Int) (stop : Option Int) :
    (∀ v n, scanAt data pos stop = some ⟨v, n⟩ ↔ ∃ c : Char, c.toNat = v ∧ StandsAt data pos stop c n) ∧
    (scanAt data pos stop = none ↔ ¬∃ c n, StandsAt data pos stop c n) ∧
    (∀ c n, StandsAt data pos stop c n → 1 ≤ n ∧ n ≤ 4) ∧
    ∀ data' pos' stop', 0 ≤ pos → 0 ≤ pos' → between data' pos' stop' = between data pos stop →
      scanAt data' pos' stop' = scanAt data pos stop := by
  refine ⟨scanAt_eq_some_iff data pos stop, scanAt_eq_none_iff data pos stop, ?_, ?_⟩
  · intro c n h
    have hsize := h.size_eq
    have hcases := encodedSize_cases c.toNat
    omega
  · intro data' pos' stop' hpos hpos' hsame
    rw [scanAt_eq_scanHead, scanAt_eq_scanHead, if_neg (by omega), if_neg (by omega), hsame]

/-- The three bytes of `€` stand in front of the end in one byte string and at the very end of another. -/
theorem scanAt_reads_characters_euro :
    StandsAt [0xE2, 0x82, 0xAC, 0x80] 0 (some 3) '€' 3 ∧ (1 ≤ 3 ∧ 3 ≤ 4) ∧
    scanAt [0x41, 0xE2, 0x82, 0xAC] 1 none = scanAt [0xE2, 0x82, 0xAC, 0x80] 0 (some 3) := by
  have h : StandsAt [0xE2, 0x82, 0xAC, 0x80] 0 (some 3) '€' 3 := ⟨by decide, by decide, by decide⟩
  obtain ⟨-, -, hsize, hlocal⟩ := scanAt_reads_characters [0xE2, 0x82, 0xAC, 0x80] 0 (some 3)
  exact ⟨h, hsize '€' 3 h, hlocal [0x41, 0xE2, 0x82, 0xAC] 1 none (by decide) (by decide) (by decide)⟩

/-! ## From the front on -/

theorem scannedLength_of_scanHead {data : Bytes} {s : Scanned} (h : scanHead data = some s) :
    scannedLength data = s.size + scannedLength (data.drop s.size) := by
  obtain ⟨hscalar, hsize, hdata⟩ := eq_append_of_scanHead h
  have happend := (wellFormed_encodeValue hscalar).scannedLength_append (data.drop s.size)
  rwa [← hdata, hsize] at happend

theorem scannedLength_of_scanHead_none {data : Bytes} (h : scanHead data = none) : scannedLength data = 0 := by
  rw [scannedLength, scan, scanFrom, h]
  rfl

theorem malformedAt_of_scanHead {data : Bytes} {s : Scanned} (h : scanHead data = some s) :
    malformedAt data = (malformedAt (data.drop s.size)).map (s.size + ·) := by
  have hsize := (scanHead_size h).2
  have hlength := scannedLength_of_scanHead h
  unfold malformedAt
  rw [List.length_drop]
  split
  · rw [if_pos (by omega), hlength]
    rfl
  · rw [if_neg (by omega)]
    rfl

theorem malformedAt_of_scanHead_none {data : Bytes} (h : scanHead data = none) (hne : data ≠ []) :
    malformedAt data = some 0 := by
  have hpos := List.length_pos_of_ne_nil hne
  rw [malformedAt, scannedLength_of_scanHead_none h, if_pos hpos]

theorem readFrom_encodeValue_append {v : Nat} (hv : IsScalar v) (strict : Bool) (offset : Nat) (rest : Bytes) :
    readFrom strict offset (encodeValue v ++ rest) =
      ⟨⟨offset, ⟨v, encodedSize v⟩⟩ :: (readFrom strict (offset + encodedSize v) rest).found,
        (readFrom strict (offset + encodedSize v) rest).refusedAt⟩ := by
  rw [readFrom, if_neg (encodeValue_append_ne_nil v rest), scanHead_of_isScalar hv]
  simp only [← length_encodeValue, List.drop_left]

theorem readFrom_of_scanHead_none {data : Bytes} (h : scanHead data = none) (hne : data ≠ []) (strict : Bool)
    (offset : Nat) : readFrom strict offset data = ⟨[], if strict then some offset else none⟩ := by
  rw [readFrom, if_neg hne, h]

/-- A reading finds what a scan finds, and a strict one is refused where the bytes stop being UTF-8. -/
theorem readFrom_eq (strict : Bool) (offset : Nat) (data : Bytes) :
    readFrom strict offset data =
      ⟨scanFrom offset data, if strict then (malformedAt data).map (offset + ·) else none⟩ := by
  induction offset, data using readFrom.induct strict with
  | case1 offset =>
    rw [readFrom, if_pos rfl, scanFrom]
    cases strict <;> rfl
  | case2 offset data hne h =>
    rw [readFrom_of_scanHead_none h hne, scanFrom, h, malformedAt_of_scanHead_none h hne]
    rfl
  | case3 offset data hne s h ih =>
    rw [readFrom, if_neg hne, h, scanFrom, h, malformedAt_of_scanHead h]
    simp only [ih, Option.map_map, Reading.mk.injEq, true_and]
    congr 2
    funext n
    exact Nat.add_assoc offset s.size n

theorem read_eq (strict : Bool) (data : Bytes) :
    read strict data = ⟨scan data, if strict then malformedAt data else none⟩ := by
  rw [read, readFrom_eq]
  simp [scan]

theorem refusedAt_read_true (data : Bytes) : (read true data).refusedAt = malformedAt data := by
  rw [read_eq, if_pos rfl]

theorem found_read (strict : Bool) (data : Bytes) : (read strict data).found = scan data := by
  rw [read_eq]

/-- Code points without gap or overlap: the first begins at `offset` and each other where the one before it
ends, and each takes the bytes of its encoding. -/
def Contiguous : Nat → List Located → Prop
  | _, [] => True
  | offset, l :: rest =>
    l.offset = offset ∧ l.scanned.size = encodedSize l.scanned.value ∧
      Contiguous (offset + l.scanned.size) rest

theorem contiguous_scanFrom (offset : Nat) (data : Bytes) : Contiguous offset (scanFrom offset data) := by
  induction offset, data using scanFrom.induct with
  | case1 offset data h =>
    rw [scanFrom, h]
    trivial
  | case2 offset data s h ih =>
    rw [scanFrom, h]
    exact ⟨rfl, (scanHead_eq_some_iff.mp h).2.1, ih⟩

theorem flatMap_encodeValue_scan (data : Bytes) :
    ((scan data).flatMap fun l => encodeValue l.scanned.value) = data.take (scannedLength data) := by
  have hfront := wellFormed_take_scannedLength data
  have hrest : values (data.drop (scannedLength data)) = [] := by
    rw [values, scan, scanFrom, scanHead_drop_scannedLength]
    rfl
  have hvalues : values data = values (data.take (scannedLength data)) := by
    conv_lhs => rw [← List.take_append_drop (scannedLength data) data]
    rw [hfront.values_append, hrest, List.append_nil]
  rw [← hfront.flatMap_values, ← hvalues, values, List.flatMap_map]

/-- **A reading comes exactly to the last boundary of all**, strict or not; and characters are read as they
were written. -/
theorem read_longest_wellFormed :
    (∀ data, ∃ k, IsGreatest {n | IsBoundary data n} k ∧
      (∀ strict, Contiguous 0 (read strict data).found ∧
        ((read strict data).found.flatMap fun l => encodeValue l.scanned.value) = data.take k) ∧
      (read true data).found = (read false data).found ∧
      (read true data).refusedAt = (if k < data.length then some k else none) ∧
      (read false data).refusedAt = none) ∧
    ∀ strict (cs : List Char),
      (read strict (cs.flatMap String.utf8EncodeChar)).found.map (·.scanned.value) = cs.map Char.toNat := by
  constructor
  · intro data
    refine ⟨scannedLength data, scannedLength_isGreatest data, fun strict => ?_, ?_, ?_, ?_⟩
    · rw [read_eq]
      exact ⟨contiguous_scanFrom 0 data, flatMap_encodeValue_scan data⟩
    · rw [read_eq, read_eq]
    · rw [read_eq]
      rfl
    · rw [read_eq]
      rfl
  · intro strict cs
    have hbytes : cs.flatMap String.utf8EncodeChar = (cs.map Char.toNat).flatMap encodeValue := by
      rw [List.flatMap_map]
      congr 1
      funext c
      exact (encodeValue_toNat c).symm
    rw [read_eq, hbytes]
    apply values_flatMap
    rw [List.forall_mem_map]
    exact fun c _ => isScalar_iff_exists_char.mpr ⟨c, rfl⟩

end SafePath.Utf8
