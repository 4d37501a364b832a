import SafePath.Proofs.Utf8.Encoding

/-!
# Where UTF-8 may be cut and joined

UTF-8 is read from the left in one way only, so behind a part that is UTF-8 the rest decides
(`WellFormed.append_iff`), and an ASCII byte always stands for itself
(`wellFormed_append_ascii_cons_iff`).  A scan stops at the end exactly of what is UTF-8 throughout
(`malformedAt_eq_none_iff`), which decides it.
-/

namespace SafePath.Utf8

theorem IsScalar.lt {v : Nat} (h : IsScalar v) : v < 0x110000 := by
  unfold IsScalar at h
  omega

theorem encodeValue_ne_nil (v : Nat) : encodeValue v ≠ [] := by
  have := encodedSize_pos v
  rw [← length_encodeValue] at this
  exact List.ne_nil_of_length_pos this

theorem encodeValue_append_ne_nil (v : Nat) (rest : Bytes) : encodeValue v ++ rest ≠ [] :=
  List.append_ne_nil_of_left_ne_nil (encodeValue_ne_nil v) rest

theorem wellFormed_encodeValue {v : Nat} (hv : IsScalar v) : WellFormed (encodeValue v) := by
  have h := WellFormed.cons hv .nil
  rwa [List.append_nil] at h

theorem encodeValue_of_ascii {v : Nat} (hv : v < 0x80) : encodeValue v = [UInt8.ofNat v] := by
  unfold encodeValue
  rw [if_pos hv]

theorem encodeValue_toNat_of_ascii {c : UInt8} (hc : c < 0x80) : encodeValue c.toNat = [c] := by
  simp only [UInt8.lt_iff_toNat_lt, UInt8.reduceToNat] at hc
  rw [encodeValue_of_ascii hc, UInt8.ofNat_toNat]

theorem isScalar_of_ascii {c : UInt8} (hc : c < 0x80) : IsScalar c.toNat := by
  simp only [UInt8.lt_iff_toNat_lt, UInt8.reduceToNat] at hc
  exact Or.inl (by omega)

/-! ## From the left -/

/-- A scalar value is read where its encoding stands. -/
theorem scanHead_of_isScalar {v : Nat} (hv : IsScalar v) (rest : Bytes) :
    scanHead (encodeValue v ++ rest) = some ⟨v, encodedSize v⟩ := by
  rw [scanHead_encodeValue_append hv.lt, if_pos hv]

/-- A lead byte announces one number only, and leaves one rest. -/
theorem Announces.append_inj {lead : UInt8} {tail tail' a b : Bytes} {v w : Nat} (hv : Announces lead tail v)
    (hw : Announces lead tail' w) (h : tail ++ a = tail' ++ b) : v = w ∧ a = b := by
  obtain ⟨⟨top, hlead, rfl⟩, -⟩ := hv
  obtain ⟨⟨top', hlead', rfl⟩, -⟩ := hw
  rw [hlead] at hlead'
  simp only [Option.some.injEq, Prod.mk.injEq, Nat.add_right_cancel_iff] at hlead'
  obtain ⟨hlength, rfl⟩ := hlead'
  obtain ⟨rfl, hrest⟩ := List.append_inj h hlength
  exact ⟨rfl, hrest⟩

/-- What is written at the front of a byte string has one value, and one rest. -/
theorem encodeValue_append_inj {v w : Nat} {a b : Bytes} (hv : v < 0x110000) (hw : w < 0x110000)
    (h : encodeValue v ++ a = encodeValue w ++ b) : v = w ∧ a = b := by
  obtain ⟨lead, tail, he, hannounced⟩ := announces_encodeValue hv
  obtain ⟨lead', tail', he', hannounced'⟩ := announces_encodeValue hw
  rw [he, he', List.cons_append, List.cons_append, List.cons.injEq] at h
  obtain ⟨rfl, hrest⟩ := h
  exact hannounced.append_inj hannounced' hrest

/-- A byte string that begins with the bytes of a number is UTF-8 if the number is a scalar value and
the rest is UTF-8. -/
theorem wellFormed_encodeValue_append_iff {v : Nat} (hv : v < 0x110000) (rest : Bytes) :
    WellFormed (encodeValue v ++ rest) ↔ IsScalar v ∧ WellFormed rest := by
  constructor
  · intro h
    generalize hdata : encodeValue v ++ rest = data at h
    cases h with
    | nil => exact absurd hdata (encodeValue_append_ne_nil v rest)
    | cons scalar tail =>
      obtain ⟨rfl, rfl⟩ := encodeValue_append_inj hv scalar.lt hdata
      exact ⟨scalar, tail⟩
  · rintro ⟨hs, hrest⟩
    exact .cons hs hrest

/-- What is read is the encoding of a scalar value, followed by the rest. -/
theorem eq_append_of_scanHead {data : Bytes} {s : Scanned} (h : scanHead data = some s) :
    IsScalar s.value ∧ (encodeValue s.value).length = s.size ∧
      data = encodeValue s.value ++ data.drop s.size := by
  obtain ⟨hs, hsize, rest, rfl⟩ := scanHead_eq_some_iff.mp h
  rw [← length_encodeValue] at hsize
  exact ⟨hs, hsize.symm, by rw [hsize, List.drop_left]⟩

theorem take_size_of_scanHead {data : Bytes} {s : Scanned} (h : scanHead data = some s) :
    data.take s.size = encodeValue s.value := by
  obtain ⟨-, hsize, hdata⟩ := eq_append_of_scanHead h
  rw [hdata, ← hsize, List.take_left]

theorem WellFormed.exists_scanHead {data : Bytes} (h : WellFormed data) (hne : data ≠ []) :
    ∃ s, scanHead data = some s := by
  cases h with
  | nil => exact absurd rfl hne
  | cons scalar tail => exact ⟨_, scanHead_of_isScalar scalar _⟩

theorem WellFormed.append_iff {a : Bytes} (ha : WellFormed a) (b : Bytes) :
    WellFormed (a ++ b) ↔ WellFormed b := by
  induction ha with
  | nil => rfl
  | cons scalar tail ih =>
    rw [List.append_assoc, wellFormed_encodeValue_append_iff scalar.lt, ih]
    simp only [scalar, true_and]

theorem WellFormed.append {a b : Bytes} (ha : WellFormed a) (hb : WellFormed b) : WellFormed (a ++ b) :=
  (ha.append_iff b).mpr hb

/-! ## Across an ASCII byte -/

theorem not_ascii_of_mem_tail_encodeValue {v : Nat} (hv : v < 0x110000) {b : UInt8}
    (hb : b ∈ (encodeValue v).tail) : ¬b < 0x80 := by
  obtain ⟨lead, tail, he, ha⟩ := announces_encodeValue hv
  rw [he, List.tail_cons] at hb
  have hc := List.all_eq_true.mp ha.continued b hb
  rw [isContinuation_iff] at hc
  rw [UInt8.lt_iff_toNat_lt]
  simp only [UInt8.reduceToNat]
  omega

theorem wellFormed_cons_ascii_iff {c : UInt8} (hc : c < 0x80) (rest : Bytes) :
    WellFormed (c :: rest) ↔ WellFormed rest := by
  have hs := isScalar_of_ascii hc
  have := wellFormed_encodeValue_append_iff hs.lt rest
  rw [encodeValue_toNat_of_ascii hc] at this
  simpa only [List.singleton_append, hs, true_and] using this

/-- What stands at the front does not reach over an ASCII byte. -/
theorem scanHead_append_ascii_cons {c : UInt8} (hc : c < 0x80) {a : Bytes} (hne : a ≠ []) (b : Bytes) :
    scanHead (a ++ c :: b) = scanHead a := by
  cases hs : scanHead a with
  | some s =>
    obtain ⟨hscalar, hsize, rest, rfl⟩ := scanHead_eq_some_iff.mp hs
    exact scanHead_eq_some_iff.mpr ⟨hscalar, hsize, rest ++ c :: b, List.append_assoc _ _ _⟩
  | none =>
    cases hover : scanHead (a ++ c :: b) with
    | none => rfl
    | some s =>
      obtain ⟨hscalar, hsize, rest, hrest⟩ := scanHead_eq_some_iff.mp hover
      have hwithin : ∀ t, a ≠ encodeValue s.value ++ t := by
        intro t ha
        rw [scanHead_eq_some_iff.mpr ⟨hscalar, hsize, t, ha⟩] at hs
        cases hs
      rcases List.append_eq_append_iff.mp hrest with ⟨t, he, ht⟩ | ⟨t, ha, -⟩
      · rcases t with - | ⟨d, t⟩
        · rw [List.append_nil] at he
          exact absurd (by rw [he, List.append_nil]) (hwithin [])
        · -- the ASCII byte would be one of the bytes behind the lead
          obtain ⟨rfl, -⟩ := List.cons.inj ht
          obtain ⟨x, a, rfl⟩ := List.exists_cons_of_ne_nil hne
          refine absurd hc (not_ascii_of_mem_tail_encodeValue hscalar.lt ?_)
          rw [he, List.cons_append, List.tail_cons]
          exact List.mem_append_right a List.mem_cons_self
      · exact absurd ha (hwithin t)

/-- **An ASCII byte stands for itself**: it is no part of another encoding, so UTF-8 may be cut at
every ASCII byte. -/
theorem wellFormed_append_ascii_cons_iff {c : UInt8} (hc : c < 0x80) (a b : Bytes) :
    WellFormed (a ++ c :: b) ↔ WellFormed a ∧ WellFormed b := by
  constructor
  · intro h
    generalize hdata : a ++ c :: b = data at h
    induction h generalizing a with
    | nil => simp at hdata
    | @cons v rest scalar tail ih =>
      rcases a with - | ⟨d, a⟩
      · have hwf := WellFormed.cons scalar tail
        rw [← hdata, List.nil_append] at hwf
        exact ⟨.nil, (wellFormed_cons_ascii_iff hc b).mp hwf⟩
      rcases List.append_eq_append_iff.mp hdata with ⟨t, he, hrest⟩ | ⟨t, ha, hrest⟩
      · rcases t with - | ⟨e, t⟩
        · rw [List.append_nil] at he
          rw [List.nil_append] at hrest
          rw [← hrest] at tail
          exact ⟨he ▸ wellFormed_encodeValue scalar, (wellFormed_cons_ascii_iff hc b).mp tail⟩
        · -- the encoding of `v` would go on over the ASCII byte
          rw [List.cons_append, List.cons.injEq] at hrest
          obtain ⟨rfl, -⟩ := hrest
          refine absurd hc (not_ascii_of_mem_tail_encodeValue scalar.lt ?_)
          rw [he, List.cons_append, List.tail_cons]
          exact List.mem_append_right a List.mem_cons_self
      · obtain ⟨ht, hb⟩ := ih t hrest.symm
        rw [ha]
        exact ⟨.cons scalar ht, hb⟩
  · rintro ⟨ha, hb⟩
    exact ha.append ((wellFormed_cons_ascii_iff hc b).mpr hb)

/-! ## The part that is scanned -/

/-- The sizes of the code points add up to the length of a part that is UTF-8, and nothing can be read
behind it. -/
theorem scanFrom_spec (offset : Nat) (data : Bytes) :
    let n := (scanFrom offset data).foldr (fun l k => l.scanned.size + k) 0
    n ≤ data.length ∧ WellFormed (data.take n) ∧ scanHead (data.drop n) = none := by
  induction offset, data using scanFrom.induct with
  | case1 offset data h =>
    rw [scanFrom, h]
    exact ⟨Nat.zero_le _, .nil, h⟩
  | case2 offset data s h ih =>
    obtain ⟨hle, hwf, hstop⟩ := ih
    obtain ⟨hs, -, -⟩ := eq_append_of_scanHead h
    have hsize := (scanHead_size h).2
    rw [scanFrom, h]
    simp only [List.foldr_cons]
    rw [List.length_drop] at hle
    rw [List.drop_drop] at hstop
    refine ⟨by omega, ?_, hstop⟩
    rw [List.take_add, take_size_of_scanHead h]
    exact .cons hs hwf

theorem scannedLength_le (data : Bytes) : scannedLength data ≤ data.length :=
  (scanFrom_spec 0 data).1

theorem wellFormed_take_scannedLength (data : Bytes) : WellFormed (data.take (scannedLength data)) :=
  (scanFrom_spec 0 data).2.1

theorem scanHead_drop_scannedLength (data : Bytes) : scanHead (data.drop (scannedLength data)) = none :=
  (scanFrom_spec 0 data).2.2

/-- Everything is scanned exactly if it is UTF-8. -/
theorem malformedAt_eq_none_iff {data : Bytes} : malformedAt data = none ↔ WellFormed data := by
  have hle := scannedLength_le data
  have hwf := wellFormed_take_scannedLength data
  constructor
  · intro h
    unfold malformedAt at h
    split at h
    · cases h
    · rwa [List.take_of_length_le (by omega)] at hwf
  · intro h
    unfold malformedAt
    rw [if_neg]
    intro hlt
    have hrest : WellFormed (data.drop (scannedLength data)) := by
      rwa [← hwf.append_iff, List.take_append_drop]
    obtain ⟨s, hs⟩ := hrest.exists_scanHead (by
      rw [ne_eq, List.drop_eq_nil_iff]
      omega)
    rw [scanHead_drop_scannedLength] at hs
    cases hs

instance : DecidablePred WellFormed := fun _ => decidable_of_iff _ malformedAt_eq_none_iff

end SafePath.Utf8
