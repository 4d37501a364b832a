import SafePath.Proofs.Utf8.WellFormed

/-!
# The code points of a byte string

`values` lists the code points that are read from the front, up to where the bytes stop being UTF-8.
For UTF-8 it undoes the encoding, and the other way round.

    values (encodeValue v ++ rest) = v :: values rest, if `v` is scalar     (values_encodeValue_append)
    values (a ++ b) = values a ++ values b, if `a` is UTF-8                 (WellFormed.values_append)
    (values data).flatMap encodeValue = data, if `data` is UTF-8            (WellFormed.flatMap_values)
    values (vs.flatMap encodeValue) = vs, if all of `vs` are scalar         (values_flatMap)
-/

namespace SafePath.Utf8

/-- The code points of `data` in order, up to where it stops being UTF-8. -/
def values (data : Bytes) : List Nat := (scan data).map (·.scanned.value)

/-- The offsets do not matter for what is read. -/
theorem map_value_scanFrom (offset offset' : Nat) (data : Bytes) :
    (scanFrom offset data).map (·.scanned.value) = (scanFrom offset' data).map (·.scanned.value) := by
  induction offset, data using scanFrom.induct generalizing offset' with
  | case1 offset data h => rw [scanFrom, scanFrom, h]
  | case2 offset data s h ih =>
    rw [scanFrom, scanFrom, h]
    simp only [List.map_cons, ih (offset' + s.size)]

theorem values_of_scanHead_none {data : Bytes} (h : scanHead data = none) : values data = [] := by
  rw [values, scan, scanFrom, h]
  rfl

theorem values_nil : values [] = [] := values_of_scanHead_none rfl

theorem values_of_scanHead {data : Bytes} {s : Scanned} (h : scanHead data = some s) :
    values data = s.value :: values (data.drop s.size) := by
  rw [values, scan, scanFrom, h]
  simp only [List.map_cons, List.cons.injEq, true_and]
  exact map_value_scanFrom _ _ _

theorem values_encodeValue_append {v : Nat} (hv : IsScalar v) (rest : Bytes) :
    values (encodeValue v ++ rest) = v :: values rest := by
  rw [values_of_scanHead (scanHead_of_isScalar hv rest)]
  simp only [← length_encodeValue, List.drop_left]

theorem isScalar_of_mem_values {data : Bytes} {v : Nat} (h : v ∈ values data) : IsScalar v := by
  unfold values scan at h
  generalize (0 : Nat) = offset at h
  induction offset, data using scanFrom.induct with
  | case1 offset data hstop =>
    rw [scanFrom, hstop] at h
    cases h
  | case2 offset data s hread ih =>
    rw [scanFrom, hread] at h
    simp only [List.map_cons] at h
    rcases List.mem_cons.mp h with rfl | hrest
    · exact (eq_append_of_scanHead hread).1
    · exact ih hrest

theorem WellFormed.values_append {a : Bytes} (ha : WellFormed a) (b : Bytes) :
    values (a ++ b) = values a ++ values b := by
  induction ha with
  | nil => rw [values_nil, List.nil_append, List.nil_append]
  | cons scalar tail ih =>
    rw [List.append_assoc, values_encodeValue_append scalar, values_encodeValue_append scalar, ih,
      List.cons_append]

theorem WellFormed.flatMap_values {data : Bytes} (h : WellFormed data) :
    (values data).flatMap encodeValue = data := by
  induction h with
  | nil => rw [values_nil, List.flatMap_nil]
  | cons scalar tail ih => rw [values_encodeValue_append scalar, List.flatMap_cons, ih]

section
variable {vs : List Nat} (h : ∀ v ∈ vs, IsScalar v)

include h

theorem wellFormed_flatMap : WellFormed (vs.flatMap encodeValue) := by
  induction vs with
  | nil => exact .nil
  | cons v vs ih =>
    obtain ⟨hv, hvs⟩ := List.forall_mem_cons.mp h
    rw [List.flatMap_cons]
    exact .cons hv (ih hvs)

theorem values_flatMap : values (vs.flatMap encodeValue) = vs := by
  induction vs with
  | nil => exact values_nil
  | cons v vs ih =>
    obtain ⟨hv, hvs⟩ := List.forall_mem_cons.mp h
    rw [List.flatMap_cons, values_encodeValue_append hv, ih hvs]

end

end SafePath.Utf8
