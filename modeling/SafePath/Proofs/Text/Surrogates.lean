import SafePath.Proofs.Utf8.Strict

/-!
# Surrogates are what makes text unreadable

Text is written one code point after the other, surrogates like all others.  What is written tells the text,
for no encoding begins another one (`encode_injective`).  It is read again up to the first surrogate and never
over it, whatever stands on either side:

    malformedAt t.encode = t.plainFront.encode.length, if `t` holds a surrogate     (malformedAt_encode)
    Strict.decode t.encode = t exactly if `t` holds none                            (decode_encode_iff)
-/

namespace SafePath

namespace Text

/-- The text in front of the first surrogate. -/
def plainFront (t : Text) : Text := t.takeWhile fun c => !decide c.IsSurrogate

theorem plainFront_cons_of_surrogate {c : CodePoint} (hc : c.IsSurrogate) (t : Text) :
    plainFront (c :: t) = [] := by
  rw [plainFront, List.takeWhile_cons_of_neg (by simp [hc])]

theorem plainFront_cons_of_not_surrogate {c : CodePoint} (hc : ¬c.IsSurrogate) (t : Text) :
    plainFront (c :: t) = c :: plainFront t := by
  rw [plainFront, List.takeWhile_cons_of_pos (by simp [hc]), plainFront]

/-- **No two texts have the same bytes**, surrogates or not. -/
theorem encode_injective : Function.Injective encode := by
  intro t
  induction t with
  | nil =>
    intro u h
    exact (encode_eq_nil_iff.mp h.symm).symm
  | cons c t ih =>
    intro u h
    cases u with
    | nil => exact absurd (encode_eq_nil_iff.mp h) (List.cons_ne_nil c t)
    | cons d u =>
      obtain ⟨hval, hrest⟩ := Utf8.encodeValue_append_inj c.lt d.lt h
      obtain rfl : c = d := (CodePoint.mk.injEq ..).mpr hval
      rw [ih hrest]

/-- **The bytes of a text stop being UTF-8 at its first surrogate**, and not before. -/
theorem malformedAt_encode (t : Text) :
    Utf8.malformedAt t.encode =
      if ∃ c ∈ t, c.IsSurrogate then some t.plainFront.encode.length else none := by
  induction t with
  | nil =>
    rw [if_neg (by simp), encode_nil]
    exact Utf8.malformedAt_eq_none_iff.mpr .nil
  | cons c t ih =>
    have hread := Utf8.scanHead_encodeValue_append c.lt (encode t)
    have hscalar := isScalar_iff c
    rw [encode_cons]
    by_cases hc : c.IsSurrogate
    · rw [if_neg (hscalar.not.mpr (not_not_intro hc))] at hread
      rw [Utf8.malformedAt_of_scanHead_none hread (Utf8.encodeValue_append_ne_nil _ _),
        if_pos ⟨c, List.mem_cons_self, hc⟩, plainFront_cons_of_surrogate hc]
      rfl
    · rw [if_pos (hscalar.mpr hc)] at hread
      rw [Utf8.malformedAt_of_scanHead hread, ← Utf8.length_encodeValue, List.drop_left, ih,
        plainFront_cons_of_not_surrogate hc, encode_cons, List.length_append]
      simp only [List.exists_mem_cons_iff, hc, false_or]
      split <;> rfl

/-- The two halves of a pair make no character: the bytes stop behind the `a`. -/
example : Utf8.malformedAt (encode [⟨0x61, by decide⟩, ⟨0xD83D, by decide⟩, ⟨0xDE00, by decide⟩]) = some 1 := by
  decide +kernel

theorem decode_encode_iff (t : Text) : Utf8.Strict.decode t.encode = .ok t ↔ ∀ c ∈ t, ¬c.IsSurrogate := by
  rw [← wellFormed_encode_iff]
  constructor
  · exact Utf8.Strict.wellFormed_of_decode
  · intro h
    obtain ⟨u, hdecode, hencode⟩ := h.exists_decode
    rw [hdecode, encode_injective hencode]

end Text

namespace Name

/-- **A surrogate, and nothing else, makes the bytes of a text unreadable**: a strict reading is refused where
the first one begins.  No two texts have the same bytes, and a text comes back from its bytes exactly if it
holds no surrogate. -/
theorem surrogates_alone_are_refused :
    (∀ t : Text, (Utf8.read true (Name.text t).toBytes).refusedAt =
      if ∃ c ∈ t, c.IsSurrogate then some (Name.text t.plainFront).toBytes.length else none) ∧
    (Function.Injective fun t : Text => (Name.text t).toBytes) ∧
    ∀ t : Text, (Name.text t).withBytes (Name.text t).toBytes = .ok (.text t) ↔ ∀ c ∈ t, ¬c.IsSurrogate := by
  refine ⟨fun t => ?_, Text.encode_injective, fun t => ?_⟩
  · rw [Utf8.refusedAt_read_true]
    exact t.malformedAt_encode
  · rw [← t.decode_encode_iff, withBytes, toBytes]
    cases Utf8.Strict.decode t.encode with
    | ok u => simp only [Except.ok.injEq, Name.text.injEq]
    | error failure => simp only [reduceCtorEq]

end Name

end SafePath
