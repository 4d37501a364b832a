import SafePath.Config.LimitSettings
import SafePath.Proofs.Utf8.Text

/-!
# What the environment makes of the limits

Each value comes from its own variable (`limitSettings_eq`), and the values make limits or a fault that
tells which of them is to blame (`made_make`).  The usual values are fine, so a fault always goes back to
a variable:

    (∃ fault, (limitsOf env).result = .error fault) ↔ Refused env

Text that is no number is not among the reasons: it is reported, and the usual number stands.  A separator
is fine if its encoding has one byte, which only one ASCII character has (`length_encode_eq_one_iff`).
-/

namespace SafePath

/-! ## One byte -/

/-- A text is one ASCII character. -/
def Text.IsOneAscii (t : Text) : Prop := ∃ c : CodePoint, t = [c] ∧ c.val < 0x80

theorem Utf8.encodedSize_eq_one_iff (v : Nat) : encodedSize v = 1 ↔ v < 0x80 := by
  have := encodedSize_cases v
  omega

/-- Every character has a byte, and only an ASCII character has no more. -/
theorem Text.length_encode_eq_one_iff (t : Text) : t.encode.length = 1 ↔ t.IsOneAscii := by
  constructor
  · intro h
    cases t with
    | nil => cases h
    | cons c rest =>
      rw [encode_cons, List.length_append, Utf8.length_encodeValue] at h
      have hpos := Utf8.encodedSize_pos c.val
      have hrest : encode rest = [] := List.eq_nil_of_length_eq_zero (by omega)
      obtain rfl := encode_eq_nil_iff.mp hrest
      exact ⟨c, rfl, (Utf8.encodedSize_eq_one_iff c.val).mp (by simpa using h)⟩
  · rintro ⟨c, rfl, hc⟩
    rw [encode_cons, encode_nil, List.append_nil, Utf8.length_encodeValue, Utf8.encodedSize_eq_one_iff]
    exact hc

theorem CodePoint.not_isSurrogate_of_ascii {c : CodePoint} (h : c.val < 0x80) : ¬c.IsSurrogate := by
  unfold CodePoint.IsSurrogate
  omega

namespace Utf8.Strict

theorem refusedRun_eq_none_iff {refused : CodePoint → Bool} {t : Text} {offset : Nat} :
    refusedRun refused offset t = none ↔ ∀ c ∈ t, refused c = false := by
  refine ⟨fun h => ?_, fun h => refusedRun_eq_none h offset⟩
  induction t generalizing offset with
  | nil => simp
  | cons c t ih =>
    rw [refusedRun] at h
    split at h
    · cases h
    · next hc => exact List.forall_mem_cons.mpr ⟨Bool.eq_false_iff.mpr hc, ih h⟩

/-- A text is written as its encoding unless it holds a surrogate. -/
theorem encode_cases (t : Text) :
    (encode t = .ok t.encode ∧ ∀ c ∈ t, ¬c.IsSurrogate) ∨
      ∃ failure, encode t = .error failure ∧ ∃ c ∈ t, c.IsSurrogate := by
  unfold encode
  cases hrun : refusedRun (fun c => decide c.IsSurrogate) 0 t with
  | none => exact .inl ⟨rfl, by simpa using refusedRun_eq_none_iff.mp hrun⟩
  | some failure =>
    refine .inr ⟨failure, rfl, ?_⟩
    by_contra hnone
    have haccepted : ∀ c ∈ t, decide c.IsSurrogate = false := by simpa using hnone
    rw [refusedRun_eq_none_iff.mpr haccepted] at hrun
    cases hrun

end Utf8.Strict

/-! ## What two numbers and a separator make -/

namespace Limits

/-- What comes of two numbers and a separator: the first of them that is no good is to blame, and if all
are good, they are the limits. -/
inductive Made (maxComponent maxPath : Int) (separator : Text) : Except LimitsFault Limits → Prop
  | component (hc : maxComponent ≤ 0) :
      Made maxComponent maxPath separator (.error (.componentNotPositive maxComponent))
  | path (hc : 1 ≤ maxComponent) (hp : maxPath ≤ 0) :
      Made maxComponent maxPath separator (.error (.pathNotPositive maxPath))
  | surrogate (hc : 1 ≤ maxComponent) (hp : 1 ≤ maxPath) {c : CodePoint} (hmem : c ∈ separator)
      (hsurrogate : c.IsSurrogate) {failure : Utf8.Strict.EncodeFailure}
      (hencode : Utf8.Strict.encode separator = .error failure) :
      Made maxComponent maxPath separator (.error (.separatorUnencodable failure))
  | bytes (hc : 1 ≤ maxComponent) (hp : 1 ≤ maxPath) (hscalar : ∀ c ∈ separator, ¬c.IsSurrogate)
      (hlength : separator.encode.length ≠ 1) :
      Made maxComponent maxPath separator (.error (.separatorNotOneByte separator))
  | limits {limits : Limits} (hc : (limits.maxComponent : Int) = maxComponent)
      (hp : (limits.maxPath : Int) = maxPath) (hs : limits.separatorText = separator) :
      Made maxComponent maxPath separator (.ok limits)

theorem separatorByte_of_ascii {c : CodePoint} (h : c.val < 0x80) :
    ∃ byte, separatorByte [c] = .ok byte ∧ textOfSeparator byte.val = [c] := by
  have hencode : Utf8.Strict.encode [c] = .ok (Text.encode [c]) := by
    refine Utf8.Strict.encode_of_wellFormed ((Text.wellFormed_encode_iff [c]).mpr ?_)
    simpa using CodePoint.not_isSurrogate_of_ascii h
  simp only [separatorByte, hencode, dif_pos h]
  refine ⟨_, rfl, ?_⟩
  have hval : c.val % 256 = c.val := by omega
  simp only [textOfSeparator, UInt8.toNat_ofNat', Nat.reducePow, hval]

/-- A separator without surrogates is fine exactly if it is one ASCII character. -/
theorem separatorByte_of_encode {separator : Text}
    (h : Utf8.Strict.encode separator = .ok separator.encode) (hnot : ¬separator.IsOneAscii) :
    separatorByte separator = .error (.separatorNotOneByte separator) := by
  simp only [separatorByte, h]
  split
  · next c => exact dif_neg fun hc => hnot ⟨c, rfl, hc⟩
  · rfl

theorem made_make (maxComponent maxPath : Int) (separator : Text) :
    Made maxComponent maxPath separator (make maxComponent maxPath separator) := by
  unfold make
  split
  · next hc => exact .component hc
  split
  · next hc hp => exact .path (by omega) hp
  next hc hp =>
  rcases Utf8.Strict.encode_cases separator with ⟨hencode, hscalar⟩ | ⟨failure, hencode, c, hmem, hsurrogate⟩
  · by_cases hone : separator.IsOneAscii
    · obtain ⟨c, rfl, hascii⟩ := hone
      obtain ⟨byte, hbyte, htext⟩ := separatorByte_of_ascii hascii
      rw [hbyte]
      exact .limits (Int.toNat_of_nonneg (by omega)) (Int.toNat_of_nonneg (by omega)) htext
    · rw [separatorByte_of_encode hencode hone]
      exact .bytes (by omega) (by omega) hscalar fun hlength => hone (separator.length_encode_eq_one_iff.mp hlength)
  · have hbyte : separatorByte separator = .error (.separatorUnencodable failure) := by
      simp only [separatorByte, hencode]
    rw [hbyte]
    exact .surrogate (by omega) (by omega) hmem hsurrogate hencode

/-- The separator of limits is one ASCII character. -/
theorem isOneAscii_separatorText (limits : Limits) : limits.separatorText.IsOneAscii :=
  ⟨_, rfl, UInt8.lt_iff_toNat_lt.mp limits.separator_ascii⟩

/-- Two numbers and a separator make no limits exactly if a number is not positive or the separator is not
one ASCII character. -/
theorem Made.error_iff {maxComponent maxPath : Int} {separator : Text} {result : Except LimitsFault Limits}
    (h : Made maxComponent maxPath separator result) :
    (∃ fault, result = .error fault) ↔ maxComponent ≤ 0 ∨ maxPath ≤ 0 ∨ ¬separator.IsOneAscii := by
  cases h with
  | component hc => exact iff_of_true ⟨_, rfl⟩ (.inl hc)
  | path _ hp => exact iff_of_true ⟨_, rfl⟩ (.inr (.inl hp))
  | surrogate _ _ hmem hsurrogate _ =>
    refine iff_of_true ⟨_, rfl⟩ (.inr (.inr ?_))
    rintro ⟨c, rfl, hascii⟩
    obtain rfl := List.mem_singleton.mp hmem
    exact CodePoint.not_isSurrogate_of_ascii hascii hsurrogate
  | bytes _ _ _ hlength =>
    exact iff_of_true ⟨_, rfl⟩ (.inr (.inr fun hone => hlength (separator.length_encode_eq_one_iff.mpr hone)))
  | @limits limits hc hp hs =>
    refine iff_of_false (by simp) ?_
    have hcomponent := limits.maxComponent_pos
    have hpath := limits.maxPath_pos
    rintro (hbad | hbad | hbad)
    · omega
    · omega
    · exact hbad (hs ▸ limits.isOneAscii_separatorText)

end Limits

/-! ## What the variables hold -/

namespace Config

/-- The number that a variable with this value stands for. -/
def numberOf (usual : Int) (value : Option Text) : Int := (value.bind Literal.parse?).getD usual

/-- The text of a variable that is set to no number. -/
def misread? (env : Environment) (name : Text) : Option Text :=
  (env.get? name).filter fun value => (Literal.parse? value).isNone

/-- An integer variable is set to a number that is not positive, or the separator variable to something else
than one ASCII character. -/
def Refused (env : Environment) : Prop :=
  (∃ name ∈ [maxComponentVariable, maxPathVariable], ∃ value n,
      env.get? name = some value ∧ Literal.parse? value = some n ∧ n ≤ 0) ∨
    ∃ value, env.get? separatorVariable = some value ∧ ¬value.IsOneAscii

theorem numberSetting_eq (env : Environment) (name : Text) (usual : Int) :
    numberSetting env name usual =
      { result := numberOf usual (env.get? name)
        records := ((misread? env name).map (ignoredRecord name)).toList } := by
  unfold numberSetting numberOf misread?
  split
  · next hget => simp [hget]
  · next value hget =>
    split
    · next n hparse => simp [hget, hparse]
    · next hparse => simp [hget, hparse, Option.filter]

/-- Each value comes from its own variable, and each number that is none is reported. -/
theorem limitSettings_eq (env : Environment) :
    limitSettings env =
      { result :=
          { maxComponent := numberOf Limits.defaultMaxComponent (env.get? maxComponentVariable)
            maxPath := numberOf Limits.defaultMaxPath (env.get? maxPathVariable)
            separator := (env.get? separatorVariable).getD Limits.defaultSeparator }
        records := [maxComponentVariable, maxPathVariable].filterMap fun name =>
          (misread? env name).map (ignoredRecord name) } := by
  simp only [limitSettings, numberSetting_eq]
  congr 1
  cases hc : misread? env maxComponentVariable <;> cases hp : misread? env maxPathVariable <;> simp [hc, hp]

/-- The usual number is positive, so one that is not was written. -/
theorem numberOf_nonpos_iff {usual : Int} (h : 0 < usual) (value : Option Text) :
    numberOf usual value ≤ 0 ↔ ∃ t n, value = some t ∧ Literal.parse? t = some n ∧ n ≤ 0 := by
  cases value with
  | none => simpa [numberOf] using h
  | some t =>
    cases hparse : Literal.parse? t with
    | none => simpa [numberOf, hparse] using h
    | some n => simp [numberOf, hparse]

/-- The usual separator is one ASCII character, so one that is not was set. -/
theorem not_isOneAscii_getD_iff (value : Option Text) :
    ¬(value.getD Limits.defaultSeparator).IsOneAscii ↔ ∃ t, value = some t ∧ ¬t.IsOneAscii := by
  cases value with
  | none =>
    have hslash : Limits.defaultSeparator.IsOneAscii := ⟨⟨0x2F, by decide⟩, rfl, by decide⟩
    simpa using hslash
  | some t => simp

/-- **Every environment makes limits, or a fault that tells why not.**  The values come each from its own
variable, and text that is no number is reported and counts as if it were not there.  There is a fault
exactly if a variable is set to a number or a separator that is no good. -/
theorem limitsOf_made_or_refused (env : Environment) :
    let settings := (limitSettings env).result
    let made := limitsOf env
    (settings.maxComponent = numberOf Limits.defaultMaxComponent (env.get? maxComponentVariable) ∧
        settings.maxPath = numberOf Limits.defaultMaxPath (env.get? maxPathVariable) ∧
        settings.separator = (env.get? separatorVariable).getD Limits.defaultSeparator) ∧
      made.records = ([maxComponentVariable, maxPathVariable].filterMap fun name =>
        (misread? env name).map (ignoredRecord name)) ∧
      (∀ record ∈ made.records, record.level = .warning) ∧
      Limits.Made settings.maxComponent settings.maxPath settings.separator made.result ∧
      ((∃ fault, made.result = .error fault) ↔ Refused env) ∧
      ∀ limits, made.result = .ok limits →
        1 ≤ limits.maxComponent ∧ 1 ≤ limits.maxPath ∧ limits.separatorText.IsOneAscii := by
  intro settings made
  have hmade : Limits.Made settings.maxComponent settings.maxPath settings.separator made.result :=
    Limits.made_make _ _ _
  have hrecords : made.records = (limitSettings env).records := rfl
  have hsettings : settings = (limitSettings env).result := rfl
  rw [limitSettings_eq] at hrecords hsettings
  refine ⟨by simp only [hsettings, and_self], hrecords, ?_, hmade, ?_, fun limits _ =>
    ⟨limits.maxComponent_pos, limits.maxPath_pos, limits.isOneAscii_separatorText⟩⟩
  · intro record hmem
    rw [hrecords] at hmem
    obtain ⟨name, -, hrecord⟩ := List.mem_filterMap.mp hmem
    obtain ⟨value, -, rfl⟩ := Option.map_eq_some_iff.mp hrecord
    rfl
  · have hcomponent : (0 : Int) < Limits.defaultMaxComponent := by decide
    have hpath : (0 : Int) < Limits.defaultMaxPath := by decide
    rw [hmade.error_iff, hsettings, numberOf_nonpos_iff hcomponent, numberOf_nonpos_iff hpath,
      not_isOneAscii_getD_iff, Refused, ← or_assoc]
    simp

end Config

end SafePath
