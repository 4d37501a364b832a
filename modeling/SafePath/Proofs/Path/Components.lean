import SafePath.Path.Cascade
import SafePath.Proofs.Utf8.Boundary

/-!
# The components of a path, each cut for itself

A path is split at its separators, every component is cut without regard to the others, and the
components are joined again (`fitComponents`).  This says what the cuts are; no offsets move here.

    (a ++ separator :: b) fits, where `separator ∉ a`, as `fitInner a ++ separator :: b'`
      if `b` fits as `b'`                                       (fitComponents_append_cons)
    a path without a separator fits as its only component does  (fitComponents_of_not_mem)

The last component is what is left of the name, in front of the extension (`fitLast_eq_ok_iff`), so the
components of a fitted path are known exactly (`splitOn_of_fitComponents`).
-/

namespace SafePath.Path

/-- The bytes behind the last separator. -/
def lastComponent (separator : UInt8) (path : Bytes) : Bytes := (path.splitOn separator).getLastD []

/-- The components in front of the last one. -/
def innerComponents (separator : UInt8) (path : Bytes) : List Bytes := (path.splitOn separator).dropLast

/-- A component that is not the last: of one longer than the budget, the longest part from the left
that fits and splits no code point. -/
def fitInner (budget : Nat) (c : Bytes) : Bytes :=
  if budget < c.length then c.take (Utf8.lastBoundary budget c) else c

/-- The last component: one longer than the budget is cut like any other, but the extension stays at
its end and the name is cut instead, to what the extension leaves of that part. -/
def fitLast (budget : Nat) (extension c : Bytes) : Except NoRoom Bytes :=
  if budget < c.length then
    let boundary := Utf8.lastBoundary budget c
    if extension = [] then .ok (c.take boundary)
    else if boundary ≤ extension.length then .error ⟨extension.length, boundary⟩
    else
      let name := c.take (c.length - extension.length)
      .ok (name.take (Utf8.lastBoundary (boundary - extension.length) name) ++ extension)
  else .ok c

/-- The path of the components, each cut for itself. -/
def fitComponents (separator : UInt8) (budget : Nat) (extension path : Bytes) : Except NoRoom Bytes :=
  (fitLast budget extension (lastComponent separator path)).map fun last =>
    [separator].intercalate ((innerComponents separator path).map (fitInner budget) ++ [last])

/-! ## Splitting -/

section
variable {separator : UInt8}

theorem splitOn_eq (path : Bytes) :
    path.splitOn separator = innerComponents separator path ++ [lastComponent separator path] := by
  have hne : path.splitOn separator ≠ [] := List.splitOn_ne_nil _ _
  rw [innerComponents, lastComponent, List.getLastD_eq_getLast?, List.getLast?_eq_getLast_of_ne_nil hne]
  exact (List.dropLast_append_getLast hne).symm

theorem splitOn_of_not_mem {c : Bytes} (hc : separator ∉ c) : c.splitOn separator = [c] :=
  List.splitOn_eq_singleton hc

theorem lastComponent_of_not_mem {c : Bytes} (hc : separator ∉ c) : lastComponent separator c = c := by
  rw [lastComponent, splitOn_of_not_mem hc]
  rfl

theorem innerComponents_of_not_mem {c : Bytes} (hc : separator ∉ c) : innerComponents separator c = [] := by
  rw [innerComponents, splitOn_of_not_mem hc]
  rfl

theorem lastComponent_append_cons (a b : Bytes) :
    lastComponent separator (a ++ separator :: b) = lastComponent separator b := by
  rw [lastComponent, List.splitOn_append_cons_self, splitOn_eq b, ← List.append_assoc,
    List.getLastD_concat]

theorem innerComponents_append_cons (a b : Bytes) :
    innerComponents separator (a ++ separator :: b) =
      a.splitOn separator ++ innerComponents separator b := by
  rw [innerComponents, List.splitOn_append_cons_self, splitOn_eq b, ← List.append_assoc,
    List.dropLast_concat]

/-- Induction over the components of a path from the left. -/
theorem component_induction (separator : UInt8) {motive : Bytes → Prop}
    (last : ∀ c, separator ∉ c → motive c)
    (inner : ∀ c rest, separator ∉ c → motive rest → motive (c ++ separator :: rest)) (path : Bytes) :
    motive path := by
  by_cases h : separator ∈ path
  · obtain ⟨c, rest, hpath, hc⟩ := List.eq_append_cons_of_mem h
    rw [hpath]
    exact inner c rest hc (component_induction separator last inner rest)
  · exact last path h
termination_by path.length
decreasing_by
  rw [hpath, List.length_append, List.length_cons]
  omega

theorem not_mem_of_mem_splitOn {path c : Bytes} (h : c ∈ path.splitOn separator) : separator ∉ c := by
  induction path using component_induction separator with
  | last d hd =>
    rw [splitOn_of_not_mem hd, List.mem_singleton] at h
    rwa [h]
  | inner d rest hd ih =>
    rw [List.splitOn_append_cons_self_of_not_mem hd] at h
    rcases List.mem_cons.mp h with rfl | h
    · exact hd
    · exact ih h

theorem mem_of_mem_splitOn {path c : Bytes} (h : c ∈ path.splitOn separator) {b : UInt8} (hb : b ∈ c) :
    b ∈ path := by
  induction path using component_induction separator with
  | last d hd =>
    rw [splitOn_of_not_mem hd, List.mem_singleton] at h
    rwa [← h]
  | inner d rest hd ih =>
    rw [List.splitOn_append_cons_self_of_not_mem hd] at h
    rcases List.mem_cons.mp h with rfl | h
    · exact List.mem_append_left _ hb
    · exact List.mem_append_right _ (List.mem_cons_of_mem _ (ih h))

/-- A byte of a path is its separator or stands in a component. -/
theorem exists_mem_splitOn {path : Bytes} {b : UInt8} (hb : b ∈ path) (hne : b ≠ separator) :
    ∃ c ∈ path.splitOn separator, b ∈ c := by
  induction path using component_induction separator with
  | last c hc => exact ⟨c, by rw [splitOn_of_not_mem hc]; exact List.mem_singleton_self c, hb⟩
  | inner c rest hc ih =>
    rw [List.splitOn_append_cons_self_of_not_mem hc]
    rcases List.mem_append.mp hb with hb | hb
    · exact ⟨c, List.mem_cons_self, hb⟩
    · obtain ⟨d, hd, hbd⟩ := ih ((List.mem_cons.mp hb).resolve_left hne)
      exact ⟨d, List.mem_cons_of_mem _ hd, hbd⟩

theorem length_splitOn (separator : UInt8) (path : Bytes) :
    (path.splitOn separator).length = path.count separator + 1 := by
  induction path using component_induction separator with
  | last c hc => rw [splitOn_of_not_mem hc, List.count_eq_zero.mpr hc, List.length_singleton]
  | inner c rest hc ih =>
    rw [List.splitOn_append_cons_self_of_not_mem hc, List.length_cons, ih, List.count_append,
      List.count_eq_zero.mpr hc, List.count_cons_self, Nat.zero_add]

/-- UTF-8 is split into UTF-8 at an ASCII separator, and joined to UTF-8. -/
theorem wellFormed_iff_splitOn (hs : separator < 0x80) (path : Bytes) :
    Utf8.WellFormed path ↔ ∀ c ∈ path.splitOn separator, Utf8.WellFormed c := by
  induction path using component_induction separator with
  | last c hc => rw [splitOn_of_not_mem hc, List.forall_mem_singleton]
  | inner c rest hc ih =>
    rw [List.splitOn_append_cons_self_of_not_mem hc, List.forall_mem_cons, ← ih,
      Utf8.wellFormed_append_ascii_cons_iff hs]

/-! ## Cutting -/

theorem fitComponents_of_not_mem {c : Bytes} (hc : separator ∉ c) (budget : Nat) (extension : Bytes) :
    fitComponents separator budget extension c = fitLast budget extension c := by
  rw [fitComponents, lastComponent_of_not_mem hc, innerComponents_of_not_mem hc]
  cases fitLast budget extension c with
  | error reason => rfl
  | ok last => simp [Except.map]

theorem fitComponents_append_cons {c : Bytes} (hc : separator ∉ c) (budget : Nat)
    (extension rest : Bytes) :
    fitComponents separator budget extension (c ++ separator :: rest) =
      (fitComponents separator budget extension rest).map
        (fitInner budget c ++ [separator] ++ ·) := by
  rw [fitComponents, fitComponents, lastComponent_append_cons, innerComponents_append_cons,
    splitOn_of_not_mem hc]
  cases fitLast budget extension (lastComponent separator rest) with
  | error reason => rfl
  | ok last =>
    simp only [Except.map, List.map_cons, List.cons_append, List.nil_append]
    rw [List.intercalate_cons_of_ne_nil (List.append_ne_nil_of_right_ne_nil _ (List.cons_ne_nil _ _))]

end

theorem fitInner_of_lt {budget : Nat} {c : Bytes} (h : budget < c.length) :
    fitInner budget c = c.take (Utf8.lastBoundary budget c) := if_pos h

theorem fitInner_of_le {budget : Nat} {c : Bytes} (h : c.length ≤ budget) : fitInner budget c = c :=
  if_neg (Nat.not_lt.mpr h)

/-- What a cut may leave of a component: all of one that fits, or a part from the left that fits and ends on a
boundary. -/
def LeftOf (budget : Nat) (c left : Bytes) : Prop :=
  (c.length ≤ budget ∧ left = c) ∨ ∃ k, Utf8.IsBoundary c k ∧ k ≤ budget ∧ left = c.take k

theorem LeftOf.isPrefix {budget : Nat} {c left : Bytes} (h : LeftOf budget c left) : left <+: c := by
  rcases h with ⟨-, rfl⟩ | ⟨k, -, -, rfl⟩
  · exact List.prefix_refl left
  · exact List.take_prefix k c

theorem LeftOf.length_le {budget : Nat} {c left : Bytes} (h : LeftOf budget c left) : left.length ≤ budget := by
  rcases h with ⟨hfits, rfl⟩ | ⟨k, -, hk, rfl⟩
  · exact hfits
  · exact Nat.le_trans (List.length_take_le k c) hk

theorem LeftOf.wellFormed {budget : Nat} {c left : Bytes} (h : LeftOf budget c left) (hc : Utf8.WellFormed c) :
    Utf8.WellFormed left := by
  rcases h with ⟨-, rfl⟩ | ⟨k, hbound, -, rfl⟩
  · exact hc
  · exact hbound.2

theorem leftOf_fitInner (budget : Nat) (c : Bytes) : LeftOf budget c (fitInner budget c) := by
  rcases Nat.lt_or_ge budget c.length with hlong | hfits
  · exact Or.inr ⟨_, Utf8.isBoundary_lastBoundary budget c, Utf8.lastBoundary_le budget c, fitInner_of_lt hlong⟩
  · exact Or.inl ⟨hfits, fitInner_of_le hfits⟩

theorem isPrefix_fitInner (budget : Nat) (c : Bytes) : fitInner budget c <+: c :=
  (leftOf_fitInner budget c).isPrefix

theorem length_fitInner_le (budget : Nat) (c : Bytes) : (fitInner budget c).length ≤ budget :=
  (leftOf_fitInner budget c).length_le

theorem wellFormed_fitInner {c : Bytes} (hc : Utf8.WellFormed c) (budget : Nat) :
    Utf8.WellFormed (fitInner budget c) :=
  (leftOf_fitInner budget c).wellFormed hc

/-! ## A name in front of an extension -/

/-- How many bytes a name may have in front of an extension: what the extension leaves of the part of
their component that may be kept. -/
def nameRoom (budget : Nat) (name extension : Bytes) : Nat :=
  Utf8.lastBoundary budget (name ++ extension) - extension.length

/-- What is left of a name in front of an extension: all of it if their component fits. -/
def nameLeft (budget : Nat) (name extension : Bytes) : Bytes :=
  if budget < (name ++ extension).length then
    name.take (Utf8.lastBoundary (nameRoom budget name extension) name)
  else name

/-- The component fits, or there is room for a name in front of the extension that it keeps. -/
def HasRoom (budget : Nat) (name extension : Bytes) : Prop :=
  (name ++ extension).length ≤ budget ∨ extension = [] ∨ 0 < nameRoom budget name extension

section
variable {budget : Nat} {name extension : Bytes}

/-- Without an extension, the name is the component. -/
theorem nameRoom_nil (budget : Nat) (name : Bytes) :
    nameRoom budget name [] = Utf8.lastBoundary budget name := by
  rw [nameRoom, List.append_nil, List.length_nil, Nat.sub_zero]

theorem nameLeft_of_lt (h : budget < (name ++ extension).length) :
    nameLeft budget name extension =
      name.take (Utf8.lastBoundary (nameRoom budget name extension) name) := if_pos h

theorem nameLeft_of_le (h : (name ++ extension).length ≤ budget) : nameLeft budget name extension = name :=
  if_neg (Nat.not_lt.mpr h)

theorem isPrefix_nameLeft (budget : Nat) (name extension : Bytes) :
    nameLeft budget name extension <+: name := by
  unfold nameLeft
  split
  · exact List.take_prefix _ _
  · exact List.prefix_refl name

/-- A name that was cut is UTF-8, whatever it was. -/
theorem wellFormed_nameLeft_of_lt (h : budget < (name ++ extension).length) :
    Utf8.WellFormed (nameLeft budget name extension) := by
  rw [nameLeft_of_lt h]
  exact (Utf8.isBoundary_lastBoundary _ name).2

theorem length_nameLeft_append_le (h : HasRoom budget name extension) :
    (nameLeft budget name extension ++ extension).length ≤ budget := by
  by_cases hlong : budget < (name ++ extension).length
  · have hroom := Utf8.lastBoundary_le (nameRoom budget name extension) name
    have hkept := Utf8.lastBoundary_le budget (name ++ extension)
    rw [nameLeft_of_lt hlong, List.length_append, List.length_take]
    unfold nameRoom at hroom ⊢
    rcases h with hle | rfl | hpos
    · omega
    · rw [List.length_nil] at hroom ⊢
      omega
    · unfold nameRoom at hpos
      omega
  · rw [nameLeft_of_le (Nat.le_of_not_lt hlong)]
    omega

/-- **What comes of the last component**: the extension behind what is left of the name, if there is
room for it. -/
theorem fitLast_eq_ok_iff {last : Bytes} :
    fitLast budget extension (name ++ extension) = .ok last ↔
      HasRoom budget name extension ∧ last = nameLeft budget name extension ++ extension := by
  unfold fitLast HasRoom
  by_cases hlong : budget < (name ++ extension).length
  · rw [if_pos hlong, nameLeft_of_lt hlong]
    simp only [Nat.not_le.mpr hlong, false_or]
    by_cases hnone : extension = []
    · subst hnone
      rw [if_pos rfl, nameRoom_nil, Utf8.lastBoundary_lastBoundary, List.append_nil, List.append_nil,
        Except.ok.injEq]
      exact ⟨fun h => ⟨Or.inl rfl, h.symm⟩, fun h => h.2.symm⟩
    · rw [if_neg hnone]
      simp only [hnone, false_or]
      by_cases hstuck : Utf8.lastBoundary budget (name ++ extension) ≤ extension.length
      · have hroom : ¬0 < nameRoom budget name extension := by
          unfold nameRoom
          omega
        rw [if_pos hstuck]
        simp only [hroom, false_and, reduceCtorEq]
      · have hroom : 0 < nameRoom budget name extension := by
          unfold nameRoom
          omega
        have hname : (name ++ extension).take ((name ++ extension).length - extension.length) = name := by
          rw [List.length_append, Nat.add_sub_cancel, List.take_left]
        rw [if_neg hstuck, hname, Except.ok.injEq]
        exact ⟨fun h => ⟨hroom, h.symm⟩, fun h => h.2.symm⟩
  · rw [if_neg hlong, nameLeft_of_le (Nat.le_of_not_lt hlong), Except.ok.injEq]
    exact ⟨fun h => ⟨Or.inl (Nat.le_of_not_lt hlong), h.symm⟩, fun h => h.2.symm⟩

theorem fitLast_of_hasRoom (h : HasRoom budget name extension) :
    fitLast budget extension (name ++ extension) = .ok (nameLeft budget name extension ++ extension) :=
  fitLast_eq_ok_iff.mpr ⟨h, rfl⟩

end

/-! ## The components of a fitted path -/

/-- What is in no component of a path is in none of the components that it is fitted to. -/
theorem not_mem_fitted {separator b : UInt8} {budget : Nat} {path name extension base : Bytes}
    (hlast : lastComponent separator path = name ++ extension) (hpre : base <+: name)
    (h : ∀ c ∈ path.splitOn separator, b ∉ c) :
    ∀ c ∈ (innerComponents separator path).map (fitInner budget) ++ [base ++ extension], b ∉ c := by
  rw [splitOn_eq, hlast, List.forall_mem_append, List.forall_mem_singleton] at h
  rw [List.forall_mem_append, List.forall_mem_singleton, List.forall_mem_map]
  refine ⟨fun c hc hmem => h.1 c hc ((isPrefix_fitInner budget c).subset hmem), fun hmem => h.2 ?_⟩
  rcases List.mem_append.mp hmem with hmem | hmem
  · exact List.mem_append_left _ (hpre.subset hmem)
  · exact List.mem_append_right _ hmem

/-- **The components of a path that was fitted**: each inner one cut for itself, and at the end the
extension behind what is left of the name. -/
theorem splitOn_of_fitComponents {separator : UInt8} {budget : Nat} {path name extension out : Bytes}
    (hlast : lastComponent separator path = name ++ extension)
    (h : fitComponents separator budget extension path = .ok out) :
    HasRoom budget name extension ∧
      out.splitOn separator =
        (innerComponents separator path).map (fitInner budget) ++
          [nameLeft budget name extension ++ extension] := by
  unfold fitComponents at h
  rw [hlast] at h
  cases hfit : fitLast budget extension (name ++ extension) with
  | error reason =>
    rw [hfit] at h
    cases h
  | ok last =>
    obtain ⟨hroom, rfl⟩ := fitLast_eq_ok_iff.mp hfit
    rw [hfit] at h
    cases h
    refine ⟨hroom, List.splitOn_intercalate separator ?_ (by simp)⟩
    exact not_mem_fitted hlast (isPrefix_nameLeft _ _ _) fun c => not_mem_of_mem_splitOn

theorem lastComponent_of_fitComponents {separator : UInt8} {budget : Nat}
    {path name extension out : Bytes} (hlast : lastComponent separator path = name ++ extension)
    (h : fitComponents separator budget extension path = .ok out) :
    lastComponent separator out = nameLeft budget name extension ++ extension := by
  rw [lastComponent, (splitOn_of_fitComponents hlast h).2, List.getLastD_concat]

/-- Of the name a part is left, which is all of it if there is nothing to cut, and splits no code point
if there is. -/
theorem exists_base_of_fitComponents {separator : UInt8} {budget : Nat} {path name extension out : Bytes}
    (hlast : lastComponent separator path = name ++ extension)
    (h : fitComponents separator budget extension path = .ok out) :
    ∃ base, base <+: name ∧ (base ++ extension).length ≤ budget ∧
      (budget < (name ++ extension).length → Utf8.WellFormed base) ∧
      ((name ++ extension).length ≤ budget → base = name) ∧
      out.splitOn separator =
        (innerComponents separator path).map (fitInner budget) ++ [base ++ extension] := by
  obtain ⟨hroom, hsplit⟩ := splitOn_of_fitComponents hlast h
  exact ⟨nameLeft budget name extension, isPrefix_nameLeft _ _ _, length_nameLeft_append_le hroom,
    wellFormed_nameLeft_of_lt, nameLeft_of_le, hsplit⟩

/-- No separator comes or goes. -/
theorem count_fitComponents {separator : UInt8} {budget : Nat} {path name extension out : Bytes}
    (hlast : lastComponent separator path = name ++ extension)
    (h : fitComponents separator budget extension path = .ok out) :
    out.count separator = path.count separator := by
  obtain ⟨base, -, -, -, -, hsplit⟩ := exists_base_of_fitComponents hlast h
  have hout := length_splitOn separator out
  have hpath := length_splitOn separator path
  rw [hsplit, List.length_append, List.length_map, List.length_singleton] at hout
  rw [splitOn_eq, List.length_append, List.length_singleton] at hpath
  omega

end SafePath.Path
