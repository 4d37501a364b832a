import SafePath.Proofs.Path.Components
import SafePath.Proofs.Utf8.CutWithin

/-!
# The cascading walk cuts every component for itself

The walk deletes from one buffer while it goes over it with an index, so every cut moves what follows.
Its state is described by what is behind the index and what is in front of it (`Walk.between`).  A step
takes the first component off the front, cuts it and puts it behind (`step_between_cutInner`), or ends the
walk at the last component (`step_between_last`).

    (cutComponents separator budget extension buffer).2 =
      fitComponents separator budget extension buffer       (cutComponents_eq_fitComponents)

For the equation no component may hold a NUL, in front of which the search for a boundary would stop: then the
cut is at the last boundary (`step_between_inner`).
-/

namespace SafePath.Path

/-- The walk with `done` behind its index and `rest` in front of it. -/
def Walk.between (done rest : Bytes) : Walk := ⟨done ++ rest, done.length⟩

/-- The cut that makes `after` out of a component `before` at `offset`, if it is longer than the budget. -/
def cutOf (budget offset : Nat) (before after : Bytes) : Option Cut :=
  if budget < before.length then some ⟨offset, before.length, after.length⟩ else none

theorem keptOf_eq_lastBoundary {element : Bytes} {size budget : Nat} (hsize : size ≤ element.length)
    (hnul : 0 ∉ element) (hlt : budget < size) :
    keptOf element size budget = Utf8.lastBoundary budget (element.take size) := by
  rw [keptOf, Utf8.cutWithin_eq_lastBoundary hsize (fun h => hnul (List.mem_of_mem_take h)) hlt,
    Int.toNat_natCast]

theorem findIdx?_eq_none_of_not_mem {separator : UInt8} {c : Bytes} (hc : separator ∉ c) :
    c.findIdx? (· == separator) = none := by
  rw [List.findIdx?_eq_none_iff]
  intro b hb
  rw [beq_eq_false_iff_ne]
  rintro rfl
  exact hc hb

theorem Walk.separatorAt_of_not_mem {separator : UInt8} {w : Walk} (h : separator ∉ w.buffer.drop w.start) :
    w.separatorAt separator = none := findIdx?_eq_none_of_not_mem h

/-- What a step leaves of an inner component, whatever bytes it holds. -/
def cutInner (budget : Nat) (c : Bytes) : Bytes :=
  if budget < c.length then c.take (keptOf c c.length budget) else c

theorem cutInner_eq_fitInner {c : Bytes} (hnul : 0 ∉ c) (budget : Nat) : cutInner budget c = fitInner budget c := by
  unfold cutInner fitInner
  split
  · next hlong => rw [keptOf_eq_lastBoundary (Nat.le_refl _) hnul hlong, List.take_length]
  · rfl

/-- A component that is too long is cut at a boundary within the budget. -/
theorem isBoundary_keptOf {budget : Nat} {c : Bytes} (hlong : budget < c.length) :
    Utf8.IsBoundary c (keptOf c c.length budget) ∧ keptOf c c.length budget ≤ budget := by
  obtain ⟨kept, hkept, hbound, hle⟩ := Utf8.exists_isBoundary_cutWithin (Nat.le_refl c.length) hlong
  rw [List.take_length] at hbound
  rw [keptOf, hkept, Int.toNat_natCast]
  exact ⟨hbound, hle⟩

theorem leftOf_cutInner (budget : Nat) (c : Bytes) : LeftOf budget c (cutInner budget c) := by
  rcases Nat.lt_or_ge budget c.length with hlong | hfits
  · obtain ⟨hbound, hle⟩ := isBoundary_keptOf hlong
    exact Or.inr ⟨_, hbound, hle, if_pos hlong⟩
  · exact Or.inl ⟨hfits, if_neg (Nat.not_lt.mpr hfits)⟩

section
variable {separator : UInt8} (budget : Nat) (extension : Bytes) {c : Bytes}
  (hc : separator ∉ c) (hnul : 0 ∉ c)

include hc

theorem separatorAt_between_inner (done rest : Bytes) :
    (Walk.between done (c ++ separator :: rest)).separatorAt separator = some c.length := by
  unfold Walk.separatorAt Walk.between
  rw [List.drop_left, List.findIdx?_append, findIdx?_eq_none_of_not_mem hc]
  simp [List.findIdx?_cons]

theorem separatorAt_between_last (done : Bytes) :
    (Walk.between done c).separatorAt separator = none := by
  apply Walk.separatorAt_of_not_mem
  rwa [Walk.between, List.drop_left]

/-- A step over an inner component: the component is cut, what follows it is untouched. -/
theorem step_between_cutInner (done rest : Bytes) :
    (Walk.between done (c ++ separator :: rest)).step separator budget extension =
      .more (Walk.between (done ++ (cutInner budget c ++ [separator])) rest)
        (cutOf budget done.length c (cutInner budget c)) := by
  unfold Walk.step
  rw [separatorAt_between_inner hc]
  simp only [Walk.stepInner, Walk.between, cutOf, cutInner, List.drop_left, List.take_left]
  split
  · next hlong =>
    have hk : (c.take (keptOf c c.length budget)).length = keptOf c c.length budget :=
      List.length_take_of_le (isBoundary_keptOf hlong).1.1
    generalize keptOf c c.length budget = k at *
    rw [List.take_length_add_append, List.take_append_of_le_length (by rw [← hk, List.length_take]; omega),
      List.drop_length_add_append, List.drop_left]
    simp [hk, Nat.add_assoc]
  · simp [Nat.add_assoc]

include hnul

/-- Without a NUL in the component, it is cut at its last boundary within the budget. -/
theorem step_between_inner (done rest : Bytes) :
    (Walk.between done (c ++ separator :: rest)).step separator budget extension =
      .more (Walk.between (done ++ (fitInner budget c ++ [separator])) rest)
        (cutOf budget done.length c (fitInner budget c)) := by
  rw [step_between_cutInner budget extension hc, cutInner_eq_fitInner hnul]

/-- The step over the last component. -/
theorem step_between_last (done : Bytes) :
    (Walk.between done c).step separator budget extension =
      match fitLast budget extension c with
      | .ok last => .done (done ++ last) (cutOf budget done.length c last)
      | .error reason => .stuck reason := by
  unfold Walk.step
  rw [separatorAt_between_last hc]
  simp only [Walk.stepLast, Walk.between, List.drop_left, List.length_append, Nat.add_sub_cancel_left,
    fitLast]
  split
  · next hlong =>
    rw [keptOf_eq_lastBoundary (Nat.le_refl _) hnul hlong, List.take_length]
    have hk := Utf8.isBoundary_lastBoundary budget c
    have hle := Utf8.lastBoundary_le budget c
    generalize Utf8.lastBoundary budget c = k at *
    split
    · simp only [cutOf, if_pos hlong, List.take_length_add_append, List.length_take_of_le hk.1]
    split
    · rfl
    · -- the name is cut a second time, to what the extension leaves of the first cut
      rw [keptOf_eq_lastBoundary (Nat.sub_le _ _) hnul (by omega)]
      have hbase := (Utf8.isBoundary_lastBoundary (k - extension.length)
        (c.take (c.length - extension.length))).1
      generalize Utf8.lastBoundary (k - extension.length) (c.take (c.length - extension.length)) = b at *
      have hb : b ≤ c.length - extension.length := by
        rw [List.length_take] at hbase
        omega
      rw [List.take_length_add_append, List.take_take, Nat.min_eq_left hb, List.append_assoc]
      simp only [cutOf, if_pos hlong, List.length_append, List.length_take_of_le (Nat.le_trans hb (Nat.sub_le _ _))]
  · next hshort => simp only [cutOf, if_neg hshort]

end

/-! ## The whole walk -/

/-- The run of a walk, without the proof that it comes to an end. -/
theorem Walk.run_eq (separator : UInt8) (budget : Nat) (extension : Bytes) (w : Walk) :
    w.run separator budget extension =
      match w.step separator budget extension with
      | .more next cut =>
        (cut.toList ++ (next.run separator budget extension).1,
          (next.run separator budget extension).2)
      | .done buffer cut => (cut.toList, .ok buffer)
      | .stuck reason => ([], .error reason) := by
  rw [Walk.run]
  split
  · next h => rw [h]
  · next h => rw [h]
  · next h => rw [h]

/-- From every place on, the walk leaves what is behind it and cuts every component in front of it for
itself. -/
theorem run_between (separator : UInt8) (budget : Nat) (extension rest : Bytes)
    (hnul : ∀ c ∈ rest.splitOn separator, 0 ∉ c) (done : Bytes) :
    ((Walk.between done rest).run separator budget extension).2 =
      (fitComponents separator budget extension rest).map (done ++ ·) := by
  induction rest using component_induction separator generalizing done with
  | last c hc =>
    rw [splitOn_of_not_mem hc, List.forall_mem_singleton] at hnul
    have hstep := step_between_last budget extension hc hnul done
    rw [fitComponents_of_not_mem hc]
    cases hfit : fitLast budget extension c with
    | error reason =>
      rw [hfit] at hstep
      rw [Walk.run_eq, hstep]
      rfl
    | ok last =>
      rw [hfit] at hstep
      rw [Walk.run_eq, hstep]
      rfl
  | inner c rest hc ih =>
    rw [List.splitOn_append_cons_self_of_not_mem hc, List.forall_mem_cons] at hnul
    rw [Walk.run_eq, step_between_inner budget extension hc hnul.1 done rest,
      fitComponents_append_cons hc]
    simp only [ih hnul.2]
    cases fitComponents separator budget extension rest with
    | error reason => rfl
    | ok path => simp only [Except.map, List.append_assoc]

/-- **The cascading walk over the whole path cuts every component for itself.** -/
theorem cutComponents_eq_fitComponents (separator : UInt8) (budget : Nat) (extension buffer : Bytes)
    (hnul : ∀ c ∈ buffer.splitOn separator, 0 ∉ c) :
    (cutComponents separator budget extension buffer).2 =
      fitComponents separator budget extension buffer := by
  have h := run_between separator budget extension buffer hnul []
  cases hfit : fitComponents separator budget extension buffer with
  | error reason => rwa [hfit] at h
  | ok path => rwa [hfit] at h

end SafePath.Path
