import SafePath.Path.Limits
import SafePath.Proofs.Path.Cascade

/-!
# The walk step after step

A walk over a path stands at the start of one step after the other (`Walk.Visits`).  At the start of step `i`
(`Walk.Invariant`), what is behind the index is made of `i` components that fit into the budget, each with its
separator, and what is in front of it is the assembled path behind its separator number `i`, untouched.

    the invariant holds at the first step                                     (Walk.invariant_start)
    a step that goes on carries it from `i` to `i + 1`                        (Walk.Invariant.step)
    so it holds at every step, and there is one step more than separators     (Walk.Visits.invariant)

An ASCII separator is no part of another encoding, so UTF-8 stays UTF-8, and components are only ever given
to the cut as UTF-8 (`Walk.Invariant.element`).  No byte is excluded from the path, not even NUL.
-/

namespace SafePath.Path

/-- The walk from `w` on: where it stands at the start of each of its steps, and what it comes to. -/
inductive Walk.Visits (separator : UInt8) (budget : Nat) (extension : Bytes) :
    Walk → List Walk → List Cut × Except NoRoom Bytes → Prop
  | more {w next : Walk} {cut : Option Cut} {walks : List Walk} {cuts : List Cut} {result : Except NoRoom Bytes}
    (step : w.step separator budget extension = .more next cut)
    (rest : Walk.Visits separator budget extension next walks (cuts, result)) :
    Walk.Visits separator budget extension w (w :: walks) (cut.toList ++ cuts, result)
  | done {w : Walk} {path : Bytes} {cut : Option Cut}
    (step : w.step separator budget extension = .done path cut) :
    Walk.Visits separator budget extension w [w] (cut.toList, .ok path)
  | stuck {w : Walk} {reason : NoRoom}
    (step : w.step separator budget extension = .stuck reason) :
    Walk.Visits separator budget extension w [w] ([], .error reason)

/-- What holds of a walk over `assembled` at the start of step `i`. -/
structure Walk.Invariant (separator : UInt8) (budget : Nat) (assembled : Bytes) (i : Nat) (w : Walk) : Prop where
  wellFormed : Utf8.WellFormed w.buffer
  start : Utf8.IsBoundary w.buffer w.start
  behind : ∃ parts : List Bytes, parts.length = i ∧ (∀ c ∈ parts, separator ∉ c ∧ c.length ≤ budget) ∧
    w.buffer.take w.start = parts.flatMap (· ++ [separator])
  ahead : ∃ front : Bytes, front ++ w.buffer.drop w.start = assembled ∧ front.count separator = i ∧
    (front = [] ∨ front.getLast? = some separator)

/-! ## One course for every walk -/

section
variable {separator : UInt8} {budget : Nat} {extension : Bytes}

theorem Walk.Visits.unique {w : Walk} {walks walks' : List Walk} {outcome outcome' : List Cut × Except NoRoom Bytes}
    (h : w.Visits separator budget extension walks outcome)
    (h' : w.Visits separator budget extension walks' outcome') : walks = walks' ∧ outcome = outcome' := by
  induction h generalizing walks' outcome' with
  | more hstep _ ih =>
    cases h' with
    | more hstep' hrest =>
      obtain ⟨rfl, rfl⟩ := Step.more.inj (hstep.symm.trans hstep')
      obtain ⟨rfl, houtcome⟩ := ih hrest
      obtain ⟨rfl, rfl⟩ := Prod.mk.inj houtcome
      exact ⟨rfl, rfl⟩
    | done hstep' => cases hstep.symm.trans hstep'
    | stuck hstep' => cases hstep.symm.trans hstep'
  | done hstep =>
    cases h' with
    | more hstep' _ => cases hstep.symm.trans hstep'
    | done hstep' =>
      obtain ⟨rfl, rfl⟩ := Step.done.inj (hstep.symm.trans hstep')
      exact ⟨rfl, rfl⟩
    | stuck hstep' => cases hstep.symm.trans hstep'
  | stuck hstep =>
    cases h' with
    | more hstep' _ => cases hstep.symm.trans hstep'
    | done hstep' => cases hstep.symm.trans hstep'
    | stuck hstep' =>
      obtain rfl := Step.stuck.inj (hstep.symm.trans hstep')
      exact ⟨rfl, rfl⟩

/-- The walk comes to an end, and to what its run says. -/
theorem Walk.exists_visits (separator : UInt8) (budget : Nat) (extension : Bytes) (w : Walk) :
    ∃ walks, w.Visits separator budget extension walks (w.run separator budget extension) := by
  induction w using Walk.run.induct separator budget extension with
  | case1 w next cut hstep cuts result hrun ih =>
    obtain ⟨walks, hwalks⟩ := ih
    rw [Walk.run_eq, hstep]
    exact ⟨w :: walks, .more hstep hwalks⟩
  | case2 w path cut hstep =>
    rw [Walk.run_eq, hstep]
    exact ⟨[w], .done hstep⟩
  | case3 w reason hstep =>
    rw [Walk.run_eq, hstep]
    exact ⟨[w], .stuck hstep⟩

/-! ## A step -/

theorem Walk.eq_between {w : Walk} (h : w.start ≤ w.buffer.length) :
    w = Walk.between (w.buffer.take w.start) (w.buffer.drop w.start) := by
  rw [Walk.between, List.take_append_drop, List.length_take_of_le h]

/-- In front of the index is a component with its separator, or the last component. -/
theorem Walk.ahead_cases (separator : UInt8) {w : Walk} (h : w.start ≤ w.buffer.length) :
    (∃ c rest, separator ∉ c ∧ w = Walk.between (w.buffer.take w.start) (c ++ separator :: rest)) ∨
      separator ∉ w.buffer.drop w.start := by
  by_cases hmem : separator ∈ w.buffer.drop w.start
  · obtain ⟨c, rest, hsplit, hc⟩ := List.eq_append_cons_of_mem hmem
    refine Or.inl ⟨c, rest, hc, ?_⟩
    rw [← hsplit]
    exact Walk.eq_between h
  · exact Or.inr hmem

/-- The walk does not go on over the last component. -/
theorem Walk.step_ne_more {w next : Walk} {cut : Option Cut} (h : separator ∉ w.buffer.drop w.start) :
    w.step separator budget extension ≠ .more next cut := by
  unfold Walk.step
  rw [Walk.separatorAt_of_not_mem h]
  simp only [Walk.stepLast]
  repeat' split
  all_goals simp

end

/-! ## The invariant -/

section
variable {separator : UInt8} {budget : Nat} {assembled : Bytes} {i : Nat}

/-- The invariant by what is behind the index and what is in front of it. -/
theorem Walk.invariant_between_iff {done rest : Bytes} :
    (Walk.between done rest).Invariant separator budget assembled i ↔
      (Utf8.WellFormed done ∧ Utf8.WellFormed rest) ∧
      (∃ parts : List Bytes, parts.length = i ∧ (∀ c ∈ parts, separator ∉ c ∧ c.length ≤ budget) ∧
        done = parts.flatMap (· ++ [separator])) ∧
      ∃ front : Bytes, front ++ rest = assembled ∧ front.count separator = i ∧
        (front = [] ∨ front.getLast? = some separator) := by
  constructor
  · rintro ⟨hwf, ⟨-, hdone⟩, hbehind, hahead⟩
    simp only [Walk.between, List.take_left, List.drop_left] at hwf hdone hbehind hahead
    exact ⟨⟨hdone, (hdone.append_iff rest).mp hwf⟩, hbehind, hahead⟩
  · rintro ⟨⟨hdone, hrest⟩, hbehind, hahead⟩
    refine ⟨hdone.append hrest, ⟨by simp [Walk.between], ?_⟩, ?_, ?_⟩
    all_goals simpa only [Walk.between, List.take_left, List.drop_left]

theorem Walk.invariant_start (h : Utf8.WellFormed assembled) :
    Walk.Invariant separator budget assembled 0 ⟨assembled, 0⟩ := by
  show (Walk.between [] assembled).Invariant separator budget assembled 0
  exact Walk.invariant_between_iff.mpr
    ⟨⟨.nil, h⟩, ⟨[], rfl, by simp, rfl⟩, ⟨[], rfl, rfl, Or.inl rfl⟩⟩

variable {extension : Bytes} {w next : Walk} {cut : Option Cut}

/-- **A step that goes on keeps the invariant**: one more component is behind the index, and one more
separator. -/
theorem Walk.Invariant.step (hs : separator < 0x80) (h : w.Invariant separator budget assembled i)
    (hstep : w.step separator budget extension = .more next cut) :
    next.Invariant separator budget assembled (i + 1) := by
  rcases Walk.ahead_cases separator h.start.1 with ⟨c, rest, hc, hw⟩ | hlast
  · rw [hw] at h hstep
    rw [step_between_cutInner budget extension hc] at hstep
    obtain ⟨rfl, -⟩ := Step.more.inj hstep
    obtain ⟨⟨hdone, hrest⟩, ⟨parts, hcount, hparts, hbehind⟩, front, hfront, hcounted, -⟩ :=
      Walk.invariant_between_iff.mp h
    obtain ⟨hwf, hrest⟩ := (Utf8.wellFormed_append_ascii_cons_iff hs c rest).mp hrest
    have hleft := leftOf_cutInner budget c
    have hcut : Utf8.WellFormed (cutInner budget c ++ [separator]) :=
      (Utf8.wellFormed_append_ascii_cons_iff hs _ _).mpr ⟨hleft.wellFormed hwf, .nil⟩
    refine Walk.invariant_between_iff.mpr ⟨⟨hdone.append hcut, hrest⟩, ⟨parts ++ [cutInner budget c], ?_, ?_, ?_⟩,
      front ++ (c ++ [separator]), ?_, ?_, Or.inr ?_⟩
    · rw [List.length_append, hcount, List.length_singleton]
    · rw [List.forall_mem_append, List.forall_mem_singleton]
      exact ⟨hparts, fun hmem => hc (hleft.isPrefix.subset hmem), hleft.length_le⟩
    · rw [hbehind, List.flatMap_append, List.flatMap_singleton]
    · rw [← hfront]
      simp only [List.append_assoc, List.singleton_append]
    · rw [List.count_append, hcounted, List.count_append, List.count_eq_zero.mpr hc, List.count_singleton_self]
    · rw [← List.append_assoc, List.getLast?_concat]
  · exact absurd hstep (Walk.step_ne_more hlast)

/-- Where a separator is found is a boundary, and what is given to the cut is UTF-8. -/
theorem Walk.Invariant.element (hs : separator < 0x80) (h : w.Invariant separator budget assembled i) :
    Utf8.WellFormed (w.buffer.drop w.start) ∧
      ∀ size, w.separatorAt separator = some size →
        Utf8.IsBoundary w.buffer (w.start + size) ∧ Utf8.WellFormed ((w.buffer.drop w.start).take size) := by
  have hahead : Utf8.WellFormed (w.buffer.drop w.start) := by
    rw [← h.start.2.append_iff, List.take_append_drop]
    exact h.wellFormed
  refine ⟨hahead, fun size hat => ?_⟩
  rcases Walk.ahead_cases separator h.start.1 with ⟨c, rest, hc, hw⟩ | hlast
  · have hdrop : w.buffer.drop w.start = c ++ separator :: rest := by
      rw [hw, Walk.between, List.drop_left]
    rw [hw, separatorAt_between_inner hc, Option.some.injEq] at hat
    subst hat
    rw [hdrop] at hahead ⊢
    have hwf := ((Utf8.wellFormed_append_ascii_cons_iff hs c rest).mp hahead).1
    rw [List.take_left]
    refine ⟨h.start.add ⟨?_, ?_⟩, hwf⟩
    · simp [hdrop]
    · rwa [hdrop, List.take_left]
  · rw [Walk.separatorAt_of_not_mem hlast] at hat
    cases hat

/-- Where the walk does not go on, all separators are behind the index, and no other step follows. -/
theorem Walk.Invariant.ended (h : w.Invariant separator budget assembled i)
    (hend : ∀ next cut, w.step separator budget extension ≠ .more next cut) :
    i + [w].length = assembled.count separator + 1 ∧
      ∀ (j : Nat) (v : Walk), [w][j]? = some v → v.Invariant separator budget assembled (i + j) := by
  refine ⟨?_, fun j v hv => ?_⟩
  · obtain ⟨front, hfront, hcounted, -⟩ := h.ahead
    rcases Walk.ahead_cases separator h.start.1 with ⟨c, rest, hc, hw⟩ | hlast
    · rw [hw] at hend
      exact absurd (step_between_cutInner budget extension hc _ rest) (hend _ _)
    · rw [← hfront, List.count_append, hcounted, List.count_eq_zero.mpr hlast, List.length_singleton]
  · cases j with
    | zero =>
      obtain rfl := Option.some.inj hv
      exact h
    | succ j => cases hv

/-- **From a step where the invariant holds, it holds at every step from then on**, and the walk takes one step
more than separators are left. -/
theorem Walk.Visits.invariant (hs : separator < 0x80) {walks : List Walk}
    {outcome : List Cut × Except NoRoom Bytes} (hv : w.Visits separator budget extension walks outcome)
    (h : w.Invariant separator budget assembled i) :
    i + walks.length = assembled.count separator + 1 ∧
      ∀ (j : Nat) (v : Walk), walks[j]? = some v → v.Invariant separator budget assembled (i + j) := by
  induction hv generalizing i with
  | @more w next cut walks cuts result hstep _ ih =>
    obtain ⟨hlength, hrest⟩ := ih (h.step hs hstep)
    refine ⟨by rw [List.length_cons]; omega, fun j v hv => ?_⟩
    cases j with
    | zero =>
      obtain rfl := Option.some.inj hv
      exact h
    | succ j =>
      rw [← Nat.succ_add_eq_add_succ]
      exact hrest j v hv
  | done hstep => exact h.ended fun _ _ hmore => Step.noConfusion (hstep.symm.trans hmore)
  | stuck hstep => exact h.ended fun _ _ hmore => Step.noConfusion (hstep.symm.trans hmore)

end

/-! ## The whole walk -/

/-- **The walk keeps its invariant**: over UTF-8 it takes exactly one step more than there are separators,
also where the last one finds no room for the extension.  At the start of every step the buffer is UTF-8 and
the index on a boundary; behind it stand as many components as steps were taken, each within the budget and
with its separator, and in front of it what follows as many separators of the assembled path.  A separator is
always found on a boundary, so what is given to the cut is UTF-8. -/
theorem cutComponents_keeps_invariant {assembled : Bytes} (h : Utf8.WellFormed assembled) (limits : Limits)
    (extension : Bytes) :
    ∃ walks : List Walk,
      (∀ visited outcome,
        Walk.Visits limits.separator limits.maxComponent extension ⟨assembled, 0⟩ visited outcome ↔
          visited = walks ∧ outcome = cutComponents limits.separator limits.maxComponent extension assembled) ∧
      walks.length = assembled.count limits.separator + 1 ∧
      ∀ (i : Nat) (w : Walk), walks[i]? = some w →
        w.Invariant limits.separator limits.maxComponent assembled i ∧
        Utf8.WellFormed (w.buffer.drop w.start) ∧
        ∀ size, w.separatorAt limits.separator = some size →
          Utf8.IsBoundary w.buffer (w.start + size) ∧ Utf8.WellFormed ((w.buffer.drop w.start).take size) := by
  obtain ⟨walks, hwalks⟩ := Walk.exists_visits limits.separator limits.maxComponent extension ⟨assembled, 0⟩
  obtain ⟨hlength, hinvariant⟩ := hwalks.invariant limits.separator_ascii (Walk.invariant_start h)
  refine ⟨walks, fun visited outcome => ⟨fun hvisited => hvisited.unique hwalks, ?_⟩, by omega, fun i w hw => ?_⟩
  · rintro ⟨rfl, rfl⟩
    exact hwalks
  · have hi := hinvariant i w hw
    rw [Nat.zero_add] at hi
    exact ⟨hi, hi.element limits.separator_ascii⟩

/-- Two inner components are cut and move the last one, of which the extension leaves no room for a name. -/
theorem cutComponents_keeps_invariant_stuck :
    let assembled : Bytes := Text.encode "é€/aé€/name.bin"
    Utf8.WellFormed assembled ∧
      ∃ walks : List Walk, walks.length = 3 ∧
        Walk.Visits 0x2F 3 (Text.encode ".bin") ⟨assembled, 0⟩ walks ([⟨0, 5, 2⟩, ⟨3, 6, 3⟩], .error ⟨4, 3⟩) ∧
        ∀ (i : Nat) (w : Walk), walks[i]? = some w → w.Invariant 0x2F 3 assembled i := by
  intro assembled
  have h : Utf8.WellFormed assembled := by decide +kernel
  have hrun : cutComponents 0x2F 3 (Text.encode ".bin") assembled = ([⟨0, 5, 2⟩, ⟨3, 6, 3⟩], .error ⟨4, 3⟩) := by
    decide +kernel
  obtain ⟨walks, hvisits, hlength, hsteps⟩ := cutComponents_keeps_invariant h
    { Limits.default with maxComponent := 3, maxComponent_pos := by decide } (Text.encode ".bin")
  refine ⟨h, walks, ?_, ?_, fun i w hw => (hsteps i w hw).1⟩
  · rw [hlength]
    decide +kernel
  · exact (hvisits walks _).mpr ⟨rfl, hrun.symm⟩

end SafePath.Path
