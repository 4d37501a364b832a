import Mathlib.Algebra.GroupWithZero.Nat
import SafePath.Proofs.Path.Parts

/-!
# The reports account for what is cut

A cut is reported where it is made, in a buffer of which the front is done and the rest is still to come.  So the
offset that is reported is the one at which the component starts in the path that comes out, and of the two sizes
the first is that of the component as it was joined and the second that of what is left of it:

    the cuts of a walk are `cutsBetween` the components in front of it and those behind it    (cuts_run_between)

Every component is `Fitted`: it comes within the limit, and as it was if it was within it before.  So those that
were too long are reported and no others (`map_before_cutsBetween`), and the sizes add up to what the path has less
than the joined parts (`sum_lost_cutsBetween`, `length_add_one`).
-/

namespace SafePath

namespace Path

/-! ## Components and their places -/

/-- Components with the offsets at which they start, the first at `offset`, a separator between each two. -/
def placed (offset : Nat) : List Bytes → List (Nat × Bytes)
  | [] => []
  | c :: rest => (offset, c) :: placed (offset + c.length + 1) rest

/-- A component `c` of the path starts at `start`, behind a separator or at the front, and reaches to the next
separator or to the end. -/
def StartsAt (separator : UInt8) (path : Bytes) (start : Nat) (c : Bytes) : Prop :=
  ∃ done rest, path = done ++ c ++ rest ∧ done.length = start ∧ separator ∉ c ∧
    (done = [] ∨ done.getLast? = some separator) ∧ (rest = [] ∨ rest.head? = some separator)

/-- The cuts that make the components `afters` out of the components `befores`. -/
def cutsBetween (budget offset : Nat) (befores afters : List Bytes) : List Cut :=
  (befores.zip (placed offset afters)).filterMap fun (before, start, after) => cutOf budget start before after

theorem cutsBetween_cons (budget offset : Nat) (before after : Bytes) (befores afters : List Bytes) :
    cutsBetween budget offset (before :: befores) (after :: afters) =
      (cutOf budget offset before after).toList ++
        cutsBetween budget (offset + after.length + 1) befores afters := by
  unfold cutsBetween
  rw [placed, List.zip_cons_cons]
  cases hcut : cutOf budget offset before after with
  | none => exact List.filterMap_cons_none hcut
  | some cut => exact List.filterMap_cons_some hcut

section
variable {separator : UInt8}

/-- The offsets of the components are where they start. -/
theorem startsAt_of_mem_placed {path c : Bytes} {offset start : Nat}
    (h : (start, c) ∈ placed offset (path.splitOn separator)) :
    ∃ n, start = offset + n ∧ StartsAt separator path n c := by
  induction path using component_induction separator generalizing offset with
  | last d hd =>
    rw [splitOn_of_not_mem hd, placed, placed, List.mem_singleton] at h
    cases h
    exact ⟨0, rfl, [], [], by simp, rfl, hd, Or.inl rfl, Or.inl rfl⟩
  | inner d rest hd ih =>
    rw [List.splitOn_append_cons_self_of_not_mem hd, placed] at h
    rcases List.mem_cons.mp h with hhead | htail
    · cases hhead
      exact ⟨0, rfl, [], separator :: rest, rfl, rfl, hd, Or.inl rfl, Or.inr rfl⟩
    · obtain ⟨n, rfl, done, behind, rfl, rfl, hc, hdone, hbehind⟩ := ih htail
      refine ⟨(d ++ separator :: done).length, by simp; omega, d ++ separator :: done, behind, by simp, rfl, hc,
        Or.inr ?_, hbehind⟩
      rcases hdone with rfl | hend
      · rw [List.getLast?_concat]
      · rw [List.getLast?_append, List.getLast?_cons, hend]
        rfl

/-- A path is as long as its components, and the separators between them. -/
theorem length_add_one (separator : UInt8) (path : Bytes) :
    path.length + 1 =
      ((path.splitOn separator).map List.length).sum + (path.splitOn separator).length := by
  induction path using component_induction separator with
  | last c hc => rw [splitOn_of_not_mem hc]; rfl
  | inner c rest hc ih =>
    rw [List.splitOn_append_cons_self_of_not_mem hc, List.map_cons, List.sum_cons, List.length_cons,
      List.length_append, List.length_cons]
    omega

end

/-! ## Components within a limit -/

/-- What a limit of `budget` bytes leaves of a component: no more than that, and all of one that is within it. -/
structure Fitted (budget : Nat) (before after : Bytes) : Prop where
  within : after.length ≤ budget
  kept : before.length ≤ budget → after = before

section
variable {budget : Nat} {befores afters : List Bytes} (h : List.Forall₂ (Fitted budget) befores afters)

include h

/-- The components that are too long are cut, in their order, and no others. -/
theorem map_before_cutsBetween (offset : Nat) :
    (cutsBetween budget offset befores afters).map Cut.before =
      (befores.map List.length).filter fun size => decide (budget < size) := by
  induction h generalizing offset with
  | nil => rfl
  | @cons before after befores afters _ _ ih =>
    rw [cutsBetween_cons, List.map_append, ih, List.map_cons, List.filter_cons]
    unfold cutOf
    by_cases hlong : budget < before.length
    · rw [if_pos hlong, if_pos (decide_eq_true hlong)]
      rfl
    · rw [if_neg hlong, if_neg (by simpa using hlong)]
      rfl

theorem after_lt_before_of_mem_cutsBetween {offset : Nat} :
    ∀ cut ∈ cutsBetween budget offset befores afters, cut.after < cut.before := by
  induction h generalizing offset with
  | nil => exact fun cut hcut => absurd hcut List.not_mem_nil
  | @cons before after befores afters hfitted _ ih =>
    rw [cutsBetween_cons, List.forall_mem_append]
    refine ⟨fun cut hcut => ?_, ih⟩
    unfold cutOf at hcut
    split at hcut
    · next hlong =>
      obtain rfl := List.mem_singleton.mp hcut
      exact Nat.lt_of_le_of_lt hfitted.within hlong
    · cases hcut

/-- **What the cuts lose is what the components have lost.** -/
theorem sum_lost_cutsBetween (offset : Nat) :
    (afters.map List.length).sum +
        ((cutsBetween budget offset befores afters).map fun cut => cut.before - cut.after).sum =
      (befores.map List.length).sum := by
  induction h generalizing offset with
  | nil => rfl
  | @cons before after befores afters hfitted _ ih =>
    have hrest := ih (offset + after.length + 1)
    rw [cutsBetween_cons, List.map_append, List.sum_append, List.map_cons, List.sum_cons, List.map_cons,
      List.sum_cons]
    unfold cutOf
    by_cases hlong : budget < before.length
    · have hwithin := hfitted.within
      rw [if_pos hlong]
      simp only [Option.toList_some, List.map_cons, List.map_nil, List.sum_cons, List.sum_nil]
      omega
    · obtain rfl := hfitted.kept (Nat.le_of_not_lt hlong)
      rw [if_neg hlong]
      simp only [Option.toList_none, List.map_nil, List.sum_nil]
      omega

end

/-! ## The cuts of a walk -/

/-- From every place on, the walk reports the components that it cuts, at the places where they start once it is
over. -/
theorem cuts_run_between {separator : UInt8} {budget : Nat} {extension rest last : Bytes}
    (hnul : ∀ c ∈ rest.splitOn separator, 0 ∉ c)
    (hlast : fitLast budget extension (lastComponent separator rest) = .ok last) (done : Bytes) :
    ((Walk.between done rest).run separator budget extension).1 =
      cutsBetween budget done.length (rest.splitOn separator)
        ((innerComponents separator rest).map (fitInner budget) ++ [last]) := by
  induction rest using component_induction separator generalizing done with
  | last c hc =>
    rw [splitOn_of_not_mem hc, List.forall_mem_singleton] at hnul
    rw [lastComponent_of_not_mem hc] at hlast
    have hstep := step_between_last budget extension hc hnul done
    rw [hlast] at hstep
    rw [Walk.run_eq, hstep, splitOn_of_not_mem hc, innerComponents_of_not_mem hc, List.map_nil, List.nil_append,
      cutsBetween_cons]
    exact (List.append_nil _).symm
  | inner c rest hc ih =>
    rw [List.splitOn_append_cons_self_of_not_mem hc, List.forall_mem_cons] at hnul
    rw [lastComponent_append_cons] at hlast
    have hnext := ih hnul.2 hlast (done ++ (fitInner budget c ++ [separator]))
    rw [Walk.run_eq, step_between_inner budget extension hc hnul.1 done rest]
    simp only [hnext]
    rw [List.splitOn_append_cons_self_of_not_mem hc, innerComponents_append_cons, splitOn_of_not_mem hc,
      List.singleton_append, List.map_cons, List.cons_append, cutsBetween_cons, List.length_append,
      List.length_append, List.length_singleton, Nat.add_assoc]

/-- Cuts account for what `path` has less than `whole`. -/
structure AccountFor (separator : UInt8) (budget : Nat) (whole path : Bytes) (cuts : List Cut) : Prop where
  /-- Every component comes out, -/
  length_eq : (path.splitOn separator).length = (whole.splitOn separator).length
  /-- at the place that is told, -/
  startsAt : ∀ start c, (start, c) ∈ placed 0 (path.splitOn separator) → StartsAt separator path start c
  /-- and where it was too long a cut tells this place and both sizes. -/
  cuts_eq : cuts = cutsBetween budget 0 (whole.splitOn separator) (path.splitOn separator)
  /-- The sizes before are those that are too long, from left to right, -/
  before_eq : cuts.map Cut.before =
    ((whole.splitOn separator).map List.length).filter fun size => decide (budget < size)
  /-- those after are smaller, -/
  after_lt : ∀ cut ∈ cuts, cut.after < cut.before
  /-- and together they make up for all that is lost. -/
  lost : path.length + (cuts.map fun cut => cut.before - cut.after).sum = whole.length

section
variable {separator : UInt8} {budget : Nat} {whole name extension path : Bytes}
  (hlast : lastComponent separator whole = name ++ extension)
  (hfit : fitComponents separator budget extension whole = .ok path)

include hlast hfit

theorem forall₂_fitted_of_fitComponents :
    List.Forall₂ (Fitted budget) (whole.splitOn separator) (path.splitOn separator) := by
  obtain ⟨hroom, hsplit⟩ := splitOn_of_fitComponents hlast hfit
  rw [splitOn_eq whole, hlast, hsplit]
  apply List.rel_append
  · rw [List.forall₂_map_right_iff, List.forall₂_same]
    exact fun c _ => ⟨length_fitInner_le budget c, fitInner_of_le⟩
  · exact .cons ⟨length_nameLeft_append_le hroom, fun hle => by rw [nameLeft_of_le hle]⟩ .nil

theorem cuts_of_fitComponents (hnul : ∀ c ∈ whole.splitOn separator, 0 ∉ c) :
    (cutComponents separator budget extension whole).1 =
      cutsBetween budget 0 (whole.splitOn separator) (path.splitOn separator) := by
  obtain ⟨hroom, hsplit⟩ := splitOn_of_fitComponents hlast hfit
  have hend : fitLast budget extension (lastComponent separator whole) =
      .ok (nameLeft budget name extension ++ extension) := by
    rw [hlast, fitLast_of_hasRoom hroom]
  rw [hsplit]
  exact cuts_run_between hnul hend []

theorem accountFor_of_fitComponents (hnul : ∀ c ∈ whole.splitOn separator, 0 ∉ c) :
    AccountFor separator budget whole path (cutComponents separator budget extension whole).1 := by
  have hfitted := forall₂_fitted_of_fitComponents hlast hfit
  rw [cuts_of_fitComponents hlast hfit hnul]
  refine ⟨hfitted.length_eq.symm, fun start c h => ?_, rfl, map_before_cutsBetween hfitted 0,
    after_lt_before_of_mem_cutsBetween hfitted, ?_⟩
  · obtain ⟨n, hn, hstarts⟩ := startsAt_of_mem_placed h
    rwa [hn, Nat.zero_add]
  · have hsum := sum_lost_cutsBetween hfitted 0
    have hpath := length_add_one separator path
    have hwhole := length_add_one separator whole
    have hcount := hfitted.length_eq
    omega

end

/-! ## The records -/

/-- A path that fits is reported by its cuts alone. -/
theorem records_fit_of_lt (limits : Limits) {extension buffer path : Bytes}
    (h : (cutComponents limits.separator limits.maxComponent extension buffer).2 = .ok path)
    (hlt : path.length < limits.maxPath) :
    (fit limits extension buffer).records =
      (cutComponents limits.separator limits.maxComponent extension buffer).1.map Cut.record := by
  unfold fit
  generalize cutComponents limits.separator limits.maxComponent extension buffer = walked at h ⊢
  obtain ⟨cuts, result⟩ := walked
  obtain rfl : result = .ok path := h
  simp only [Nat.not_le.mpr hlt, if_false]

end Path

open SafePath.Path

section
variable {leading : Option Name} {file : Name} {extension : Option Name} {limits : Limits}

/-- Acceptable parts are reported by what comes of them in one buffer. -/
theorem records_pathOfParts
    (h : Acceptable limits.separator (partBytes leading) file.toBytes (partBytes extension)) :
    (pathOfParts leading file extension limits).records =
      (fit limits (partBytes extension)
        (assemble limits.separator (partBytes leading) file.toBytes (partBytes extension))).records := by
  have hne : ¬file.isEmpty = true := fun he => h.named (file.toBytes_eq_nil_iff.mpr he)
  unfold pathOfParts pathOfBytes
  rw [if_neg hne, (join_eq_ok_iff h.named _).mpr ⟨h, rfl⟩]

end

end SafePath
