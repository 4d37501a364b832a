import SafePath.Utf8.Boundary

/-!
# Cutting the components of a path in place

The assembled path is walked from the left, component by component.  One that is longer than the
budget is cut on a code point boundary, and the rest of the path moves up behind it.  The last
component keeps the extension at its end: its name is cut instead, so far that name and extension
fit together.  If the extension alone fills what may be kept, there is no such name.

The budget is any count of bytes, zero too: then nothing is left of a component.

The walk ends because the part of the buffer from `start` on gets shorter with every step.
-/

namespace SafePath.Path

/-- A component that starts at `offset` was cut from `before` to `after` bytes. -/
structure Cut where
  offset : Nat
  before : Nat
  after : Nat
deriving DecidableEq

/-- The path so far: what is before `start` is done, what is from `start` on is untouched. -/
structure Walk where
  buffer : Bytes
  start : Nat
deriving DecidableEq

/-- The last component's extension does not leave room for a name. -/
structure NoRoom where
  extensionLength : Nat
  boundary : Nat
deriving DecidableEq

/-- What one step of the walk comes to. -/
inductive Step
  | more (next : Walk) (cut : Option Cut)
  | done (buffer : Bytes) (cut : Option Cut)
  | stuck (reason : NoRoom)

/-- Where the separator behind the component at `start` stands, counted from `start`. -/
def Walk.separatorAt (separator : UInt8) (w : Walk) : Option Nat :=
  (w.buffer.drop w.start).findIdx? (· == separator)

/-- The bytes of `element` that may be kept of its first `size`. -/
def keptOf (element : Bytes) (size budget : Nat) : Nat := (Utf8.cutWithin element size budget).toNat

/-- A step over a component with a separator `size` bytes behind its start. -/
def Walk.stepInner (budget size : Nat) (w : Walk) : Step :=
  let stop := w.start + size
  if budget < size then
    let element := (w.buffer.drop w.start).take size
    let kept := keptOf element size budget
    .more ⟨w.buffer.take (w.start + kept) ++ w.buffer.drop stop, w.start + kept + 1⟩
      (some ⟨w.start, size, kept⟩)
  else .more ⟨w.buffer, stop + 1⟩ none

/-- The step over the last component. -/
def Walk.stepLast (budget : Nat) (extension : Bytes) (w : Walk) : Step :=
  let size := w.buffer.length - w.start
  if budget < size then
    let element := w.buffer.drop w.start
    let kept := keptOf element size budget
    if extension = [] then
      .done (w.buffer.take (w.start + kept)) (some ⟨w.start, size, kept⟩)
    else if kept ≤ extension.length then .stuck ⟨extension.length, kept⟩
    else
      let base := keptOf element (size - extension.length) (kept - extension.length)
      .done (w.buffer.take (w.start + base) ++ extension)
        (some ⟨w.start, size, base + extension.length⟩)
  else .done w.buffer none

/-- One step of the walk. -/
def Walk.step (separator : UInt8) (budget : Nat) (extension : Bytes) (w : Walk) : Step :=
  match w.separatorAt separator with
  | some size => w.stepInner budget size
  | none => w.stepLast budget extension

/-- An inner step leaves less of the buffer to be walked. -/
theorem Walk.rest_length_lt {separator : UInt8} {budget : Nat} {extension : Bytes} {w next : Walk}
    {cut : Option Cut} (h : w.step separator budget extension = .more next cut) :
    next.buffer.length - next.start < w.buffer.length - w.start := by
  unfold Walk.step at h
  split at h
  · next size hs =>
    have hlt : size < (w.buffer.drop w.start).length := by
      unfold Walk.separatorAt at hs
      rw [List.findIdx?_eq_some_iff_findIdx_eq] at hs
      exact hs.1
    rw [List.length_drop] at hlt
    unfold Walk.stepInner at h
    simp only at h
    split at h
    · simp only [Step.more.injEq] at h
      obtain ⟨rfl, -⟩ := h
      simp only [List.length_append, List.length_take, List.length_drop]
      omega
    · simp only [Step.more.injEq] at h
      obtain ⟨rfl, -⟩ := h
      simp only
      omega
  · unfold Walk.stepLast at h
    simp only at h
    repeat' split at h
    all_goals simp at h

/-- The cuts of a walk in order, and the path at its end. -/
def Walk.run (separator : UInt8) (budget : Nat) (extension : Bytes) (w : Walk) :
    List Cut × Except NoRoom Bytes :=
  match _h : w.step separator budget extension with
  | .more next cut =>
    let (cuts, result) := next.run separator budget extension
    (cut.toList ++ cuts, result)
  | .done buffer cut => (cut.toList, .ok buffer)
  | .stuck reason => ([], .error reason)
termination_by w.buffer.length - w.start
decreasing_by exact Walk.rest_length_lt _h

/-- The whole path walked from its first byte. -/
def cutComponents (separator : UInt8) (budget : Nat) (extension buffer : Bytes) :
    List Cut × Except NoRoom Bytes :=
  Walk.run separator budget extension ⟨buffer, 0⟩

end SafePath.Path
