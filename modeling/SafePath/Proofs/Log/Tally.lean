import SafePath.Log.Progress

/-!
# What a batch has counted and printed

Of all that a batch puts out, the counts and the lines of results are its tally.  Records are no part of
it, so a block changes the tally where it is counted and where it fails, and nowhere else
(`tally_enter`, `tally_leave`, `exists_within`).
-/

namespace SafePath.Log

/-- The text of an output that is a line of results. -/
def Output.line? : Output → Option Text
  | .record _ => none
  | .line t => some t

namespace Journal

/-- The lines of results in a journal, in order. -/
def lines (j : Journal) : List Text := j.output.filterMap Output.line?

@[simp] theorem lines_log (level : Level) (message : Text) (j : Journal) :
    (j.log level message).lines = j.lines := by
  simp [lines, log, put, Output.line?]

@[simp] theorem lines_put_line (t : Text) (j : Journal) : (j.put (.line t)).lines = j.lines ++ [t] := by
  simp [lines, put, Output.line?]

@[simp] theorem lines_append (records : List Record) (j : Journal) : (j.append records).lines = j.lines := by
  have hnone : (records.map Output.record).filterMap Output.line? = [] := by
    rw [List.filterMap_eq_nil_iff, List.forall_mem_map]
    exact fun _ _ => rfl
  rw [lines, append, List.filterMap_append, hnone, List.append_nil]
  rfl

/-- Nothing but records is added around an action. -/
theorem lines_timed {ε α : Type} (describe : ε → Text) (label : Text)
    (action : Journal → Except ε α × Journal) (j : Journal) :
    (j.timed describe label action).2.lines = (action (j.begin label)).2.lines := by
  unfold timed finish
  simp only
  split <;> exact lines_log _ _ _

end Journal

/-- How many names were processed, how many of them failed, and what was printed. -/
structure Tally where
  processed : Nat
  failed : Nat
  printed : List Text

namespace Progress

def tally (p : Progress) : Tally := ⟨p.processed, p.failed, p.journal.lines⟩

@[simp] theorem tally_log (level : Level) (message : Text) (p : Progress) :
    (p.log level message).tally = p.tally := by
  simp [tally, log]

theorem tally_foldl_log {α : Type} (level : Level) (message : α → Text) (items : List α) (p : Progress) :
    (items.foldl (fun p item => p.log level (message item)) p).tally = p.tally := by
  induction items generalizing p with
  | nil => rfl
  | cons item rest ih => rw [List.foldl_cons, ih, tally_log]

theorem tally_enter (block : Block) (label : Label) (p : Progress) :
    (p.enter block label).tally = (p.count block).tally := by
  unfold enter announce
  split
  · exact tally_log _ _ _
  · rfl
  · exact tally_log _ _ _

theorem tally_leave {ε : Type} (describe : ε → Text) (block : Block) (label : Label) (start : Binary64)
    (raised : Option ε) (p : Progress) :
    (p.leave describe block label start raised).tally = (p.settle block raised).tally := by
  unfold leave conclude
  simp only
  split <;> exact tally_log _ _ _

@[simp] theorem tally_summarize (p : Progress) : p.summarize.tally = p.tally := tally_log _ _ _

@[simp] theorem tally_reportMemory (reading : MemoryReading) (p : Progress) :
    (p.reportMemory reading).tally = p.tally := by
  cases reading with
  | failed reason => exact tally_log _ _ _
  | bytes q => exact tally_log _ _ _
  | notANumber kind => rfl

/-- An operation is not counted. -/
@[simp] theorem settle_operation {ε : Type} (raised : Option ε) (p : Progress) :
    p.settle .operation raised = p := by
  cases raised <;> rfl

/-- The error that a result stands for. -/
def raised? {ε α : Type} : Except ε α → Option ε
  | .ok _ => none
  | .error e => some e

/-- An action as a block of work: its result is handed on, and its failure is settled. -/
theorem exists_within {ε α : Type} (describe : ε → Text) (block : Block) (name : Text)
    (action : Progress → Except ε α × Progress) {p q : Progress} {result : Except ε α}
    (h : action (p.enter block (.ofText name)) = (result, q)) :
    ∃ q', p.within describe block name action = (result, q') ∧
      q'.tally = (q.settle block (raised? result)).tally := by
  refine ⟨q.leave describe block (.ofText name) p.journal.time (raised? result), ?_, tally_leave _ _ _ _ _ _⟩
  rw [within, h]
  cases result <;> rfl

end Progress

end SafePath.Log
