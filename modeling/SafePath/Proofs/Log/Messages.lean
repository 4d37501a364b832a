import SafePath.Log.Progress
import SafePath.Proofs.Text.Shown

/-!
# The messages of a batch

Of what a step of a batch puts out, the messages can be told apart from what was there before (`Adds`), so
a statement about all messages of a run is a statement about those that each step adds.  A block for a name
shows the name quoted, so all its messages are safe to show, whatever the name is; a block for an operation
shows what it is called, and the error that it failed with.
-/

namespace SafePath.Log

namespace Journal

/-- `k` is `j` with more output, of which every message is good. -/
def Adds (good : Text → Prop) (j k : Journal) : Prop :=
  ∃ added, k.output = j.output ++ added ∧ ∀ r, .record r ∈ added → good r.message

section
variable {good : Text → Prop} {j k l : Journal}

theorem Adds.refl (good : Text → Prop) (j : Journal) : Adds good j j :=
  ⟨[], (List.append_nil _).symm, fun _ h => absurd h List.not_mem_nil⟩

theorem Adds.trans (hjk : Adds good j k) (hkl : Adds good k l) : Adds good j l := by
  obtain ⟨a, ha, hgooda⟩ := hjk
  obtain ⟨b, hb, hgoodb⟩ := hkl
  refine ⟨a ++ b, by rw [hb, ha, List.append_assoc], fun r h => ?_⟩
  rcases List.mem_append.mp h with h | h
  · exact hgooda r h
  · exact hgoodb r h

theorem Adds.mono {better : Text → Prop} (hle : ∀ t, better t → good t) (h : Adds better j k) :
    Adds good j k := by
  obtain ⟨added, hadded, hbetter⟩ := h
  exact ⟨added, hadded, fun r hr => hle _ (hbetter r hr)⟩

theorem adds_log {message : Text} (h : good message) (level : Level) (j : Journal) :
    Adds good j (j.log level message) := by
  refine ⟨_, rfl, fun r hr => ?_⟩
  cases List.mem_singleton.mp hr
  exact h

theorem adds_put_line (good : Text → Prop) (t : Text) (j : Journal) : Adds good j (j.put (.line t)) := by
  refine ⟨_, rfl, fun r hr => ?_⟩
  cases List.mem_singleton.mp hr

theorem adds_append {records : List Record} (h : ∀ r ∈ records, good r.message) (j : Journal) :
    Adds good j (j.append records) := by
  refine ⟨_, rfl, fun r hr => ?_⟩
  obtain ⟨r', hr', heq⟩ := List.mem_map.mp hr
  cases heq
  exact h r hr'

end

theorem isShown_elapsed (start : Binary64) (j : Journal) : (j.elapsed start).IsShown :=
  Text.isShown_append_iff.mpr ⟨Binary64.isShown_fixed _ _, by decide⟩

end Journal

namespace Progress

open Text

/-- The messages that a batch adds. -/
def Adds (good : Text → Prop) (p q : Progress) : Prop := p.journal.Adds good q.journal

section
variable {good : Text → Prop} {p q r : Progress}

theorem Adds.trans (hpq : Adds good p q) (hqr : Adds good q r) : Adds good p r :=
  Journal.Adds.trans hpq hqr

theorem adds_log {message : Text} (h : good message) (level : Level) (p : Progress) :
    Adds good p (p.log level message) :=
  Journal.adds_log h level p.journal

theorem adds_foldl_log {α : Type} {message : α → Text} {items : List α}
    (h : ∀ item ∈ items, good (message item)) (level : Level) (p : Progress) :
    Adds good p (items.foldl (fun p item => p.log level (message item)) p) := by
  induction items generalizing p with
  | nil => exact Journal.Adds.refl good p.journal
  | cons item rest ih =>
    rw [List.forall_mem_cons] at h
    exact (adds_log h.1 level p).trans (ih h.2 _)

end

theorem isShown_number (p : Progress) : p.number.IsShown :=
  isShown_append_iff.mpr ⟨by decide, Numeral.isShown_decimal _⟩

/-- What a block is called is safe to show, if it is shown as it is. -/
def Called (block : Block) (name : Text) : Prop := block = .operation → name.IsShown

theorem adds_enter {block : Block} {name : Text} (h : Called block name) (p : Progress) :
    Adds IsShown p (p.enter block (.ofText name)) := by
  cases block with
  | name =>
    refine adds_log ?_ .debug (p.count .name)
    simp +decide only [isShown_append_iff, isShown_number, Label.ofText, isShown_quoted,
      Numeral.isShown_decimal, and_self]
  | operation =>
    exact adds_log (isShown_append_iff.mpr ⟨by decide, h rfl⟩) .debug p

theorem adds_leave {ε : Type} {describe : ε → Text} {block : Block} {name : Text} {raised : Option ε}
    (h : Called block name) (herror : ∀ e, raised = some e → Called block (describe e)) (start : Binary64)
    (p : Progress) :
    Adds IsShown p (p.leave describe block (.ofText name) start raised) := by
  cases block with
  | name =>
    cases raised with
    | none =>
      refine adds_log ?_ .debug p
      simp +decide only [isShown_append_iff, isShown_number, Journal.isShown_elapsed, and_self]
    | some e =>
      refine adds_log ?_ .debug { p with failed := p.failed + 1 }
      simp +decide only [isShown_append_iff, isShown_number, Journal.isShown_elapsed, and_self]
  | operation =>
    cases raised with
    | none =>
      refine adds_log ?_ .debug p
      simp +decide only [isShown_append_iff, Label.ofText, h rfl, Journal.isShown_elapsed, and_self]
    | some e =>
      refine adds_log ?_ .error p
      simp +decide only [isShown_append_iff, Label.ofText, h rfl, herror e rfl rfl, Journal.isShown_elapsed,
        and_self]

/-- A block adds what is done inside of it, and two messages of its own. -/
theorem adds_within {ε α : Type} {describe : ε → Text} {block : Block} {name : Text}
    {action : Progress → Except ε α × Progress} {result : Except ε α} {q : Progress} (hname : Called block name)
    (haction : action (p.enter block (.ofText name)) = (result, q))
    (hinner : Adds IsShown (p.enter block (.ofText name)) q)
    (herror : ∀ e, result = .error e → Called block (describe e)) :
    Adds IsShown p (p.within describe block name action).2 := by
  have hbefore := (adds_enter hname p).trans hinner
  rw [within, haction]
  cases result with
  | ok a => exact hbefore.trans (adds_leave hname nofun _ q)
  | error e => exact hbefore.trans (adds_leave hname (fun e' he => herror e' (congrArg _ (Option.some.inj he))) _ q)

theorem adds_summarize (p : Progress) : Adds IsShown p p.summarize := by
  refine adds_log ?_ .info p
  simp +decide only [isShown_append_iff, Numeral.isShown_decimal, Binary64.isShown_fixed, and_self]

/-- The message of a reading of the memory that failed; its reason comes from elsewhere. -/
def IsMemoryFailure (reading : MemoryReading) (message : Text) : Prop :=
  ∃ reason, reading = .failed reason ∧ message = "Could not get memory usage: " ++ reason

theorem adds_reportMemory (reading : MemoryReading) (p : Progress) :
    Adds (fun message => message.IsShown ∨ IsMemoryFailure reading message) p (p.reportMemory reading) := by
  cases reading with
  | failed reason => exact adds_log (Or.inr ⟨reason, rfl, rfl⟩) .debug p
  | bytes q =>
    refine adds_log (Or.inl ?_) .debug p
    simp +decide only [isShown_append_iff, Binary64.isShown_fixed, and_self]
  | notANumber kind => exact Journal.Adds.refl _ p.journal

end Progress

end SafePath.Log
