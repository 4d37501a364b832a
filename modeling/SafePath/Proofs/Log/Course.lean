import SafePath.Log.Program

/-!
# The course of a program of blocks

What happens when a program is carried out can be told without a batch that keeps count: which blocks are entered
and left at what time, and with which error (`Step.play`).  A block is left with the error that came out of the
steps inside, or else with its own; an error that is not caught ends the steps behind it.

A batch accounts for that course, step by step (`Step.run_follows`) and so for a whole program
(`Step.run_accounts`):

    processed = blocks for names that were entered,
      failed = those of them that were left with an error, succeeded = all others
    the records of operations = one for each operation entered, one for each left, in order

The course is properly nested (`nested_play`), and what comes out of a block is the error that it was left with.
All this is so as far as the clock can be read and names have a length (`BlockEvent.IsRecordable`).
-/

namespace SafePath.Log

variable {ε : Type}

/-! ## What happens -/

def secondsAt (us : Int) : Binary64 := (Binary64.ofInt us).div (Binary64.ofInt 1000000)

/-- What happens in the course of a program, and when. -/
inductive BlockEvent (ε : Type)
  | entered (block : Block) (label : Label) (time : Int)
  /-- A block that was entered at the time `start` is left, perhaps with an error. -/
  | left (block : Block) (label : Label) (start stop : Int) (raised : Option ε)
  | summarized (time : Int)
  /-- A step without steps inside is over. -/
  | passed (raised : Option ε)

/-- What came of a program: the error that comes out of it, the time, and all that happened. -/
structure Played (ε : Type) where
  raised : Option ε
  clock : Int
  events : List (BlockEvent ε)

mutual

/-- The course of a step from a time on. -/
def Step.play (form : ErrorForm ε) (us : Int) : Step ε → Played ε
  | .advance delay => ⟨none, us + delay, [.passed none]⟩
  | .block kind label inner delay raised _ =>
    let body := Step.playAll form us inner
    let (raised, stop) :=
      match body.raised with
      | some e => (some e, body.clock)
      | none => (raised, body.clock + delay)
    ⟨raised, stop, .entered kind label us :: (body.events ++ [.left kind label us stop raised])⟩
  | .summary _ => ⟨none, us, [.summarized us]⟩
  | .memory reading _ =>
    let raised := (Progress.memoryFault? reading).map form.ofReading
    ⟨raised, us, [.passed raised]⟩

/-- The course of steps one after the other, up to the first whose error is not caught. -/
def Step.playAll (form : ErrorForm ε) (us : Int) : List (Step ε) → Played ε
  | [] => ⟨none, us, []⟩
  | step :: rest =>
    let first := step.play form us
    match step.escaping first.raised with
    | some e => ⟨some e, first.clock, first.events⟩
    | none =>
      let others := Step.playAll form first.clock rest
      ⟨others.raised, others.clock, first.events ++ others.events⟩

end

/-- All that happens in a whole program, of which every error is caught. -/
def Step.playProgram (form : ErrorForm ε) (us : Int) : List (Step ε) → List (BlockEvent ε)
  | [] => []
  | step :: rest =>
    let first := step.play form us
    first.events ++ Step.playProgram form first.clock rest

namespace BlockEvent

/-- What a record of the event has to show can be had: the time, and the length of a name. -/
def IsRecordable : BlockEvent ε → Prop
  | .entered block label time => (secondsAt time).isFinite = true ∧ label.fault? block = none
  | .left _ _ _ stop _ => (secondsAt stop).isFinite = true
  | .summarized time => (secondsAt time).isFinite = true
  | .passed _ => True

instance : DecidablePred (IsRecordable : BlockEvent ε → Prop) := fun event => by
  cases event <;> unfold IsRecordable <;> infer_instance

def entersName : BlockEvent ε → Bool
  | .entered .name _ _ => true
  | _ => false

def failsName : BlockEvent ε → Bool
  | .left .name _ _ _ (some _) => true
  | _ => false

def completesName : BlockEvent ε → Bool
  | .left .name _ _ _ none => true
  | _ => false

/-- What comes out of a step that is over. -/
def outcome? : BlockEvent ε → Option (Option ε)
  | .entered _ _ _ => none
  | .left _ _ _ _ raised => some raised
  | .summarized _ => some none
  | .passed raised => some raised

/-- The record of an operation that is entered or left. -/
def operationRecord? (describe : ε → Text) (source : Text) : BlockEvent ε → Option Record
  | .entered .operation label _ =>
    some { level := .debug, source := source, message := "Starting operation: " ++ label.plain }
  | .left .operation label start stop none =>
    some
      { level := .debug
        source := source
        message := "Completed operation: " ++ label.plain ++ " in "
          ++ (((secondsAt stop).sub (secondsAt start)).fixed 3 ++ "s") }
  | .left .operation label start stop (some e) =>
    some
      { level := .error
        source := source
        message := "Failed operation: " ++ label.plain ++ " after "
          ++ (((secondsAt stop).sub (secondsAt start)).fixed 3 ++ "s") ++ ": " ++ describe e }
  | _ => none

end BlockEvent

/-- Every block that is entered is left, by the same name, and what happens in between is so nested too. -/
inductive Nested : List (BlockEvent ε) → Prop
  | nil : Nested []
  | summarized {time : Int} {rest : List (BlockEvent ε)} (tail : Nested rest) : Nested (.summarized time :: rest)
  | passed {raised : Option ε} {rest : List (BlockEvent ε)} (tail : Nested rest) : Nested (.passed raised :: rest)
  | block {kind : Block} {label : Label} {start stop : Int} {raised : Option ε} {inner rest : List (BlockEvent ε)}
    (body : Nested inner) (tail : Nested rest) :
    Nested (.entered kind label start :: (inner ++ .left kind label start stop raised :: rest))

namespace Nested

theorem append {a b : List (BlockEvent ε)} (ha : Nested a) (hb : Nested b) : Nested (a ++ b) := by
  induction ha with
  | nil => exact hb
  | summarized _ ih => exact .summarized ih
  | passed _ ih => exact .passed ih
  | block body _ _ ih =>
    rw [List.cons_append, List.append_assoc, List.cons_append]
    exact .block body ih

/-- A name that is entered either fails or is completed. -/
theorem countP_entersName {events : List (BlockEvent ε)} (h : Nested events) :
    events.countP BlockEvent.entersName =
      events.countP BlockEvent.failsName + events.countP BlockEvent.completesName := by
  induction h with
  | nil => rfl
  | summarized _ ih => simpa [BlockEvent.entersName, BlockEvent.failsName, BlockEvent.completesName] using ih
  | passed _ ih => simpa [BlockEvent.entersName, BlockEvent.failsName, BlockEvent.completesName] using ih
  | @block kind label start stop raised inner rest _ _ hbody htail =>
    simp only [List.countP_cons, List.countP_append, hbody, htail]
    cases kind <;> cases raised <;>
      simp only [BlockEvent.entersName, BlockEvent.failsName, BlockEvent.completesName, if_true,
        Bool.false_eq_true, if_false] <;>
      omega

end Nested

mutual

/-- **The course of a program is properly nested.** -/
theorem Step.nested_play (form : ErrorForm ε) (us : Int) : ∀ step : Step ε, Nested (step.play form us).events
  | .advance _ => .passed .nil
  | .block _ _ inner _ _ _ => .block (Step.nested_playAll form us inner) .nil
  | .summary _ => .summarized .nil
  | .memory _ _ => .passed .nil

theorem Step.nested_playAll (form : ErrorForm ε) (us : Int) :
    ∀ steps : List (Step ε), Nested (Step.playAll form us steps).events
  | [] => .nil
  | step :: rest => by
    have hfirst := Step.nested_play form us step
    have hothers := Step.nested_playAll form (step.play form us).clock rest
    unfold Step.playAll
    simp only
    split
    · exact hfirst
    · exact hfirst.append hothers

end

/-! ## What a batch makes of it -/

/-- The message is about the start or the end of an operation. -/
def isOfOperation (message : Text) : Bool :=
  message.startsWith "Starting operation: " || message.startsWith "Completed operation: " ||
    message.startsWith "Failed operation: "

namespace Journal

/-- The records of operations in a journal, in order. -/
def operationRecords (j : Journal) : List Record := j.records.filter (isOfOperation ·.message)

theorem operationRecords_log (level : Level) (message : Text) (j : Journal) :
    (j.log level message).operationRecords =
      j.operationRecords ++
        if isOfOperation message then [{ level := level, source := j.source, message := message }] else [] := by
  simp only [operationRecords, records, log, put, List.filterMap_append, List.filter_append]
  cases h : isOfOperation message with
  | true => simp [Output.record?, h]
  | false => simp [Output.record?, h]

end Journal

/-- The batch `q` has counted and recorded what happened since `p`. -/
structure Accounts (form : ErrorForm ε) (events : List (BlockEvent ε)) (p q : Progress) : Prop where
  processed : q.processed = p.processed + events.countP BlockEvent.entersName
  failed : q.failed = p.failed + events.countP BlockEvent.failsName
  records : q.journal.operationRecords =
    p.journal.operationRecords ++ events.filterMap (BlockEvent.operationRecord? form.describe p.journal.source)
  source : q.journal.source = p.journal.source

namespace Accounts

variable {form : ErrorForm ε}

theorem refl (form : ErrorForm ε) (p : Progress) : Accounts form [] p p :=
  ⟨rfl, rfl, (List.append_nil _).symm, rfl⟩

theorem trans {a b : List (BlockEvent ε)} {p q r : Progress} (ha : Accounts form a p q) (hb : Accounts form b q r) :
    Accounts form (a ++ b) p r where
  processed := by rw [hb.processed, ha.processed, List.countP_append, Nat.add_assoc]
  failed := by rw [hb.failed, ha.failed, List.countP_append, Nat.add_assoc]
  records := by rw [hb.records, ha.records, ha.source, List.filterMap_append, List.append_assoc]
  source := hb.source.trans ha.source

/-- A record that is not about an operation does not count. -/
theorem log {message : Text} (h : isOfOperation message = false) (level : Level) (p : Progress) :
    Accounts form [] p (p.log level message) where
  processed := rfl
  failed := rfl
  records := by
    show (p.journal.log level message).operationRecords = _
    rw [Journal.operationRecords_log, h]
    rfl
  source := rfl

/-- The record of an operation accounts for its event. -/
theorem logOperation {event : BlockEvent ε} {level : Level} {message : Text} {p : Progress}
    (hoperation : isOfOperation message = true)
    (hrecord : event.operationRecord? form.describe p.journal.source =
      some { level := level, source := p.journal.source, message := message })
    (henters : event.entersName = false) (hfails : event.failsName = false) :
    Accounts form [event] p (p.log level message) where
  processed := by simp [Progress.log, henters]
  failed := by simp [Progress.log, hfails]
  records := by
    show (p.journal.log level message).operationRecords = _
    rw [Journal.operationRecords_log, hoperation, List.filterMap_cons, hrecord]
    rfl
  source := rfl

theorem enter (kind : Block) {label : Label} (h : label.fault? kind = none) (us : Int) (p : Progress) :
    Accounts form [.entered kind label us] p (p.enter kind label) := by
  cases kind with
  | operation => exact logOperation rfl rfl rfl rfl
  | name =>
    have hcount : Accounts form [.entered .name label us] p (p.count .name) :=
      ⟨rfl, rfl, (List.append_nil _).symm, rfl⟩
    cases hlength : label.length with
    | error kind => simp [Label.fault?, hlength] at h
    | ok length =>
      simp only [Progress.enter, Progress.announce, hlength]
      exact hcount.trans (log rfl .debug _)

theorem leave (kind : Block) (label : Label) (start : Int) (raised : Option ε) (p : Progress) :
    Accounts form [.left kind label start p.journal.clock raised] p
      (p.leave form.describe kind label (secondsAt start) raised) := by
  cases kind with
  | operation =>
    cases raised with
    | none => exact logOperation rfl rfl rfl rfl
    | some e => exact logOperation rfl rfl rfl rfl
  | name =>
    have hsettle : Accounts form [.left .name label start p.journal.clock raised] p (p.settle .name raised) := by
      cases raised <;> exact ⟨rfl, rfl, (List.append_nil _).symm, rfl⟩
    cases raised with
    | none => exact hsettle.trans (log rfl .debug _)
    | some e => exact hsettle.trans (log rfl .debug _)

theorem advance (us : Int) (p : Progress) : Accounts form [] p (p.advance us) :=
  ⟨rfl, rfl, (List.append_nil _).symm, rfl⟩

theorem summarize (us : Int) (p : Progress) : Accounts form [.summarized us] p p.summarize :=
  have hlog : Accounts form [] p p.summarize := log rfl .info p
  ⟨hlog.processed, hlog.failed, hlog.records, rfl⟩

theorem reportMemory (raised : Option ε) (reading : MemoryReading) (p : Progress) :
    Accounts form [.passed raised] p (p.reportMemory reading) := by
  have hlog : Accounts form [] p (p.reportMemory reading) := by
    cases reading with
    | failed reason => exact log rfl .debug p
    | bytes q => exact log rfl .debug p
    | notANumber kind => exact refl form p
  exact ⟨hlog.processed, hlog.failed, hlog.records, hlog.source⟩

end Accounts

mutual

/-- What came out of a step, behind what came out of the steps inside. -/
def Report.outcomes : Report ε → List (Option ε)
  | .mk _ _ _ raised none => [raised]
  | .mk _ _ _ raised (some inner) => Report.outcomesAll inner ++ [raised]

/-- What came out of steps, one after the other. -/
def Report.outcomesAll : List (Report ε) → List (Option ε)
  | [] => []
  | report :: rest => report.outcomes ++ Report.outcomesAll rest

end

/-- A run from `p` to `q` went as `played`: the same error came out of it and out of every step on the way, the
clock stands alike, and the batch accounts for all that happened. -/
structure Follows (form : ErrorForm ε) (p : Progress) (played : Played ε) (raised : Option ε) (q : Progress)
    (outcomes : List (Option ε)) : Prop where
  raised : raised = played.raised
  clock : q.journal.clock = played.clock
  accounts : Accounts form played.events p q
  outcomes : outcomes = played.events.filterMap BlockEvent.outcome?

section
variable (form : ErrorForm ε) (p : Progress)

theorem Step.run_block {kind : Block} {label : Label} (inner : List (Step ε)) (delay : Int) (raised : Option ε)
    (caught : Bool) (h : (.entered kind label p.journal.clock : BlockEvent ε).IsRecordable) :
    (Step.block kind label inner delay raised caught).run form p =
      let (escaped, q, reports) := Step.runAll form (p.enter kind label) inner
      let (error, q) :=
        match escaped with
        | some e => (some e, q)
        | none => (raised, q.advance delay)
      let (error, q) := q.leaveOrFault form kind label p.journal.time error
      (error, q, q.report error (some reports)) := by
  have hcount : (p.count kind).journal = p.journal := by cases kind <;> rfl
  have hclock : (p.count kind).clockFault? = none := by
    rw [Progress.clockFault?, hcount]
    exact if_pos h.1
  rw [Step.run, hclock, h.2, hcount]
  rfl

theorem clock_enter (kind : Block) (label : Label) : (p.enter kind label).journal.clock = p.journal.clock := by
  cases kind with
  | operation => rfl
  | name =>
    unfold Progress.enter Progress.announce
    split <;> rfl

theorem clock_leave (describe : ε → Text) (kind : Block) (label : Label) (start : Binary64) (raised : Option ε) :
    (p.leave describe kind label start raised).journal.clock = p.journal.clock := by
  cases kind <;> cases raised <;> rfl

theorem leaveOrFault_of_readable (kind : Block) (label : Label) (start : Binary64) (raised : Option ε)
    (h : (secondsAt p.journal.clock).isFinite = true) :
    p.leaveOrFault form kind label start raised = (raised, p.leave form.describe kind label start raised) := by
  have hsettle : (p.settle kind raised).journal = p.journal := by cases kind <;> cases raised <;> rfl
  rw [Progress.leaveOrFault, hsettle]
  exact if_pos h

end

/-- From every batch on, the step goes as it is played, if all that happens can be recorded. -/
def Step.GoesAsPlayed (form : ErrorForm ε) (step : Step ε) : Prop :=
  ∀ p : Progress, (∀ event ∈ (step.play form p.journal.clock).events, event.IsRecordable) →
    Follows form p (step.play form p.journal.clock) (step.run form p).1 (step.run form p).2.1
      (step.run form p).2.2.outcomes

/-- The same of steps one after the other. -/
def Step.AllGoAsPlayed (form : ErrorForm ε) (steps : List (Step ε)) : Prop :=
  ∀ p : Progress, (∀ event ∈ (Step.playAll form p.journal.clock steps).events, event.IsRecordable) →
    Follows form p (Step.playAll form p.journal.clock steps) (Step.runAll form p steps).1
      (Step.runAll form p steps).2.1 (Report.outcomesAll (Step.runAll form p steps).2.2)

section
variable {form : ErrorForm ε}

/-- A block of which the steps inside went as played is left with the error it came to by then. -/
theorem Follows.block {p q r : Progress} {kind : Block} {label : Label} {body : Played ε} {escaped : Option ε}
    {outcomes : List (Option ε)} (hfault : label.fault? kind = none)
    (hbody : Follows form (p.enter kind label) body escaped q outcomes) (hr : Accounts form [] q r)
    (error : Option ε) :
    Follows form p
      ⟨error, r.journal.clock, .entered kind label p.journal.clock ::
        (body.events ++ [.left kind label p.journal.clock r.journal.clock error])⟩
      error (r.leave form.describe kind label p.journal.time error) (outcomes ++ [error]) where
  raised := rfl
  clock := clock_leave r _ _ _ _ _
  accounts :=
    (Accounts.enter kind hfault _ p).trans
      (hbody.accounts.trans (hr.trans (Accounts.leave kind label p.journal.clock error r)))
  outcomes := by
    rw [hbody.outcomes, List.filterMap_cons, List.filterMap_append]
    rfl

theorem goesAsPlayed_block {kind : Block} {label : Label} {inner : List (Step ε)} (delay : Int)
    (raised : Option ε) (caught : Bool) (hinner : Step.AllGoAsPlayed form inner) :
    (Step.block kind label inner delay raised caught).GoesAsPlayed form := by
  intro p h
  have hbody := hinner (p.enter kind label)
  rw [clock_enter] at hbody
  rw [Step.play] at h ⊢
  simp only [List.forall_mem_cons, List.forall_mem_append] at h
  obtain ⟨hentered, hevents, hleft, -⟩ := h
  rw [Step.run_block form p inner delay raised caught hentered]
  specialize hbody hevents
  generalize Step.playAll form p.journal.clock inner = body at hbody hleft ⊢
  generalize Step.runAll form (p.enter kind label) inner = ran at hbody ⊢
  obtain ⟨escaped, q, reports⟩ := ran
  rw [← hbody.raised, ← hbody.clock] at hleft ⊢
  -- the error of a step inside ends the block at once; else its own error comes after the delay
  cases escaped with
  | some e =>
    simp only at hleft ⊢
    rw [leaveOrFault_of_readable form q kind label _ _ hleft]
    exact hbody.block hentered.2 (.refl form q) (some e)
  | none =>
    simp only at hleft ⊢
    rw [leaveOrFault_of_readable form (q.advance delay) kind label _ _ hleft]
    exact hbody.block hentered.2 (.advance delay q) raised

theorem allGoAsPlayed_nil : Step.AllGoAsPlayed form [] := fun p _ => ⟨rfl, rfl, .refl form p, rfl⟩

theorem allGoAsPlayed_cons {step : Step ε} {rest : List (Step ε)} (hstep : step.GoesAsPlayed form)
    (hrest : Step.AllGoAsPlayed form rest) : Step.AllGoAsPlayed form (step :: rest) := by
  intro p h
  have hfirst := hstep p
  rw [Step.playAll] at h ⊢
  rw [Step.runAll]
  generalize step.play form p.journal.clock = first at hfirst h ⊢
  generalize step.run form p = ran at hfirst ⊢
  obtain ⟨raised, q, report⟩ := ran
  simp only at hfirst h ⊢
  cases hescaping : step.escaping first.raised with
  | some e =>
    rw [hescaping] at h
    have hfirst := hfirst h
    rw [hfirst.raised, hescaping]
    exact ⟨rfl, hfirst.clock, hfirst.accounts, (List.append_nil _).trans hfirst.outcomes⟩
  | none =>
    rw [hescaping] at h
    simp only [List.forall_mem_append] at h
    have hfirst := hfirst h.1
    have hothers := hrest q
    rw [hfirst.clock] at hothers
    have hothers := hothers h.2
    rw [hfirst.raised, hescaping]
    refine ⟨hothers.raised, hothers.clock, hfirst.accounts.trans hothers.accounts, ?_⟩
    show report.outcomes ++ Report.outcomesAll _ = _
    rw [hfirst.outcomes, hothers.outcomes, List.filterMap_append]

theorem goesAsPlayed_advance (delay : Int) : (Step.advance delay).GoesAsPlayed form := fun p _ =>
  have h : Accounts form [] p (p.advance delay) := .advance delay p
  ⟨rfl, rfl, ⟨h.processed, h.failed, h.records, h.source⟩, rfl⟩

theorem goesAsPlayed_summary (caught : Bool) : (Step.summary caught).GoesAsPlayed form := by
  intro p h
  have hclock : p.clockFault? = none := by
    rw [Progress.clockFault?]
    exact if_pos (List.forall_mem_singleton.mp h)
  rw [Step.run, hclock]
  exact ⟨rfl, rfl, .summarize _ p, rfl⟩

theorem goesAsPlayed_memory (reading : MemoryReading) (caught : Bool) :
    (Step.memory reading caught).GoesAsPlayed form := by
  intro p _
  have hclock : (p.reportMemory reading).journal.clock = p.journal.clock := by cases reading <;> rfl
  rw [Step.run, Step.play]
  cases Progress.memoryFault? reading with
  | some fault => exact ⟨rfl, rfl, ⟨rfl, rfl, (List.append_nil _).symm, rfl⟩, rfl⟩
  | none => exact ⟨rfl, hclock, .reportMemory none reading p, rfl⟩

end

mutual

/-- **A run follows the course of its program**, whatever the program is. -/
theorem Step.run_follows (form : ErrorForm ε) : ∀ step : Step ε, step.GoesAsPlayed form
  | .advance delay => goesAsPlayed_advance delay
  | .block _ _ inner delay raised caught => goesAsPlayed_block delay raised caught (Step.runAll_follows form inner)
  | .summary caught => goesAsPlayed_summary caught
  | .memory reading caught => goesAsPlayed_memory reading caught

theorem Step.runAll_follows (form : ErrorForm ε) : ∀ steps : List (Step ε), Step.AllGoAsPlayed form steps
  | [] => allGoAsPlayed_nil
  | step :: rest => allGoAsPlayed_cons (Step.run_follows form step) (Step.runAll_follows form rest)

end

/-! ## Whole programs -/

section
variable (form : ErrorForm ε)

theorem Step.nested_playProgram (us : Int) (steps : List (Step ε)) : Nested (Step.playProgram form us steps) := by
  induction steps generalizing us with
  | nil => exact .nil
  | cons step rest ih => exact (Step.nested_play form us step).append (ih _)

theorem Step.runProgram_follows (steps : List (Step ε)) (p : Progress)
    (h : ∀ event ∈ Step.playProgram form p.journal.clock steps, event.IsRecordable) :
    Accounts form (Step.playProgram form p.journal.clock steps) p (Step.runProgram form p steps).1 ∧
      Report.outcomesAll (Step.runProgram form p steps).2 =
        (Step.playProgram form p.journal.clock steps).filterMap BlockEvent.outcome? := by
  induction steps generalizing p with
  | nil => exact ⟨.refl form p, rfl⟩
  | cons step rest ih =>
    rw [Step.playProgram, List.forall_mem_append] at h
    have hfirst := Step.run_follows form step p h.1
    have hothers := ih (step.run form p).2.1
    rw [hfirst.clock] at hothers
    obtain ⟨haccounts, houtcomes⟩ := hothers h.2
    refine ⟨hfirst.accounts.trans haccounts, ?_⟩
    show (step.run form p).2.2.outcomes ++ Report.outcomesAll _ = _
    rw [hfirst.outcomes, houtcomes, Step.playProgram, List.filterMap_append]

end

/-- A batch that began with the journal `j` has come to `p`, and accounts for all that happened. -/
structure Accounted (form : ErrorForm ε) (j : Journal) (events : List (BlockEvent ε)) (p : Progress)
    (outcomes : List (Option ε)) : Prop where
  processed : p.processed = events.countP BlockEvent.entersName
  failed : p.failed = events.countP BlockEvent.failsName
  succeeded : p.succeeded = events.countP BlockEvent.completesName
  /-- What comes out of a block is the error that it was left with. -/
  outcomes : outcomes = events.filterMap BlockEvent.outcome?
  nested : Nested events
  /-- One record for each operation entered, one for each left, and no others. -/
  records : p.journal.operationRecords =
    j.operationRecords ++ events.filterMap (BlockEvent.operationRecord? form.describe j.source)

theorem Accounts.accounted {form : ErrorForm ε} {j : Journal} {events : List (BlockEvent ε)} {p : Progress}
    {outcomes : List (Option ε)} (h : Accounts form events (Progress.start j) p) (hnested : Nested events)
    (houtcomes : outcomes = events.filterMap BlockEvent.outcome?) : Accounted form j events p outcomes := by
  have hprocessed : p.processed = events.countP BlockEvent.entersName := h.processed.trans (Nat.zero_add _)
  have hfailed : p.failed = events.countP BlockEvent.failsName := h.failed.trans (Nat.zero_add _)
  refine ⟨hprocessed, hfailed, ?_, houtcomes, hnested, h.records⟩
  rw [Progress.succeeded, hprocessed, hfailed, hnested.countP_entersName, Nat.add_sub_cancel_left]

/-- **A batch accounts for every block**, however deep it is nested, wherever errors arise and wherever they are
caught: for steps of which the first error that is not caught comes out, and for a whole program, of which every
error is caught.  That holds if the clock can be read whenever something is to be recorded, and names have a
length; that every error has a wording is assumed throughout, by the form of errors. -/
theorem Step.run_accounts (form : ErrorForm ε) (j : Journal) (steps : List (Step ε)) :
    ((∀ event ∈ (Step.playAll form j.clock steps).events, event.IsRecordable) →
      ∃ p reports, Step.runAll form (Progress.start j) steps =
          ((Step.playAll form j.clock steps).raised, p, reports) ∧
        Accounted form j (Step.playAll form j.clock steps).events p (Report.outcomesAll reports)) ∧
    (j.isReadable = true → (∀ event ∈ Step.playProgram form j.clock steps, event.IsRecordable) →
      ∃ p reports, Step.runFrom form j steps = .ok (p, reports) ∧
        Accounted form j (Step.playProgram form j.clock steps) p (Report.outcomesAll reports)) := by
  constructor
  · intro h
    have hfollows := Step.runAll_follows form steps (Progress.start j) h
    refine ⟨_, _, Prod.ext hfollows.raised rfl, ?_⟩
    exact hfollows.accounts.accounted (Step.nested_playAll form j.clock steps) hfollows.outcomes
  · intro hj h
    obtain ⟨haccounts, houtcomes⟩ := Step.runProgram_follows form steps (Progress.start j) h
    refine ⟨_, _, if_pos hj, ?_⟩
    exact haccounts.accounted (Step.nested_playProgram form j.clock steps) houtcomes

/-- An operation inside another one fails with the error of a name, which is caught; the outer one fails with an
error that is not. -/
theorem Step.run_accounts_nested :
    let form : ErrorForm String := { describe := Text.ofString, ofReading := fun _ => "unreadable" }
    let journal : Journal := { source := "batch", clock := 0, output := [] }
    let name (label : String) (raised : Option String) : Step String :=
      .block .name (.ofText label) [] 1000 raised false
    let steps : List (Step String) :=
      [.block .operation (.ofText "outer")
        [name "a" none,
          .block .operation (.ofText "inner") [name "b" (some "boom"), name "c" none] 0 none true,
          name "d" (some "bang"), name "e" none] 0 none false]
    (∀ event ∈ (Step.playAll form journal.clock steps).events, event.IsRecordable) ∧
      journal.isReadable = true ∧ (∀ event ∈ Step.playProgram form journal.clock steps, event.IsRecordable) ∧
      ∃ (p q : Progress) (reports others : List (Report String)),
        Step.runAll form (Progress.start journal) steps = (some "bang", p, reports) ∧
        Step.runFrom form journal steps = .ok (q, others) ∧
        p.processed = 3 ∧ p.failed = 2 ∧ q.succeeded = 1 ∧
        Report.outcomesAll others = [none, some "boom", some "boom", some "bang", some "bang"] ∧
        q.journal.operationRecords.map (fun r => (r.level, r.message)) =
          [(Level.debug, Text.ofString "Starting operation: outer"), (.debug, "Starting operation: inner"),
            (.error, "Failed operation: inner after 0.001s: boom"),
            (.error, "Failed operation: outer after 0.003s: bang")] := by
  intro form journal name steps
  have hall : ∀ event ∈ (Step.playAll form journal.clock steps).events, event.IsRecordable := by decide +kernel
  have hprogram : ∀ event ∈ Step.playProgram form journal.clock steps, event.IsRecordable := by decide +kernel
  have hreadable : journal.isReadable = true := by decide +kernel
  obtain ⟨hsteps, hwhole⟩ := Step.run_accounts form journal steps
  obtain ⟨p, reports, hrun, hp⟩ := hsteps hall
  obtain ⟨q, others, hfrom, hq⟩ := hwhole hreadable hprogram
  refine ⟨hall, hreadable, hprogram, p, q, reports, others, hrun, hfrom, hp.processed, hp.failed, hq.succeeded,
    hq.outcomes, ?_⟩
  rw [hq.records]
  decide +kernel

end SafePath.Log
