import SafePath.Log.Progress

/-!
# Programs of blocks

A batch written down as a tree: blocks inside blocks, each of which may raise an error at its end,
with readings and reports in between.  An error leaves the blocks around it one by one, until a step
is reached that is marked as caught; the steps behind it go on.  `Step.run` gives, for every block and
step that was reached, what could be seen when it was left.

A program sets its own clock, which may become unreadable.  Then no block is entered, although a name is
counted, and no summary is made; and the fault takes the place of whatever a block inside of it came to,
without a record of its end.  Neither is a block entered for a name that has no length.
-/

namespace SafePath.Log

/-- A step of a batch, with errors of type `ε`. -/
inductive Step (ε : Type)
  | advance (us : Int)
  | block (kind : Block) (label : Label) (inner : List (Step ε)) (delay : Int) (raised : Option ε)
    (caught : Bool)
  | summary (caught : Bool)
  | memory (reading : MemoryReading) (caught : Bool)

/-- What can be seen when a step has been left: the counts, how much was put out so far, the error
that came out of it, and the same for the steps inside, if the step was entered. -/
inductive Report (ε : Type)
  | mk (processed failed emitted : Nat) (raised : Option ε) (inner : Option (List (Report ε)))

/-- The report of a step that ends at `p`. -/
def Progress.report {ε : Type} (raised : Option ε) (inner : Option (List (Report ε))) (p : Progress) :
    Report ε :=
  .mk p.processed p.failed p.journal.output.length raised inner

/-- The error of a step is not handed on. -/
def Step.isCaught {ε : Type} : Step ε → Bool
  | .advance _ => false
  | .block _ _ _ _ _ caught => caught
  | .summary caught => caught
  | .memory _ caught => caught

/-- The error that goes on to the steps behind. -/
def Step.escaping {ε : Type} (step : Step ε) (raised : Option ε) : Option ε :=
  if step.isCaught then none else raised

def Progress.clockFault? (p : Progress) : Option ReadingFault :=
  if p.journal.isReadable then none else some .clock

/-- A step that is not taken for a fault. -/
def Progress.refuse {ε : Type} (form : ErrorForm ε) (fault : ReadingFault) (p : Progress) :
    Option ε × Progress × Report ε :=
  let e := form.ofReading fault
  (some e, p, p.report (some e) none)

/-- A step without steps inside, which is taken if nothing is at fault. -/
def Progress.attempt {ε : Type} (form : ErrorForm ε) (fault? : Option ReadingFault)
    (step : Progress → Progress) (p : Progress) : Option ε × Progress × Report ε :=
  match fault? with
  | some fault => p.refuse form fault
  | none =>
    let q := step p
    (none, q, q.report none none)

/-- A block that was entered at the time `start` is left by a clock that may be unreadable; the error
that comes out of it, and the batch behind it. -/
def Progress.leaveOrFault {ε : Type} (form : ErrorForm ε) (block : Block) (label : Label) (start : Binary64)
    (raised : Option ε) (p : Progress) : Option ε × Progress :=
  let q := p.settle block raised
  if q.journal.isReadable then (raised, q.conclude form.describe block label start raised)
  else (some (form.ofReading .clock), q)

mutual

/-- The error that comes out of a step, the batch behind it, and its report. -/
def Step.run {ε : Type} (form : ErrorForm ε) (p : Progress) : Step ε → Option ε × Progress × Report ε
  | .advance us =>
    let q := p.advance us
    (none, q, q.report none none)
  | .block kind label inner delay raised _ =>
    let p := p.count kind
    match p.clockFault?.or (label.fault? kind) with
    | some fault => p.refuse form fault
    | none =>
      let (escaped, q, reports) := Step.runAll form (p.announce kind label) inner
      let (error, q) :=
        match escaped with
        | some e => (some e, q)
        | none => (raised, q.advance delay)
      let (error, q) := q.leaveOrFault form kind label p.journal.time error
      (error, q, q.report error (some reports))
  | .summary _ => p.attempt form p.clockFault? Progress.summarize
  | .memory reading _ => p.attempt form (Progress.memoryFault? reading) (Progress.reportMemory reading)

/-- The steps one after the other, up to the first whose error is not caught. -/
def Step.runAll {ε : Type} (form : ErrorForm ε) (p : Progress) :
    List (Step ε) → Option ε × Progress × List (Report ε)
  | [] => (none, p, [])
  | step :: rest =>
    let (raised, q, report) := step.run form p
    match step.escaping raised with
    | some e => (some e, q, [report])
    | none =>
      let (escaped, r, reports) := Step.runAll form q rest
      (escaped, r, report :: reports)

end

/-- A whole program: every error that comes out of one of its steps is caught. -/
def Step.runProgram {ε : Type} (form : ErrorForm ε) (p : Progress) :
    List (Step ε) → Progress × List (Report ε)
  | [] => (p, [])
  | step :: rest =>
    let (_, q, report) := step.run form p
    let (r, reports) := Step.runProgram form q rest
    (r, report :: reports)

/-- A whole program from the beginning of a batch; the beginning is a reading of the clock too. -/
def Step.runFrom {ε : Type} (form : ErrorForm ε) (j : Journal) (steps : List (Step ε)) :
    Except ε (Progress × List (Report ε)) :=
  if j.isReadable then .ok (Step.runProgram form (Progress.start j) steps)
  else .error (form.ofReading .clock)

end SafePath.Log
