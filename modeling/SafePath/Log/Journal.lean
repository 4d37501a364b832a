import SafePath.Log.Record
import SafePath.Number.Binary64

/-!
# The journal of a run

What a run puts out, in order: records of its source, records of the functions it calls, and lines of
results.  The journal also knows the time, a whole number of microseconds; a reading of the clock is
that number divided by a million, and a duration is the difference of two readings.

A time that is too far off for a floating point number cannot be read: `isReadable` tells, and where
somebody else sets the clock, as under `timedOrFault`, it is asked before every reading.
-/

namespace SafePath.Log

/-- One thing that a run puts out. -/
inductive Output
  | record (r : Record)
  | line (t : Text)
deriving DecidableEq

/-- The records of an output, in order. -/
def Output.record? : Output → Option Record
  | .record r => some r
  | .line _ => none

/-- Why something that a record shows cannot be had. -/
inductive ReadingFault
  /-- The time is too far off for a floating point number. -/
  | clock
  /-- The memory in use is too much for one. -/
  | memory
  /-- The memory in use is no number, but a value of this kind. -/
  | notMemory (kind : String)
  /-- A value of this kind has no length. -/
  | length (kind : String)
deriving DecidableEq

def ReadingFault.message : ReadingFault → Text
  | .clock => "int too large to convert to float"
  | .memory => "integer division result too large for a float"
  | .notMemory kind => "unsupported operand type(s) for /: '" ++ Text.ofString kind ++ "' and 'int'"
  | .length kind => "object of type '" ++ Text.ofString kind ++ "' has no len()"

/-- What has to be known of a type of errors: the wording of each, and which one stands for a reading
that fails.  That every error has a wording is taken for granted: one whose own text cannot be made is no
value of `ε`. -/
structure ErrorForm (ε : Type) where
  describe : ε → Text
  ofReading : ReadingFault → ε

/-- Output so far, and the time. -/
structure Journal where
  source : Text
  clock : Int
  output : List Output

namespace Journal

/-- A reading of the clock in seconds. -/
def time (j : Journal) : Binary64 := (Binary64.ofInt j.clock).div (Binary64.ofInt 1000000)

def isReadable (j : Journal) : Bool := j.time.isFinite

def advance (us : Int) (j : Journal) : Journal := { j with clock := j.clock + us }

/-- The journal with one more output. -/
def put (o : Output) (j : Journal) : Journal := { j with output := j.output ++ [o] }

def log (level : Level) (message : Text) (j : Journal) : Journal :=
  j.put (.record { level := level, source := j.source, message := message })

/-- The journal with the records of a called function. -/
def append (records : List Record) (j : Journal) : Journal :=
  { j with output := j.output ++ records.map .record }

def records (j : Journal) : List Record := j.output.filterMap Output.record?

/-- The seconds since a reading of the clock, with three decimals. -/
def elapsed (start : Binary64) (j : Journal) : Text := (j.time.sub start).fixed 3 ++ "s"

/-- The start of an action is recorded. -/
def begin (label : Text) (j : Journal) : Journal := j.log .debug ("Starting " ++ label)

/-- The end of an action that began at the time `start` is recorded. -/
def finish {ε α : Type} (describe : ε → Text) (label : Text) (start : Binary64) (result : Except ε α)
    (j : Journal) : Journal :=
  match result with
  | .ok _ => j.log .debug ("Completed " ++ label ++ " in " ++ j.elapsed start)
  | .error e =>
    j.log .error ("Failed " ++ label ++ " after " ++ j.elapsed start ++ ": " ++ describe e)

/-- An action under the name `label`: its start, its end and how long it took are recorded. -/
def timed {ε α : Type} (describe : ε → Text) (label : Text)
    (action : Journal → Except ε α × Journal) (j : Journal) : Except ε α × Journal :=
  let j := j.begin label
  let (result, k) := action j
  (result, k.finish describe label j.time result)

/-- `timed` by a clock that may be unreadable.  At the start, it keeps the action from being taken; at the
end, the fault takes the place of the result, and nothing is recorded. -/
def timedOrFault {ε α : Type} (form : ErrorForm ε) (label : Text)
    (action : Journal → Except ε α × Journal) (j : Journal) : Except ε α × Journal :=
  let j := j.begin label
  if j.isReadable then
    let (result, k) := action j
    if k.isReadable then (result, k.finish form.describe label j.time result)
    else (.error (form.ofReading .clock), k)
  else (.error (form.ofReading .clock), j)

end Journal

end SafePath.Log
