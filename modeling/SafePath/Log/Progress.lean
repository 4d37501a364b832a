import SafePath.Log.Journal
import SafePath.Number.Quantity
import SafePath.Text.Quoted

/-!
# Progress of a batch

Work is done in blocks.  A block for a name is counted when it is entered, and once more if it fails;
a block for an operation is not counted.  Every block records its start and its end.  An error inside
a block is recorded and handed on unchanged.
-/

namespace SafePath.Log

/-- The journal of a batch, with its counts. -/
structure Progress where
  journal : Journal
  started : Binary64
  processed : Nat
  failed : Nat

/-- What a block of work is about. -/
inductive Block
  | name
  | operation
deriving DecidableEq

/-- What a block is called: in a sentence, as a literal, and by the length of its name; a name that has no
length is a value of some kind. -/
structure Label where
  plain : Text
  literal : Text
  length : Except String Nat

/-- A text as a label. -/
def Label.ofText (t : Text) : Label := { plain := t, literal := t.quoted, length := .ok t.length }

/-- Why a block of this kind cannot be called so. -/
def Label.fault? (label : Label) : Block → Option ReadingFault
  | .operation => none
  | .name =>
    match label.length with
    | .ok _ => none
    | .error kind => some (.length kind)

/-- What comes of an attempt to read the memory in use. -/
inductive MemoryReading
  | failed (reason : Text)
  | bytes (q : Quantity)
  | notANumber (kind : String)

/-- The memory in use as the system tells it: so many bytes, or why it does not. -/
inductive MemoryUse
  | failed (reason : Text)
  | bytes (n : UInt64)

def MemoryUse.reading : MemoryUse → MemoryReading
  | .failed reason => .failed reason
  | .bytes n => .bytes (.count n.toNat)

namespace Progress

def start (j : Journal) : Progress :=
  { journal := j, started := j.time, processed := 0, failed := 0 }

def succeeded (p : Progress) : Nat := p.processed - p.failed

def log (level : Level) (message : Text) (p : Progress) : Progress :=
  { p with journal := p.journal.log level message }

def advance (us : Int) (p : Progress) : Progress := { p with journal := p.journal.advance us }

/-- The number of the name at hand, as records show it. -/
def number (p : Progress) : Text := "#" ++ Numeral.decimal p.processed

def count (block : Block) (p : Progress) : Progress :=
  match block with
  | .name => { p with processed := p.processed + 1 }
  | .operation => p

/-- The start of a block is recorded, of one for a name only if the name has a length. -/
def announce (block : Block) (label : Label) (p : Progress) : Progress :=
  match block, label.length with
  | .name, .ok length =>
    p.log .debug
      ("Processing name " ++ p.number ++ ": " ++ label.literal ++ " (" ++ Numeral.decimal length ++ " chars)")
  | .name, .error _ => p
  | .operation, _ => p.log .debug ("Starting operation: " ++ label.plain)

def enter (block : Block) (label : Label) (p : Progress) : Progress :=
  (p.count block).announce block label

/-- The failure of a block is counted, if it failed. -/
def settle {ε : Type} (block : Block) (raised : Option ε) (p : Progress) : Progress :=
  match block, raised with
  | .name, some _ => { p with failed := p.failed + 1 }
  | _, _ => p

/-- The end of a block that was entered at the time `start` is recorded. -/
def conclude {ε : Type} (describe : ε → Text) (block : Block) (label : Label) (start : Binary64)
    (raised : Option ε) (p : Progress) : Progress :=
  let elapsed := p.journal.elapsed start
  match block, raised with
  | .name, none => p.log .debug ("Name " ++ p.number ++ " completed in " ++ elapsed)
  | .name, some _ => p.log .debug ("Name " ++ p.number ++ " failed after " ++ elapsed)
  | .operation, none =>
    p.log .debug ("Completed operation: " ++ label.plain ++ " in " ++ elapsed)
  | .operation, some e =>
    p.log .error ("Failed operation: " ++ label.plain ++ " after " ++ elapsed ++ ": " ++ describe e)

/-- A block that was entered at the time `start` is left, with an error or without one. -/
def leave {ε : Type} (describe : ε → Text) (block : Block) (label : Label) (start : Binary64)
    (raised : Option ε) (p : Progress) : Progress :=
  (p.settle block raised).conclude describe block label start raised

/-- An action as a block of work, called by a text. -/
def within {ε α : Type} (describe : ε → Text) (block : Block) (name : Text)
    (action : Progress → Except ε α × Progress) (p : Progress) : Except ε α × Progress :=
  let label := Label.ofText name
  match action (p.enter block label) with
  | (.ok a, q) => (.ok a, q.leave describe block label p.journal.time none)
  | (.error e, q) => (.error e, q.leave describe block label p.journal.time (some e))

/-- Names per second since the beginning, or zero if no time has passed. -/
def rate (p : Progress) : Binary64 :=
  let total := p.journal.time.sub p.started
  if total.isPositive then (Binary64.ofInt p.processed).div total else .zero

/-- The counts, the time and the rate are recorded. -/
def summarize (p : Progress) : Progress :=
  p.log .info
    ("Processing complete: " ++ Numeral.decimal p.processed ++ " names, "
      ++ Numeral.decimal p.succeeded ++ " succeeded, " ++ Numeral.decimal p.failed ++ " failed in "
      ++ (p.journal.time.sub p.started).fixed 2 ++ "s (" ++ p.rate.fixed 1 ++ " names/s)")

/-- A number of bytes in kibibytes. -/
def kibibytes : Quantity → Binary64
  | .count n => Binary64.ofRatio (decide (n < 0)) n.natAbs 1024
  | .measure x => x.div (Binary64.ofInt 1024)

/-- Why a reading of the memory in use cannot be shown: a count may be too large for a floating point
number. -/
def memoryFault? : MemoryReading → Option ReadingFault
  | .failed _ => none
  | .bytes (.measure _) => none
  | .bytes (.count n) => if (kibibytes (.count n)).isFinite then none else some .memory
  | .notANumber kind => some (.notMemory kind)

/-- The bytes of memory in use, or why they could not be read, are recorded. -/
def reportMemory (reading : MemoryReading) (p : Progress) : Progress :=
  match reading with
  | .failed reason => p.log .debug ("Could not get memory usage: " ++ reason)
  | .bytes q =>
    p.log .debug
      ("Memory usage: " ++ ((kibibytes q).div (Binary64.ofInt 1024)).fixed 1 ++ " MB")
  | .notANumber _ => p

end Progress

end SafePath.Log
