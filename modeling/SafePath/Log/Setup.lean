import SafePath.Files.Tree
import SafePath.Log.Record

/-!
# Where log records go

Records go to the handlers that are attached to the root: a console handler, which shows level and
message from a threshold on, and a file handler, which appends every record with its time and source.
`setUp` attaches one of each, `shutDown` detaches those two.  While no handler is attached,
warnings and graver records are shown bare.  A line that a file cannot take, for it has no bytes, is
reported on the console (`Station.deliver`).

The log file is known by the path that the directory was given by, but it is opened by its absolute
path, so that is the one that an error names.

Every handler has a serial number, so that two of one kind are told apart.
-/

namespace SafePath.Log

structure Moment where
  year : Nat
  month : Nat
  day : Nat
  hour : Nat
  minute : Nat
  second : Nat

/-- A number with at least two digits. -/
def twoDigits (n : Nat) : Text := Numeral.padLeft 2 (Numeral.decimal n)

/-- The moment in a file name. -/
def Moment.compact (m : Moment) : Text :=
  Numeral.decimal m.year ++ twoDigits m.month ++ twoDigits m.day ++ "_" ++ twoDigits m.hour
    ++ twoDigits m.minute ++ twoDigits m.second

/-- The moment in front of a line. -/
def Moment.spaced (m : Moment) : Text :=
  Numeral.padLeft 4 (Numeral.decimal m.year) ++ "-" ++ twoDigits m.month ++ "-" ++ twoDigits m.day ++ " "
    ++ twoDigits m.hour ++ ":" ++ twoDigits m.minute ++ ":" ++ twoDigits m.second

/-- What a handler does with a record. -/
inductive Sink
  | console (threshold : Level)
  | file (path : Files.FilePath)
  | silent
deriving DecidableEq

/-- A sink that is or was attached. -/
structure Handler where
  serial : Nat
  sink : Sink
deriving DecidableEq

/-- The state of logging. -/
structure Setup where
  initialized : Bool
  logFile : Option Files.FilePath
  installed : List Handler
  root : List Handler
  threshold : Level
  nextSerial : Nat

/-- What becomes of a record. -/
inductive Delivery
  | console (line : Text)
  | file (path : Files.FilePath) (r : Record) (line : Text)

/-- The source lines that the report of a lost line quotes: those where it was lost, and those that led to
its record. -/
structure Frames where
  failing : Text
  calling : Text

namespace Setup

def fresh : Setup where
  initialized := false
  logFile := none
  installed := []
  root := []
  threshold := .warning
  nextSerial := 0

/-- The setup with one more handler attached, and that handler. -/
def attach (sink : Sink) (s : Setup) : Setup × Handler :=
  let handler : Handler := ⟨s.nextSerial, sink⟩
  ({ s with root := s.root ++ [handler], nextSerial := s.nextSerial + 1 }, handler)

/-- What a handler makes of a record. -/
def Handler.deliveries (now : Moment) (r : Record) (h : Handler) : List Delivery :=
  match h.sink with
  | .console threshold =>
    if threshold.rank ≤ r.level.rank then
      [.console (Text.ofString r.level.name ++ ": " ++ r.message ++ "\n")]
    else []
  | .file path =>
    [.file path r
      (now.spaced ++ " - " ++ r.source ++ " - " ++ Text.ofString r.level.name ++ " - " ++ r.message ++ "\n")]
  | .silent => []

/-- What becomes of a record. -/
def deliveries (now : Moment) (r : Record) (s : Setup) : List Delivery :=
  if r.level.rank < s.threshold.rank then []
  else if s.root = [] then
    if Level.warning.rank ≤ r.level.rank then [.console (r.message ++ "\n")] else []
  else s.root.flatMap (Handler.deliveries now r)

def logFileName (now : Moment) : Text := "nxdt_paths_" ++ now.compact ++ ".log"

def setupSource : Text := "nxdt_paths.infrastructure.logging.logger_setup"

/-- The records of a setup that has just been made. -/
def openingRecords (logFile : Files.FilePath) (verbose : Bool) : List Record :=
  [("Logging initialized. Log file: " : Text) ++ logFile.toText,
    ("Verbose mode: " : Text) ++ (if verbose then ("True" : Text) else "False")].map fun message =>
    { level := .debug, source := setupSource, message := message }

end Setup

/-- The report of a line that a file cannot take. -/
def lostReport (frames : Frames) (r : Record) (failure : Utf8.Strict.EncodeFailure) : Text :=
  "--- Logging error ---\nTraceback (most recent call last):\n" ++ frames.failing
    ++ "UnicodeEncodeError: " ++ failure.message ++ "\nCall stack:\n" ++ frames.calling
    ++ "Message: " ++ r.message.quoted ++ "\nArguments: ()\n"

/-- Logging together with the files it writes and what it has shown.  Which source lines led to a record
is known outside only. -/
structure Station where
  setup : Setup
  files : Files.Tree
  console : Text
  frames : Record → Frames

namespace Station

def display (t : Text) (st : Station) : Station :=
  { st with console := st.console ++ t.withoutSurrogates }

def deliver (st : Station) : Delivery → Station
  | .console line => st.display line
  | .file path r line =>
    match Utf8.Strict.encode line with
    | .error failure => st.display (lostReport (st.frames r) r failure)
    | .ok data =>
      match st.files.append path data with
      | .ok files => { st with files := files }
      | .error _ => st

def log (now : Moment) (st : Station) (r : Record) : Station :=
  (st.setup.deliveries now r).foldl deliver st

def logAll (now : Moment) (st : Station) (records : List Record) : Station :=
  records.foldl (log now) st

/-- A console and a file handler are attached in place of all others, unless that has been done.  The
directory of the log file is made first, the file is opened last; an error ends it where it occurs. -/
def setUp (now : Moment) (directory : Files.FilePath) (verbose : Bool) (st : Station) :
    Except Files.FileError Unit × Station :=
  if st.setup.initialized then (.ok (), st)
  else
    match st.files.makeDirectories directory with
    | (.error error, files) => (.error error, { st with files := files })
    | (.ok (), files) =>
      let logFile := directory.child (Setup.logFileName now)
      let cleared := { st.setup with logFile := some logFile, threshold := .debug, root := [] }
      let (withConsole, console) :=
        cleared.attach (.console (if verbose then .debug else .info))
      let opened := logFile.absolute files.workingDirectory
      match files.append opened [] with
      | .error error => (.error error, { st with files := files, setup := withConsole })
      | .ok files =>
        let (withBoth, file) := withConsole.attach (.file opened)
        let setup := { withBoth with installed := [console, file], initialized := true }
        (.ok (), logAll now { st with files := files, setup := setup } (Setup.openingRecords logFile verbose))

/-- The two handlers are detached, if they are attached. -/
def shutDown (st : Station) : Station :=
  if st.setup.initialized then
    { st with
      setup :=
        { st.setup with
          root := st.setup.root.filter fun h => h ∉ st.setup.installed
          installed := []
          initialized := false
          logFile := none } }
  else st

/-- A handler that shows nothing is attached. -/
def attachSilent (st : Station) : Station := { st with setup := (st.setup.attach .silent).1 }

end Station

end SafePath.Log
