import SafePath.Cli.Batch
import SafePath.Cli.NamesFile
import SafePath.Cli.Usage
import SafePath.Log.Setup

/-!
# A run of the command line tool

The command line is read, then the settings and the limits, then logging is set up; from there on the
run reports by log records.  Then the names are taken from the command line or from a file, and
handled as one batch.  Paths go to standard output, all else to the log and to standard error.

The names file may be the log file itself, so it is read as it is once the journal so far has been put
out.
-/

namespace SafePath.Cli

inductive Entry
  | command
  | script
  | module
deriving DecidableEq

/-- The name of the program in its usage. -/
def Entry.program : Entry → Text
  | .script => "main.py"
  | .command | .module => "nxdt-paths"

/-- The source of the run's own records. -/
def Entry.source : Entry → Text
  | .module => "__main__"
  | .command | .script => "nxdt_paths.main"

/-- What a run finds and leaves behind. -/
structure Machine where
  environment : Config.Environment
  station : Log.Station
  stdout : Text
  now : Log.Moment
  clock : Int
  memory : Log.MemoryUse

/-- An error that ends a run without an exit status. -/
inductive Escape
  | fault (fault : Fault)
  | file (error : Files.FileError)
  /-- The extension was given without a value. -/
  | extensionDropped
  /-- A limit cannot be written down. -/
  | limitsTooLong

def Escape.message : Escape → Text
  | .fault cause => cause.message
  | .file error => error.message
  | .extensionDropped => "'list' object has no attribute 'startswith'"
  | .limitsTooLong => Numeral.tooManyDigits

inductive Result
  | exit (status : Nat)
  | escaped (error : Escape)

namespace Machine

def complain (t : Text) (m : Machine) : Machine :=
  { m with station := m.station.display t }

def print (t : Text) (m : Machine) : Machine := { m with stdout := m.stdout ++ t }

def logAll (records : List Log.Record) (m : Machine) : Machine :=
  { m with station := m.station.logAll m.now records }

/-- An output of a journal. -/
def perform (m : Machine) : Log.Output → Machine
  | .record r => m.logAll [r]
  | .line t => m.print (t ++ "\n")

/-- The outputs of a journal, in order. -/
def performAll (outputs : List Log.Output) (m : Machine) : Machine := outputs.foldl perform m

end Machine

structure Checked where
  settings : Config.Settings
  limits : Limits

/-- What the reading of the settings comes to. -/
inductive Configured
  | ready (checked : Checked)
  | refused (fault : Config.ConfigFault)
  | escaped (error : Escape)

/-- A fault in the settings refuses the run; an environment file that the system does not give ends it. -/
def Configured.ofFault : Config.ConfigFault → Configured
  | .loading (.file (.system cause path)) => .escaped (.file (.system cause path))
  | fault => .refused fault

def Options.overrides (o : Options) : Config.Overrides :=
  { outputPrefix := o.outputPrefix
    extension := o.extension.bind Given.value?
    asciiOnly := o.asciiOnly
    verbose := o.verbose }

/-- The settings and limits of a run, and the machine after reading them.  An extension that was given
without a value is met last, when the extension is checked. -/
def configure (load : Config.EnvLoader) (options : Options) (m : Machine) : Configured × Machine :=
  let files := m.station.files
  let loaded :=
    Config.loadSettings load files (Config.usualEnvFile files) m.environment options.overrides
  let m := { m.logAll loaded.records with environment := loaded.environment }
  match loaded.settings with
  | .error fault => (.ofFault fault, m)
  | .ok settings =>
    let read := Config.limitsOf m.environment
    let m := m.logAll read.records
    match read.result with
    | .error fault => (.refused (.limits fault), m)
    | .ok limits =>
      if options.extension = some .dropped then (.escaped .extensionDropped, m)
      else
        match settings.validate limits.separatorText with
        | .error fault => (.refused fault, m)
        | .ok () => (.ready ⟨settings, limits⟩, m)

inductive NamesSource
  | both
  | list (names : Text)
  | file (path : Files.FilePath)
  | nowhere

/-- The source of names that the options give; an empty list counts as none, and so does a value that
was dropped. -/
def Options.namesSource (o : Options) : NamesSource :=
  match (o.names.bind Given.value?).filter (· ≠ []), o.namesFile.bind Given.value? with
  | some _, some _ => .both
  | some list, none => .list list
  | none, some path => .file path
  | none, none => .nowhere

/-- The names of a run, none if the run ends without them; what is put out on the way is in the
journal. -/
def obtainNames (files : Log.Journal → Files.Tree) (source : NamesSource) (j : Log.Journal) :
    Except (Option Files.FileError) (List Text) × Log.Journal :=
  match source with
  | .both => (.error none, j.log .error "Cannot use both --names and --names-file options")
  | .nowhere => (.error none, j.log .error "Must provide either --names or --names-file option")
  | .list names => (.ok (splitNames names), j)
  | .file path =>
    match readNames files path j with
    | (.ok names, j) =>
      (.ok names,
        j.log .info ("Read " ++ Numeral.decimal names.length ++ " names from " ++ path.toText))
    | (.error (.system cause place), j) =>
      (.error none,
        j.log .error ("Error reading names file: " ++ (Files.FileError.system cause place).message))
    | (.error error, j) => (.error (some error), j)

/-- The names of a run and their paths, put out into the journal. -/
def work (files : Log.Journal → Files.Tree) (options : Options) (checked : Checked) (memory : Log.MemoryUse)
    (j : Log.Journal) : Result × Log.Journal :=
  match obtainNames files options.namesSource j with
  | (.error none, j) => (.exit 1, j)
  | (.error (some error), j) => (.escaped (.file error), j)
  | (.ok [], j) => (.exit 1, j.log .error "No names provided")
  | (.ok names, j) =>
    let settings : BatchSettings :=
      { leading := checked.settings.outputPrefix
        extension := checked.settings.extension
        asciiOnly := checked.settings.asciiOnly
        limits := checked.limits }
    match runBatch settings memory names j with
    | (.error fault, p) => (.escaped (.fault fault), p.journal)
    | (.ok failures, p) => (.exit (batchStatus failures), p.journal)

/-- The records of the prefix and the extension of a run. -/
def settingRecords (settings : Config.Settings) (j : Log.Journal) : Log.Journal :=
  (j.log .debug ("Output prefix: " ++ Text.quotedOption settings.outputPrefix)).log .debug
    ("Extension: " ++ Text.quotedOption settings.extension)

/-- A run with checked settings, from its first record on. -/
def workChecked (files : Log.Journal → Files.Tree) (options : Options) (checked : Checked)
    (memory : Log.MemoryUse) (j : Log.Journal) : Result × Log.Journal :=
  let j := settingRecords checked.settings j
  match checked.limits.shown? with
  | none => (.escaped .limitsTooLong, j)
  | some shown => work files options checked memory (j.log .debug ("Limits: " ++ shown))

def runChecked (entry : Entry) (options : Options) (checked : Checked) (m : Machine) : Result × Machine :=
  match m.station.setUp m.now checked.settings.logDirectory checked.settings.verbose with
  | (.error error, station) => (.escaped (.file error), { m with station := station })
  | (.ok (), station) =>
    let m := { m with station := station }
    let files (j : Log.Journal) : Files.Tree := (m.performAll j.output).station.files
    let (result, journal) :=
      workChecked files options checked m.memory { source := entry.source, clock := m.clock, output := [] }
    (result, m.performAll journal.output)

/-- A run of the tool, with what loads its environment file. -/
def run (load : Config.EnvLoader) (entry : Entry) (words : List Text) (m : Machine) : Result × Machine :=
  let width := lineWidth (m.environment.get? columnsVariable)
  match parse words with
  | .help => (.exit 0, m.print (help width entry.program))
  | .refused error => (.exit 2, m.complain (refusal width entry.program error))
  | .options options =>
    match configure load options m with
    | (.refused fault, m) => (.exit 1, m.complain ("Configuration error: " ++ fault.message ++ "\n"))
    | (.escaped error, m) => (.escaped error, m)
    | (.ready checked, m) => runChecked entry options checked m

end SafePath.Cli
