import SafePath.Proofs.Cli.Batch
import SafePath.Proofs.Log.Delivery

/-!
# Verbose and quiet runs

How much a run shows is decided at one place, the level of the console.  All else that a run does is written
into its journal first, and the journal is made without it (`workChecked_congr`).  So a verbose and a quiet run
with the same settings end in the same way and print the same lines, their log files differ in the one record
that tells which it is, and the quiet console is the verbose one without its debug records (`run_verbosity`).

What the names file holds is an input, so two runs that differ in nothing else find the same in it
(`SameNamesFile`).  That is so for any file but the log file that they write themselves
(`sameNamesFile_of_apart`); names that are read from there are not the same for both, by that one record.
-/

namespace SafePath.Cli

open Log

def Checked.withVerbose (verbose : Bool) (checked : Checked) : Checked :=
  { checked with settings := { checked.settings with verbose := verbose } }

/-- The files of a run once the directory of its log file is made. -/
def Checked.made (checked : Checked) (m : Machine) : Files.Tree :=
  (m.station.files.makeDirectories checked.settings.logDirectory).2

/-- The log file of a run, as its records name it. -/
def Checked.logFile (checked : Checked) (m : Machine) : Files.FilePath :=
  Setup.logFileIn checked.settings.logDirectory m.now

/-- The log file of a run, as it is opened. -/
def Checked.opened (checked : Checked) (m : Machine) : Files.FilePath :=
  Setup.openedIn (checked.made m) checked.settings.logDirectory m.now

/-! ## One run -/

namespace Machine

/-- A journal that is put out leaves its records where those before it are. -/
theorem delivers_performAll {level : Level} {logFile : Files.FilePath} {made : Files.Tree} {start : Station}
    {records : List Record} {m : Machine} (h : start.Delivers m.now level logFile made records m.station)
    (outputs : List Output) :
    start.Delivers m.now level logFile made (records ++ outputs.filterMap Output.record?)
      (m.performAll outputs).station := by
  induction outputs generalizing m records with
  | nil =>
    rw [List.filterMap_nil, List.append_nil]
    exact h
  | cons output rest ih =>
    rw [performAll, List.foldl_cons, ← performAll]
    cases output with
    | record r =>
      rw [List.filterMap_cons_some (f := Output.record?) rfl, List.append_cons]
      exact ih (m := m.perform (.record r)) (h.log r)
    | line t =>
      rw [List.filterMap_cons_none (f := Output.record?) rfl]
      exact ih (m := m.perform (.line t)) h

/-- The station is not concerned with the environment. -/
theorem station_performAll_withEnvironment (environment : Config.Environment) (outputs : List Output) (m : Machine) :
    ({ m with environment := environment }.performAll outputs).station = (m.performAll outputs).station := by
  induction outputs generalizing m with
  | nil => rfl
  | cons output rest ih =>
    cases output with
    | record r => exact ih (m.perform (.record r))
    | line t => exact ih (m.perform (.line t))

end Machine

section
variable (entry : Entry) (options : Options) (checked : Checked) {m : Machine}

theorem runChecked_of_setUp_error {error : Files.FileError} {station : Station}
    (h : m.station.setUp m.now checked.settings.logDirectory checked.settings.verbose = (.error error, station)) :
    runChecked entry options checked m = (.escaped (.file error), { m with station := station }) := by
  rw [runChecked, h]

/-- A run that has set logging up comes to what its work comes to. -/
theorem runChecked_of_setUp_ok {station : Station} {result : Result} {journal : Journal}
    (h : m.station.setUp m.now checked.settings.logDirectory checked.settings.verbose = (.ok (), station))
    (hwork : workChecked (fun j => ({ m with station := station }.performAll j.output).station.files) options checked
      m.memory { source := entry.source, clock := m.clock, output := [] } = (result, journal)) :
    runChecked entry options checked m = (result, { m with station := station }.performAll journal.output) := by
  rw [runChecked, h]
  simp only [hwork]

/-- A run that has opened its log file delivers the records of its work. -/
theorem runChecked_of_opened {files : Files.Tree} (hinit : m.station.setup.initialized = false)
    (hmake : m.station.files.makeDirectories checked.settings.logDirectory = (.ok (), checked.made m))
    (hopen : (checked.made m).append (checked.opened m) [] = .ok files) :
    ∃ filesAt : Journal → Files.Tree,
      (∀ j, (checked.made m).append (checked.opened m)
        (writtenAt m.now (Setup.openingRecords (checked.logFile m) checked.settings.verbose ++ j.records)) =
          .ok (filesAt j)) ∧
      ∀ result journal,
        workChecked filesAt options checked m.memory { source := entry.source, clock := m.clock, output := [] } =
          (result, journal) →
        (runChecked entry options checked m).1 = result ∧
        (runChecked entry options checked m).2.stdout = m.stdout ++ journal.lines.flatMap (· ++ ("\n" : Text)) ∧
        m.station.Delivers m.now (Setup.consoleLevel checked.settings.verbose) (checked.opened m) (checked.made m)
          (Setup.openingRecords (checked.logFile m) checked.settings.verbose ++ journal.records)
          (runChecked entry options checked m).2.station := by
  obtain ⟨station, hsetup, hdelivers⟩ := Station.delivers_setUp checked.settings.verbose hinit hmake hopen
  have hall : ∀ j : Journal, m.station.Delivers m.now (Setup.consoleLevel checked.settings.verbose) (checked.opened m)
      (checked.made m) (Setup.openingRecords (checked.logFile m) checked.settings.verbose ++ j.records)
      ({ m with station := station }.performAll j.output).station :=
    fun j => Machine.delivers_performAll (m := { m with station := station }) hdelivers j.output
  refine ⟨fun j => ({ m with station := station }.performAll j.output).station.files, fun j => (hall j).files, ?_⟩
  intro result journal hwork
  rw [runChecked_of_setUp_ok entry options checked hsetup hwork]
  exact ⟨rfl, Machine.stdout_performAll journal.output _, hall journal⟩

end

/-! ## Two runs -/

/-- Names depend on the files only where they are read from. -/
theorem obtainNames_congr {files files' : Journal → Files.Tree} {source : NamesSource}
    (h : ∀ path, source = .file path → ∀ j, (files' j).read path = (files j).read path) (j : Journal) :
    obtainNames files' source j = obtainNames files source j := by
  cases source with
  | both => rfl
  | list names => rfl
  | nowhere => rfl
  | file path =>
    have hread : readNames files' path j = readNames files path j := by
      simp only [readNames, h path rfl]
    rw [obtainNames, obtainNames, hread]

/-- **The journal of a run** is made without its verbosity. -/
theorem workChecked_congr {files files' : Journal → Files.Tree} {options options' : Options}
    (hsource : options'.namesSource = options.namesSource)
    (h : ∀ path, options.namesSource = .file path → ∀ j, (files' j).read path = (files j).read path)
    (checked : Checked) (memory : MemoryUse) (j : Journal) :
    workChecked files' options' (checked.withVerbose true) memory j =
      workChecked files options (checked.withVerbose false) memory j := by
  have hwork : ∀ j, work files' options' (checked.withVerbose true) memory j =
      work files options (checked.withVerbose false) memory j := by
    intro j
    simp only [work, hsource, obtainNames_congr h, Checked.withVerbose]
  cases hshown : checked.limits.shown? with
  | none =>
    have hnone : ∀ verbose, (checked.withVerbose verbose).limits.shown? = none := fun _ => hshown
    unfold workChecked
    rw [hnone, hnone]
    rfl
  | some shown =>
    have hsome : ∀ verbose, (checked.withVerbose verbose).limits.shown? = some shown := fun _ => hshown
    rw [workChecked_of_shown (hsome true), workChecked_of_shown (hsome false), hwork]
    rfl

/-- The run gets to where it sets up logging, with these options and settings. -/
def Reaches (load : Config.EnvLoader) (words : List Text) (m : Machine) (options : Options) (checked : Checked)
    (k : Machine) : Prop :=
  parse words = .options options ∧ configure load options m = (.ready checked, k)

theorem run_of_reaches {load : Config.EnvLoader} {entry : Entry} {words : List Text} {m k : Machine}
    {options : Options} {checked : Checked} (h : Reaches load words m options checked k) :
    run load entry words m = runChecked entry options checked k := by
  simp only [run, h.1, h.2]

/-- The names file, if there is one, holds the same for a quiet and a verbose run that have put out the same records
but for their opening ones. -/
def SameNamesFile (options : Options) (checked : Checked) (k : Machine) : Prop :=
  ∀ path, options.namesSource = .file path → ∀ (records : List Record) (quiet verbose : Files.Tree),
    (checked.made k).append (checked.opened k)
        (writtenAt k.now (Setup.openingRecords (checked.logFile k) false ++ records)) = .ok quiet →
    (checked.made k).append (checked.opened k)
        (writtenAt k.now (Setup.openingRecords (checked.logFile k) true ++ records)) = .ok verbose →
    verbose.read path = quiet.read path

/-- **Any names file but the log file of the run** holds the same for both. -/
theorem sameNamesFile_of_apart {options : Options} {checked : Checked} {k : Machine}
    (h : ∀ path, options.namesSource = .file path → ∀ files,
      (checked.made k).append (checked.opened k) [] = .ok files → files.Apart path (checked.opened k)) :
    SameNamesFile options checked k := by
  intro path hpath records quiet verbose hquiet hverbose
  obtain ⟨files, hopen⟩ := Files.Tree.exists_append hquiet []
  have hapart := h path hpath files hopen
  rw [Files.Tree.read_of_apart hopen hverbose hapart, Files.Tree.read_of_apart hopen hquiet hapart]

/-- What a quiet and a verbose run leave that came to set up logging on `k`. -/
inductive SameButVerbosity (checked : Checked) (k : Machine) : Station → Station → Prop
  /-- Logging was set up before, so the verbosity is of no account. -/
  | before (initialized : k.station.setup.initialized = true) (station : Station) :
    SameButVerbosity checked k station station
  /-- No log file could be opened; no more than directories were made. -/
  | unopened {quiet verbose : Station} (quiet_files : quiet.files = checked.made k)
    (verbose_files : verbose.files = checked.made k) (quiet_console : quiet.console = k.station.console)
    (verbose_console : verbose.console = k.station.console) : SameButVerbosity checked k quiet verbose
  /-- The log files hold all records, of which only the opening ones tell the verbosity; the quiet console leaves out
  the records for debugging. -/
  | opened {quiet verbose : Station} (rest : List Record)
    (quiet_files : (checked.made k).append (checked.opened k)
      (writtenAt k.now (Setup.openingRecords (checked.logFile k) false ++ rest)) = .ok quiet.files)
    (verbose_files : (checked.made k).append (checked.opened k)
      (writtenAt k.now (Setup.openingRecords (checked.logFile k) true ++ rest)) = .ok verbose.files)
    (quiet_console : quiet.console = k.station.console ++
      ((showings k.now (Setup.openingRecords (checked.logFile k) true ++ rest)).filter
        fun s => !s.isDebugRecord).flatMap (Showing.text k.station.frames))
    (verbose_console : verbose.console = k.station.console ++
      (showings k.now (Setup.openingRecords (checked.logFile k) true ++ rest)).flatMap
        (Showing.text k.station.frames)) : SameButVerbosity checked k quiet verbose

/-- What a quiet and a verbose run have in common that came to set up logging on `k`. -/
structure DifferInVerbosity (checked : Checked) (k : Machine) (quiet verbose : Result × Machine) : Prop where
  result : verbose.1 = quiet.1
  stdout : verbose.2.stdout = quiet.2.stdout
  station : SameButVerbosity checked k quiet.2.station verbose.2.station

section
variable {entry : Entry} {options options' : Options} {checked : Checked} {k : Machine}

/-- With logging set up before, two runs are one. -/
theorem runChecked_verbosity_before (environment : Config.Environment)
    (hsource : options'.namesSource = options.namesSource) (hinit : k.station.setup.initialized = true) :
    DifferInVerbosity checked k (runChecked entry options (checked.withVerbose false) k)
      (runChecked entry options' (checked.withVerbose true) { k with environment := environment }) := by
  have hstation := fun j : Journal => Machine.station_performAll_withEnvironment environment j.output k
  have hread : ∀ path, options.namesSource = .file path → ∀ j : Journal,
      ({ k with environment := environment }.performAll j.output).station.files.read path =
        (k.performAll j.output).station.files.read path :=
    fun path _ j => by rw [hstation j]
  have hsame := workChecked_congr hsource hread checked k.memory
    { source := entry.source, clock := k.clock, output := [] }
  rcases hwork : workChecked (fun j => (k.performAll j.output).station.files) options (checked.withVerbose false)
    k.memory { source := entry.source, clock := k.clock, output := [] } with ⟨result, journal⟩
  have hquiet := runChecked_of_setUp_ok entry options (checked.withVerbose false)
    (Station.setUp_of_initialized k.now _ _ hinit) hwork
  have hverbose := runChecked_of_setUp_ok (m := { k with environment := environment }) entry options'
    (checked.withVerbose true) (Station.setUp_of_initialized k.now _ _ hinit) (hsame.trans hwork)
  rw [hquiet, hverbose]
  refine ⟨rfl, ?_, ?_⟩
  · rw [Machine.stdout_performAll, Machine.stdout_performAll]
  · rw [hstation journal]
    exact .before hinit _

/-- Once the log file is open, what is read is the same for both, and so is all that comes of it. -/
theorem runChecked_verbosity_opened (environment : Config.Environment) {files : Files.Tree}
    (hsource : options'.namesSource = options.namesSource) (hnames : SameNamesFile options checked k)
    (hinit : k.station.setup.initialized = false)
    (hmake : k.station.files.makeDirectories checked.settings.logDirectory = (.ok (), checked.made k))
    (hopen : (checked.made k).append (checked.opened k) [] = .ok files) :
    DifferInVerbosity checked k (runChecked entry options (checked.withVerbose false) k)
      (runChecked entry options' (checked.withVerbose true) { k with environment := environment }) := by
  obtain ⟨filesAt, hfiles, hquiet⟩ :=
    runChecked_of_opened entry options (checked.withVerbose false) hinit hmake hopen
  obtain ⟨filesAt', hfiles', hverbose⟩ :=
    runChecked_of_opened (m := { k with environment := environment }) entry options' (checked.withVerbose true)
      hinit hmake hopen
  have hread : ∀ path, options.namesSource = .file path → ∀ j, (filesAt' j).read path = (filesAt j).read path :=
    fun path hpath j => hnames path hpath j.records _ _ (hfiles j) (hfiles' j)
  have hsame := workChecked_congr hsource hread checked k.memory
    { source := entry.source, clock := k.clock, output := [] }
  rcases hwork : workChecked filesAt options (checked.withVerbose false) k.memory
      { source := entry.source, clock := k.clock, output := [] } with ⟨result, journal⟩
  obtain ⟨hresult, hstdout, hdelivers⟩ := hquiet result journal hwork
  obtain ⟨hresult', hstdout', hdelivers'⟩ := hverbose result journal (hsame.trans hwork)
  refine ⟨hresult'.trans hresult.symm, hstdout'.trans hstdout.symm,
    .opened journal.records hdelivers.files hdelivers'.files ?_ ?_⟩
  · rw [filter_showings_openingRecords k.now (checked.logFile k) true false, ← shownFrom_info]
    exact hdelivers.console
  · rw [← shownFrom_debug]
    exact hdelivers'.console

theorem runChecked_verbosity (environment : Config.Environment)
    (hsource : options'.namesSource = options.namesSource) (hnames : SameNamesFile options checked k) :
    DifferInVerbosity checked k (runChecked entry options (checked.withVerbose false) k)
      (runChecked entry options' (checked.withVerbose true) { k with environment := environment }) := by
  cases hinit : k.station.setup.initialized with
  | true => exact runChecked_verbosity_before environment hsource hinit
  | false =>
    rcases hmake : k.station.files.makeDirectories checked.settings.logDirectory with ⟨error | ⟨⟩, made⟩
    all_goals obtain rfl : checked.made k = made := congrArg Prod.snd hmake
    · rw [runChecked_of_setUp_error entry options _ (Station.setUp_of_noDirectory k.now false hinit hmake),
        runChecked_of_setUp_error entry options' _ (Station.setUp_of_noDirectory k.now true hinit hmake)]
      exact ⟨rfl, rfl, .unopened rfl rfl rfl rfl⟩
    cases hopen : (checked.made k).append (checked.opened k) [] with
    | error error =>
      rw [runChecked_of_setUp_error entry options _ (Station.setUp_of_noLogFile false hinit hmake hopen),
        runChecked_of_setUp_error entry options' _ (Station.setUp_of_noLogFile true hinit hmake hopen)]
      exact ⟨rfl, rfl, .unopened rfl rfl rfl rfl⟩
    | ok files => exact runChecked_verbosity_opened environment hsource hnames hinit hmake hopen

end

/-- Without an environment file, and with limits that nothing has to be said about, nothing happens before the
set-up. -/
theorem configure_snd_eq_self (load : Config.EnvLoader) (options : Options) {m : Machine}
    (hfile : m.station.files.isThere (Config.usualEnvFile m.station.files) = .ok false)
    (hlimits : (Config.limitsOf m.environment).records = []) : (configure load options m).2 = m := by
  have hcompleted : Config.loadEnvFile load m.station.files (Config.usualEnvFile m.station.files) m.environment =
      { outcome := .ok (), environment := m.environment, records := [] } := by
    simp only [Config.loadEnvFile, hfile]
  have hnothing : m.logAll [] = m := rfl
  unfold configure Config.loadSettings
  simp only [hcompleted, hlimits, hnothing]
  split
  · rfl
  · split
    · rfl
    · split
      · rfl
      · rfl

/-- A computer on which nothing has run yet, with these files. -/
def Machine.new (files : Files.Tree) : Machine where
  environment := []
  station := { setup := .fresh, files := files, console := [], frames := fun _ => ⟨[], []⟩ }
  stdout := []
  now := ⟨2024, 1, 2, 3, 4, 5⟩
  clock := 0
  memory := .failed "no access"

def Options.ofNamesFile (path : Text) (verbose : Option Bool) : Options where
  outputPrefix := none
  extension := none
  names := none
  namesFile := some (.value (Files.FilePath.ofText path))
  asciiOnly := none
  verbose := verbose

def Checked.usual : Checked := { settings := Config.Settings.withExtension none, limits := .default }

-- what comes of reading a command line and settings can be compared, so a run up to its set-up can be decided
deriving instance DecidableEq for LimitsFault, Limits, Config.LoadFault, Config.ConfigFault, Config.Settings
deriving instance DecidableEq for Options, Outcome, Checked, Escape, Configured

theorem Machine.new_reaches {load : Config.EnvLoader} {words : List Text} {files : Files.Tree} {options : Options}
    {verbose : Bool} (hfile : files.isThere (Config.usualEnvFile files) = .ok false)
    (hparse : parse words = .options options)
    (hready : (configure load options (.new files)).1 = .ready (Checked.usual.withVerbose verbose)) :
    Reaches load words (.new files) options (Checked.usual.withVerbose verbose) (.new files) := by
  have hlimits : (Config.limitsOf []).records = [] := by decide +kernel
  exact ⟨hparse, Prod.ext hready (configure_snd_eq_self load options hfile hlimits)⟩

end SafePath.Cli
