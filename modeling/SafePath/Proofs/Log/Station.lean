import SafePath.Log.Setup

/-!
# What a set-up comes to

A set-up goes one of four ways, by its state and its files alone: nothing is done if logging is set up
already (`setUp_of_initialized`); the directory cannot be made (`setUp_of_noDirectory`); the log file cannot
be opened (`setUp_of_noLogFile`), when a console handler is attached already; or both handlers are attached
and the first records are written (`setUp_of_opened`).  Writing a record changes no handler (`setup_logAll`).
-/

namespace SafePath.Log

namespace Setup

def consoleLevel (verbose : Bool) : Level := if verbose then .debug else .info

def consoleHandler (verbose : Bool) (s : Setup) : Handler := ⟨s.nextSerial, .console (consoleLevel verbose)⟩

def fileHandler (opened : Files.FilePath) (s : Setup) : Handler := ⟨s.nextSerial + 1, .file opened⟩

/-- The path of a log file, as a set-up knows it. -/
def logFileIn (directory : Files.FilePath) (now : Moment) : Files.FilePath := directory.child (logFileName now)

/-- The path of a log file, as a set-up opens it. -/
def openedIn (tree : Files.Tree) (directory : Files.FilePath) (now : Moment) : Files.FilePath :=
  (logFileIn directory now).absolute tree.workingDirectory

/-- The setup when the log file is about to be opened. -/
def halfway (logFile : Files.FilePath) (verbose : Bool) (s : Setup) : Setup where
  initialized := false
  logFile := some logFile
  installed := s.installed
  root := [s.consoleHandler verbose]
  threshold := .debug
  nextSerial := s.nextSerial + 1

/-- The setup with both handlers attached. -/
def completed (logFile opened : Files.FilePath) (verbose : Bool) (s : Setup) : Setup where
  initialized := true
  logFile := some logFile
  installed := [s.consoleHandler verbose, s.fileHandler opened]
  root := [s.consoleHandler verbose, s.fileHandler opened]
  threshold := .debug
  nextSerial := s.nextSerial + 2

end Setup

namespace Station

section
variable (now : Moment)

theorem setup_deliver (st : Station) (d : Delivery) : (st.deliver d).setup = st.setup := by
  cases d with
  | console line => rfl
  | file path r line =>
    unfold deliver
    simp only
    split
    · rfl
    · split
      · rfl
      · rfl

theorem setup_log (st : Station) (r : Record) : (st.log now r).setup = st.setup :=
  List.foldlRecOn (motive := fun st' => st'.setup = st.setup) _ deliver rfl
    fun st' h d _ => (setup_deliver st' d).trans h

/-- **Records change no handler.** -/
theorem setup_logAll (st : Station) (records : List Record) : (st.logAll now records).setup = st.setup :=
  List.foldlRecOn (motive := fun st' => st'.setup = st.setup) _ (log now) rfl
    fun st' h r _ => (setup_log now st' r).trans h

variable {directory : Files.FilePath} {st : Station} {files : Files.Tree}

theorem setUp_of_initialized (directory : Files.FilePath) (verbose : Bool) (h : st.setup.initialized = true) :
    st.setUp now directory verbose = (.ok (), st) := by
  rw [setUp, if_pos h]

theorem setUp_of_noDirectory {error : Files.FileError} (verbose : Bool) (h : st.setup.initialized = false)
    (hmake : st.files.makeDirectories directory = (.error error, files)) :
    st.setUp now directory verbose = (.error error, { st with files := files }) := by
  simp only [setUp, h, hmake, Bool.false_eq_true, if_false]

variable {now}

theorem setUp_of_noLogFile {error : Files.FileError} (verbose : Bool) (h : st.setup.initialized = false)
    (hmake : st.files.makeDirectories directory = (.ok (), files))
    (hopen : files.append (Setup.openedIn files directory now) [] = .error error) :
    st.setUp now directory verbose =
      (.error error,
        { st with files := files, setup := st.setup.halfway (Setup.logFileIn directory now) verbose }) := by
  rw [Setup.openedIn, Setup.logFileIn] at hopen
  simp only [setUp, h, hmake, hopen, Bool.false_eq_true, if_false]
  rfl

theorem setUp_of_opened {made : Files.Tree} (verbose : Bool) (h : st.setup.initialized = false)
    (hmake : st.files.makeDirectories directory = (.ok (), made))
    (hopen : made.append (Setup.openedIn made directory now) [] = .ok files) :
    st.setUp now directory verbose =
      (.ok (),
        logAll now
          { st with
            files := files
            setup :=
              st.setup.completed (Setup.logFileIn directory now) (Setup.openedIn made directory now) verbose }
          (Setup.openingRecords (Setup.logFileIn directory now) verbose)) := by
  rw [Setup.openedIn, Setup.logFileIn] at hopen
  simp only [setUp, h, hmake, hopen, Bool.false_eq_true, if_false]
  rfl

end

end Station

end SafePath.Log
