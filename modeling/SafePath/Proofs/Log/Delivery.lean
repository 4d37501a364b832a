import SafePath.Proofs.Files.Append
import SafePath.Proofs.Log.Station
import SafePath.Proofs.Text.Shown
import SafePath.Proofs.Utf8.Text

/-!
# Where the records of a set-up station arrive

Once logging is set up, every record goes to the log file, and to the console if its level is high enough,
whatever other records there are (`Delivers.logAll`).  A line with no bytes is lost to the log file, which the
console reports at any level.  So the console shows the records from its level on and all losses, one after the
other (`showings`), and the log file has grown by the bytes of all records.
-/

namespace SafePath.Log

def Record.consoleLine (r : Record) : Text := Text.ofString r.level.name ++ ": " ++ r.message ++ "\n"

def Record.fileLine (now : Moment) (r : Record) : Text :=
  now.spaced ++ " - " ++ r.source ++ " - " ++ Text.ofString r.level.name ++ " - " ++ r.message ++ "\n"

/-- The bytes of a line; a line without an encoding has none. -/
def bytesOrNone (line : Text) : Bytes :=
  match Utf8.Strict.encode line with
  | .error _ => []
  | .ok data => data

/-- The bytes of some records in a log file. -/
def writtenAt (now : Moment) (records : List Record) : Bytes :=
  records.flatMap fun r => bytesOrNone (r.fileLine now)

theorem writtenAt_append (now : Moment) (rs rs' : List Record) :
    writtenAt now (rs ++ rs') = writtenAt now rs ++ writtenAt now rs' :=
  List.flatMap_append

/-! ## What there is to show -/

/-- What a console can show: a record, or the loss of its line in the log file. -/
inductive Showing
  | line (r : Record)
  | loss (r : Record) (failure : Utf8.Strict.EncodeFailure)

namespace Showing

def text (frames : Record → Frames) : Showing → Text
  | .line r => r.consoleLine.withoutSurrogates
  | .loss r failure => (lostReport (frames r) r failure).withoutSurrogates

/-- A console with this threshold shows it. -/
def isFrom (level : Level) : Showing → Bool
  | .line r => decide (level.rank ≤ r.level.rank)
  | .loss _ _ => true

def isDebugRecord : Showing → Bool
  | .line r => decide (r.level = .debug)
  | .loss _ _ => false

end Showing

/-- The loss of a record's line, if it is lost. -/
def Record.losses (now : Moment) (r : Record) : List Showing :=
  match Utf8.Strict.encode (r.fileLine now) with
  | .error failure => [.loss r failure]
  | .ok _ => []

/-- What there is to show of some records. -/
def showings (now : Moment) (records : List Record) : List Showing :=
  records.flatMap fun r => .line r :: r.losses now

theorem showings_append (now : Moment) (rs rs' : List Record) :
    showings now (rs ++ rs') = showings now rs ++ showings now rs' :=
  List.flatMap_append

/-- What a console shows of some records. -/
def shownFrom (frames : Record → Frames) (now : Moment) (level : Level) (records : List Record) : Text :=
  ((showings now records).filter (Showing.isFrom level)).flatMap (Showing.text frames)

theorem shownFrom_append (frames : Record → Frames) (now : Moment) (level : Level) (rs rs' : List Record) :
    shownFrom frames now level (rs ++ rs') = shownFrom frames now level rs ++ shownFrom frames now level rs' := by
  rw [shownFrom, showings_append, List.filter_append, List.flatMap_append, shownFrom, shownFrom]

/-- A loss is shown at any level. -/
theorem filter_isFrom_losses (now : Moment) (level : Level) (r : Record) :
    (r.losses now).filter (Showing.isFrom level) = r.losses now := by
  unfold Record.losses
  split
  · rfl
  · rfl

theorem shownFrom_singleton (frames : Record → Frames) (now : Moment) (level : Level) (r : Record) :
    shownFrom frames now level [r] =
      (if level.rank ≤ r.level.rank then r.consoleLine.withoutSurrogates else []) ++
        (r.losses now).flatMap (Showing.text frames) := by
  rw [shownFrom, showings, List.flatMap_singleton]
  by_cases h : level.rank ≤ r.level.rank
  · have hfrom : (Showing.line r).isFrom level = true := decide_eq_true h
    rw [List.filter_cons_of_pos hfrom, filter_isFrom_losses, if_pos h]
    rfl
  · have hfrom : ¬(Showing.line r).isFrom level = true := fun hfrom => h (of_decide_eq_true hfrom)
    rw [List.filter_cons_of_neg hfrom, filter_isFrom_losses, if_neg h, List.nil_append]

theorem Level.debug_le (level : Level) : Level.debug.rank ≤ level.rank := by cases level <;> decide

/-- A console from the lowest level on shows everything. -/
theorem shownFrom_debug (frames : Record → Frames) (now : Moment) (records : List Record) :
    shownFrom frames now .debug records = (showings now records).flatMap (Showing.text frames) := by
  have hall : (showings now records).filter (Showing.isFrom .debug) = showings now records := by
    refine List.filter_eq_self.mpr fun s _ => ?_
    cases s with
    | line r => exact decide_eq_true r.level.debug_le
    | loss r failure => rfl
  rw [shownFrom, hall]

/-- One from the next level on leaves out exactly the records of the lowest. -/
theorem shownFrom_info (frames : Record → Frames) (now : Moment) (records : List Record) :
    shownFrom frames now .info records =
      ((showings now records).filter fun s => !s.isDebugRecord).flatMap (Showing.text frames) := by
  have hsame : Showing.isFrom .info = fun s => !s.isDebugRecord := by
    funext s
    cases s with
    | line r =>
      show decide (Level.info.rank ≤ r.level.rank) = !decide (r.level = .debug)
      cases r.level <;> decide
    | loss r failure => rfl
  rw [shownFrom, hsame]

/-! ## Lines that are not lost -/

/-- A line without surrogates is not lost. -/
theorem Record.losses_eq_nil {now : Moment} {r : Record} (h : ∀ c ∈ r.fileLine now, ¬c.IsSurrogate) :
    r.losses now = [] := by
  rw [losses, Utf8.Strict.encode, Utf8.Strict.refusedRun_eq_none fun c hc => decide_eq_false (h c hc)]

theorem Moment.isShown_spaced (now : Moment) : now.spaced.IsShown := by
  simp +decide only [spaced, twoDigits, Text.isShown_append_iff, Numeral.isShown_padLeft, Numeral.isShown_decimal,
    and_self]

/-- The opening record that tells the log file. -/
def Setup.logFileRecord (logFile : Files.FilePath) : Record where
  level := .debug
  source := setupSource
  message := "Logging initialized. Log file: " ++ logFile.toText

/-- The opening record that tells the verbosity. -/
def Setup.verbosityRecord (verbose : Bool) : Record where
  level := .debug
  source := setupSource
  message := "Verbose mode: " ++ (if verbose then ("True" : Text) else "False")

theorem losses_verbosityRecord (now : Moment) (verbose : Bool) : (Setup.verbosityRecord verbose).losses now = [] := by
  have hspaced := now.isShown_spaced.not_isSurrogate
  refine Record.losses_eq_nil ?_
  cases verbose
  all_goals
    simpa +decide only [Record.fileLine, Setup.verbosityRecord, List.forall_mem_append, and_true] using hspaced

/-- The opening records are for the log file and a verbose console; whether they are lost does not depend on the
verbosity that the second one tells. -/
theorem filter_showings_openingRecords (now : Moment) (logFile : Files.FilePath) (verbose verbose' : Bool)
    (records : List Record) :
    (showings now (Setup.openingRecords logFile verbose ++ records)).filter (fun s => !s.isDebugRecord) =
      (showings now (Setup.openingRecords logFile verbose' ++ records)).filter fun s => !s.isDebugRecord := by
  have hsame : ∀ v, (showings now (Setup.openingRecords logFile v)).filter (fun s => !s.isDebugRecord) =
      ((Setup.logFileRecord logFile).losses now).filter fun s => !s.isDebugRecord := by
    intro v
    have hshown : showings now (Setup.openingRecords logFile v) =
        .line (Setup.logFileRecord logFile) ::
          ((Setup.logFileRecord logFile).losses now ++
            .line (Setup.verbosityRecord v) :: ((Setup.verbosityRecord v).losses now ++ [])) := rfl
    have hfirst : (Showing.line (Setup.logFileRecord logFile)).isDebugRecord = true := rfl
    have hsecond : (Showing.line (Setup.verbosityRecord v)).isDebugRecord = true := rfl
    rw [hshown, losses_verbosityRecord]
    simp only [List.filter_cons, List.filter_append, hfirst, hsecond, Bool.not_true, Bool.false_eq_true, if_false,
      List.filter_nil, List.append_nil]
  rw [showings_append, showings_append, List.filter_append, List.filter_append, hsame, hsame]

namespace Station

/-- The station has delivered `records` since it was as `start`: the console has shown them from `level` on, and to
the log file, in the tree `made`, their bytes have been appended. -/
structure Delivers (now : Moment) (level : Level) (logFile : Files.FilePath) (made : Files.Tree) (start : Station)
    (records : List Record) (st : Station) : Prop where
  root : ∃ i j, st.setup.root = [⟨i, .console level⟩, ⟨j, .file logFile⟩]
  threshold : st.setup.threshold = .debug
  frames : st.frames = start.frames
  console : st.console = start.console ++ shownFrom start.frames now level records
  files : made.append logFile (writtenAt now records) = .ok st.files

variable {now : Moment} {level : Level} {logFile : Files.FilePath} {made : Files.Tree} {start : Station}
  {records : List Record} {st : Station}

/-- A line that goes to a file is appended to it, or its loss is shown. -/
theorem deliver_file {written : Bytes} (h : made.append logFile written = .ok st.files) (now : Moment) (r : Record) :
    ∃ files, st.deliver (.file logFile r (r.fileLine now)) =
        { st with
          files := files
          console := st.console ++ (r.losses now).flatMap (Showing.text st.frames) } ∧
      made.append logFile (written ++ bytesOrNone (r.fileLine now)) = .ok files := by
  rw [deliver, bytesOrNone, Record.losses]
  cases Utf8.Strict.encode (r.fileLine now) with
  | error failure =>
    refine ⟨st.files, ?_, ?_⟩
    · rw [List.flatMap_singleton]
      rfl
    · rw [List.append_nil]
      exact h
  | ok data =>
    obtain ⟨files, hfiles⟩ := Files.Tree.exists_append h (written ++ data)
    refine ⟨files, ?_, hfiles⟩
    simp only [Files.Tree.append_append h data, hfiles, List.flatMap_nil, List.append_nil]

/-- A record goes to the console, if its level is high enough, and to the file. -/
theorem Delivers.deliveries (h : start.Delivers now level logFile made records st) (r : Record) :
    st.setup.deliveries now r =
      (if level.rank ≤ r.level.rank then [.console r.consoleLine] else []) ++
        [.file logFile r (r.fileLine now)] := by
  obtain ⟨i, j, hroot⟩ := h.root
  rw [Setup.deliveries, h.threshold, if_neg (Nat.not_lt.mpr r.level.debug_le), if_neg (by simp [hroot]), hroot,
    List.flatMap_cons, List.flatMap_singleton]
  rfl

/-- **One record.** -/
theorem Delivers.log (h : start.Delivers now level logFile made records st) (r : Record) :
    start.Delivers now level logFile made (records ++ [r]) (st.log now r) := by
  have hwritten : writtenAt now (records ++ [r]) = writtenAt now records ++ bytesOrNone (r.fileLine now) := by
    rw [writtenAt_append, writtenAt, writtenAt, List.flatMap_singleton]
  let shown : Text := if level.rank ≤ r.level.rank then r.consoleLine.withoutSurrogates else []
  have hconsole : (if level.rank ≤ r.level.rank then [Delivery.console r.consoleLine] else []).foldl deliver st =
      { st with console := st.console ++ shown } := by
    by_cases hlevel : level.rank ≤ r.level.rank
    · simp only [shown, if_pos hlevel]
      rfl
    · simp only [shown, if_neg hlevel, List.append_nil]
      rfl
  have hkept : made.append logFile (writtenAt now records) =
      .ok ({ st with console := st.console ++ shown } : Station).files := h.files
  obtain ⟨files, hdeliver, hfiles⟩ := deliver_file hkept now r
  rw [Station.log, h.deliveries, List.foldl_append, hconsole, List.foldl_cons, List.foldl_nil, hdeliver]
  refine ⟨h.root, h.threshold, h.frames, ?_, hwritten ▸ hfiles⟩
  rw [shownFrom_append, shownFrom_singleton, ← List.append_assoc, ← List.append_assoc, ← h.console, ← h.frames]

/-- **All records.** -/
theorem Delivers.logAll (h : start.Delivers now level logFile made records st) (more : List Record) :
    start.Delivers now level logFile made (records ++ more) (st.logAll now more) := by
  induction more generalizing st records with
  | nil =>
    rw [List.append_nil]
    exact h
  | cons r rest ih =>
    rw [List.append_cons]
    exact ih (h.log r)

/-- A station that has just been set up has delivered the opening records. -/
theorem delivers_setUp {directory : Files.FilePath} {files : Files.Tree} (verbose : Bool)
    (hinit : st.setup.initialized = false) (hmake : st.files.makeDirectories directory = (.ok (), made))
    (hopen : made.append (Setup.openedIn made directory now) [] = .ok files) :
    ∃ st', st.setUp now directory verbose = (.ok (), st') ∧
      st.Delivers now (Setup.consoleLevel verbose) (Setup.openedIn made directory now) made
        (Setup.openingRecords (Setup.logFileIn directory now) verbose) st' := by
  have hstart : st.Delivers now (Setup.consoleLevel verbose) (Setup.openedIn made directory now) made []
      { st with
        files := files
        setup := st.setup.completed (Setup.logFileIn directory now) (Setup.openedIn made directory now) verbose } :=
    ⟨⟨_, _, rfl⟩, rfl, rfl, (List.append_nil _).symm, hopen⟩
  exact ⟨_, setUp_of_opened verbose hinit hmake hopen, hstart.logAll _⟩

end Station

end SafePath.Log
