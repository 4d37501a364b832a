import SafePath.Cli.Run
import SafePath.Proofs.Log.Tally
import SafePath.Proofs.Number.Binary64
import SafePath.Proofs.Path.Confinement

/-!
# A batch handles every name for itself

What comes of a name in a batch is a function of the settings and the name (`built`), and it is a path as
text or a path error (`built_cases`).  So no fault ends the loop over the names, which adds to the tally
what each name comes to (`handleNames_spec`), and everything around the loop puts out records only.
-/

namespace SafePath.Cli

/-! ## One name -/

/-- What a name comes to, whatever else is in the batch. -/
def built (settings : BatchSettings) (name : Text) : Except Fault Name :=
  (pathOfRawName (.text name) (settings.leading.map .text) (settings.extension.map .text)
    settings.asciiOnly settings.limits).result

def pathOf? (settings : BatchSettings) (name : Text) : Option Text :=
  match built settings name with
  | .ok (.text path) => some path
  | _ => none

def failureOf? (settings : BatchSettings) (name : Text) : Option Failure :=
  match built settings name with
  | .error (.path error) => some ⟨name, error.message⟩
  | _ => none

section
variable (settings : BatchSettings)

/-- A name has a path as text, which can be put out as UTF-8, or a path error, and not both. -/
theorem built_cases (name : Text) :
    (∃ path, built settings name = .ok (.text path) ∧ pathOf? settings name = some path ∧
        failureOf? settings name = none ∧ ∀ c ∈ path, ¬c.IsSurrogate) ∨
      ∃ error, built settings name = .error (.path error) ∧ pathOf? settings name = none ∧
        failureOf? settings name = some ⟨name, error.message⟩ := by
  rcases exists_of_pathOfRawName (.text name) (settings.leading.map .text)
    (settings.extension.map .text) settings.asciiOnly settings.limits with
    ⟨path, h, hform, hwf⟩ | ⟨error, h⟩
  · cases path with
    | text t =>
      rw [Name.toBytes, Text.wellFormed_encode_iff] at hwf
      exact Or.inl ⟨t, h, by rw [pathOf?, built, h], by rw [failureOf?, built, h], hwf⟩
    | bytes b => exact hform.elim
  · exact Or.inr ⟨error, h, by rw [pathOf?, built, h], by rw [failureOf?, built, h]⟩

theorem length_paths_add_length_failures (names : List Text) :
    (names.filterMap (pathOf? settings)).length + (names.filterMap (failureOf? settings)).length =
      names.length := by
  induction names with
  | nil => rfl
  | cons name rest ih =>
    rcases built_cases settings name with ⟨path, -, hpath, hfailure, -⟩ | ⟨error, -, hpath, hfailure⟩
    · rw [List.filterMap_cons_some hpath, List.filterMap_cons_none hfailure, List.length_cons,
        List.length_cons]
      omega
    · rw [List.filterMap_cons_none hpath, List.filterMap_cons_some hfailure, List.length_cons,
        List.length_cons]
      omega

/-- The block of a name: it is counted, and if it has no path, counted as failed. -/
theorem exists_within_buildPath (name : Text) (p : Log.Progress) :
    ∃ q, p.within Fault.message .name name (buildPath settings name) =
        ((built settings name).map pathText, q) ∧
      q.tally =
        { p.tally with
          processed := p.tally.processed + 1
          failed := p.tally.failed + (failureOf? settings name).toList.length } := by
  obtain ⟨q, hq, htally⟩ := Log.Progress.exists_within Fault.message .name name (buildPath settings name)
    (show buildPath settings name (p.enter .name (.ofText name)) =
      ((built settings name).map pathText, _) from rfl)
  refine ⟨q, hq, ?_⟩
  have hentered := Log.Progress.tally_enter .name (.ofText name) p
  generalize p.enter .name (.ofText name) = entered at htally hentered
  simp only [Log.Progress.tally, Log.Progress.count, Log.Tally.mk.injEq] at hentered
  obtain ⟨hprocessed, hfailed, hlines⟩ := hentered
  rw [htally]
  rcases built_cases settings name with ⟨path, h, -, hfailure, -⟩ | ⟨error, h, -, hfailure⟩
  · simp only [h, hfailure, Except.map, Log.Progress.raised?, Log.Progress.settle, Log.Progress.tally,
      Log.Journal.lines_append, hprocessed, hfailed, hlines, Option.toList_none, List.length_nil,
      Nat.add_zero]
  · simp only [h, hfailure, Except.map, Log.Progress.raised?, Log.Progress.settle, Log.Progress.tally,
      Log.Journal.lines_append, hprocessed, hfailed, hlines, Option.toList_some, List.length_singleton]

theorem tally_reportPath (name path : Text) (p : Log.Progress) :
    (reportPath name path p).tally = { p.tally with printed := p.tally.printed ++ [path] } := by
  simp [reportPath, Log.Progress.tally, Log.Progress.log]

theorem tally_reportFailure (failure : Failure) (p : Log.Progress) :
    (reportFailure failure p).tally = p.tally :=
  Log.Progress.tally_log _ _ _

/-! ## All names -/

/-- **The loop over the names is not ended by any of them**: it leaves the names without a path, and
every name in the tally. -/
theorem handleNames_spec (names : List Text) (p : Log.Progress) :
    ∃ q, handleNames settings p names = (.ok (names.filterMap (failureOf? settings)), q) ∧
      q.tally =
        { processed := p.tally.processed + names.length
          failed := p.tally.failed + (names.filterMap (failureOf? settings)).length
          printed := p.tally.printed ++ names.filterMap (pathOf? settings) } := by
  induction names generalizing p with
  | nil => exact ⟨p, rfl, by simp⟩
  | cons name rest ih =>
    obtain ⟨q, hq, htally⟩ := exists_within_buildPath settings name p
    rw [handleNames, hq]
    rcases built_cases settings name with ⟨path, h, hpath, hfailure, -⟩ | ⟨error, h, hpath, hfailure⟩
    · obtain ⟨q', hq', htally'⟩ := ih (reportPath name path q)
      refine ⟨q', ?_, ?_⟩
      · rw [h, List.filterMap_cons_none hfailure]
        exact hq'
      · rw [htally', tally_reportPath, htally, List.filterMap_cons_none hfailure,
          List.filterMap_cons_some hpath, hfailure]
        simp [Nat.add_assoc, Nat.add_comm 1]
    · obtain ⟨q', hq', htally'⟩ := ih (reportFailure ⟨name, error.message⟩ q)
      refine ⟨q', ?_, ?_⟩
      · rw [h, List.filterMap_cons_some hfailure]
        simp only [Except.map, hq']
      · rw [htally', tally_reportFailure, htally, List.filterMap_cons_some hfailure,
          List.filterMap_cons_none hpath, hfailure]
        simp [Nat.add_assoc, Nat.add_comm 1]

theorem tally_listFailures (failures : List Failure) (p : Log.Progress) :
    (listFailures failures p).tally = p.tally := by
  unfold listFailures
  split
  · rfl
  · rw [Log.Progress.tally_foldl_log, Log.Progress.tally_log]

/-- What the system tells of the memory in use can always be shown, so a batch looks for no fault there. -/
theorem memoryFault?_reading (memory : Log.MemoryUse) : Log.Progress.memoryFault? memory.reading = none := by
  cases memory with
  | failed reason => rfl
  | bytes n =>
    have hsmall : (n.toNat : Int).natAbs < 2 ^ 256 :=
      Nat.lt_trans n.toNat_lt (Nat.pow_lt_pow_right (by decide) (by decide))
    exact if_pos (Binary64.isFinite_ofRatio hsmall _ 1024)

theorem runBatch_spec (memory : Log.MemoryUse) (names : List Text) (j : Log.Journal) :
    ∃ q, runBatch settings memory names j = (.ok (names.filterMap (failureOf? settings)), q) ∧
      q.tally =
        { processed := names.length
          failed := (names.filterMap (failureOf? settings)).length
          printed := j.lines ++ names.filterMap (pathOf? settings) } := by
  obtain ⟨q, hq, htally⟩ := handleNames_spec settings names
    ((Log.Progress.start j).enter .operation (.ofText "generate paths"))
  obtain ⟨q', hq', htally'⟩ := Log.Progress.exists_within Fault.message .operation "generate paths"
    (fun p => handleNames settings p names) hq
  refine ⟨_, by rw [runBatch, hq'], ?_⟩
  rw [tally_listFailures, Log.Progress.tally_summarize, Log.Progress.tally_reportMemory, htally',
    Log.Progress.settle_operation, htally, Log.Progress.tally_enter]
  simp [Log.Progress.tally, Log.Progress.count, Log.Progress.start]

end

/-! ## The run around it -/

namespace Machine

/-- Records go elsewhere: standard output gets the lines of results and nothing else. -/
theorem stdout_performAll (outputs : List Log.Output) (m : Machine) :
    (m.performAll outputs).stdout =
      m.stdout ++ (outputs.filterMap Log.Output.line?).flatMap (· ++ ("\n" : Text)) := by
  induction outputs generalizing m with
  | nil => rw [List.filterMap_nil, List.flatMap_nil, List.append_nil, performAll, List.foldl_nil]
  | cons output rest ih =>
    rw [performAll, List.foldl_cons, ← performAll, ih]
    cases output with
    | record r => rfl
    | line t =>
      rw [List.filterMap_cons_some (f := Log.Output.line?) rfl, List.flatMap_cons, ← List.append_assoc]
      rfl

end Machine

theorem lines_obtainNames (files : Log.Journal → Files.Tree) (source : NamesSource) (j : Log.Journal) :
    (obtainNames files source j).2.lines = j.lines := by
  cases source with
  | both => exact Log.Journal.lines_log _ _ _
  | list names => rfl
  | nowhere => exact Log.Journal.lines_log _ _ _
  | file path =>
    have hread : (readNames files path j).2.lines = j.lines := by
      rw [readNames, Log.Journal.lines_timed]
      exact Log.Journal.lines_log _ _ _
    unfold obtainNames
    simp only
    split
    · next h => rw [Log.Journal.lines_log, ← hread, h]
    · next h => rw [Log.Journal.lines_log, ← hread, h]
    · next h => rw [← hread, h]

/-- The settings of a batch are those of the run. -/
def Checked.batch (checked : Checked) : BatchSettings where
  leading := checked.settings.outputPrefix
  extension := checked.settings.extension
  asciiOnly := checked.settings.asciiOnly
  limits := checked.limits

/-- The run has set logging up and obtained `names`; what it has put out by then is in `j`. -/
def Obtains (entry : Entry) (options : Options) (checked : Checked) (m : Machine) (names : List Text)
    (j : Log.Journal) : Prop :=
  ∃ station shown,
    m.station.setUp m.now checked.settings.logDirectory checked.settings.verbose = (.ok (), station) ∧
    checked.limits.shown? = some shown ∧
    obtainNames (fun k => ({ m with station := station }.performAll k.output).station.files)
        options.namesSource
        ((settingRecords checked.settings { source := entry.source, clock := m.clock, output := [] }).log
          .debug ("Limits: " ++ shown)) =
      (.ok names, j)

section
variable {entry : Entry} {options : Options} {checked : Checked} {m : Machine} {names : List Text}
  {j : Log.Journal}

theorem lines_of_obtains (h : Obtains entry options checked m names j) : j.lines = [] := by
  obtain ⟨station, shown, -, -, hnames⟩ := h
  have hlines := lines_obtainNames
    (fun k => ({ m with station := station }.performAll k.output).station.files) options.namesSource
    ((settingRecords checked.settings { source := entry.source, clock := m.clock, output := [] }).log
      .debug ("Limits: " ++ shown))
  rw [hnames] at hlines
  rw [hlines, settingRecords]
  simp only [Log.Journal.lines_log]
  rfl

/-- With names at hand, the run is the batch. -/
theorem work_of_obtainNames {files : Log.Journal → Files.Tree} {memory : Log.MemoryUse}
    {before : Log.Journal} (h : obtainNames files options.namesSource before = (.ok names, j))
    (hne : names ≠ []) {failures : List Failure} {q : Log.Progress}
    (hbatch : runBatch checked.batch memory names j = (.ok failures, q)) :
    work files options checked memory before = (.exit (batchStatus failures), q.journal) := by
  obtain ⟨name, rest, rfl⟩ := List.exists_cons_of_ne_nil hne
  rw [Checked.batch] at hbatch
  rw [work, h]
  simp only [hbatch]

theorem workChecked_of_shown {files : Log.Journal → Files.Tree} {memory : Log.MemoryUse} {shown : Text}
    (h : checked.limits.shown? = some shown) (before : Log.Journal) :
    workChecked files options checked memory before =
      work files options checked memory
        ((settingRecords checked.settings before).log .debug ("Limits: " ++ shown)) := by
  unfold workChecked
  rw [h]

theorem runChecked_of_obtains (h : Obtains entry options checked m names j) (hne : names ≠ [])
    {failures : List Failure} {q : Log.Progress}
    (hbatch : runBatch checked.batch m.memory names j = (.ok failures, q)) :
    (runChecked entry options checked m).1 = .exit (batchStatus failures) ∧
      (runChecked entry options checked m).2.stdout =
        m.stdout ++ q.journal.lines.flatMap (· ++ ("\n" : Text)) := by
  obtain ⟨station, shown, hsetup, hshown, hnames⟩ := h
  have hwork := work_of_obtainNames hnames hne hbatch
  rw [runChecked, hsetup]
  simp only [workChecked_of_shown hshown, hwork]
  exact ⟨trivial, Machine.stdout_performAll _ _⟩

end

/-- **Every name of a batch is handled for itself and accounted for.**  A name has a path, which has an
encoding and so can be printed, or a path error, whatever else is in the batch; the paths are printed in
order, the errors are listed in order, the counts agree with both, and a run that gets to its names exits
with zero exactly if none failed. -/
theorem batch_accounts_for_every_name (checked : Checked) (m : Machine) (names : List Text)
    (j : Log.Journal) :
    let paths := names.filterMap (pathOf? checked.batch)
    let failures := names.filterMap (failureOf? checked.batch)
    let tracker := (runBatch checked.batch m.memory names j).2
    (∀ name ∈ names,
      (∃ path, built checked.batch name = .ok (.text path) ∧ ∀ c ∈ path, ¬c.IsSurrogate) ∨
        ∃ error, built checked.batch name = .error (.path error)) ∧
      (runBatch checked.batch m.memory names j).1 = .ok failures ∧
      tracker.journal.lines = j.lines ++ paths ∧
      tracker.processed = names.length ∧ tracker.failed = failures.length ∧
      tracker.succeeded = paths.length ∧
      ∀ entry options, Obtains entry options checked m names j → names ≠ [] →
        (runChecked entry options checked m).1 = .exit (if failures = [] then 0 else 1) ∧
          (runChecked entry options checked m).2.stdout =
            m.stdout ++ paths.flatMap (· ++ ("\n" : Text)) := by
  obtain ⟨q, hq, htally⟩ := runBatch_spec checked.batch m.memory names j
  simp only [Log.Progress.tally, Log.Tally.mk.injEq] at htally
  obtain ⟨hprocessed, hfailed, hlines⟩ := htally
  intro paths failures tracker
  have hlength : paths.length + failures.length = names.length :=
    length_paths_add_length_failures checked.batch names
  have htracker : tracker = q := congrArg Prod.snd hq
  rw [htracker]
  refine ⟨fun name _ => ?_, congrArg Prod.fst hq, hlines, hprocessed, hfailed, ?_, ?_⟩
  · rcases built_cases checked.batch name with ⟨path, h, -, -, hplain⟩ | ⟨error, h, -⟩
    · exact Or.inl ⟨path, h, hplain⟩
    · exact Or.inr ⟨error, h⟩
  · rw [Log.Progress.succeeded, hprocessed, hfailed, ← hlength]
    exact Nat.add_sub_cancel _ _
  · intro entry options h hne
    obtain ⟨hexit, hstdout⟩ := runChecked_of_obtains h hne hq
    rw [lines_of_obtains h, List.nil_append] at hlines
    rw [hlines] at hstdout
    exact ⟨hexit, hstdout⟩

/-- A name that is given twice, and between the two one that has no encoding. -/
theorem batch_accounts_for_every_name_repeated :
    let names : List Text := ["Mario/Kart", [⟨0xDC80, by decide⟩], "Mario/Kart"]
    let options : Options :=
      { outputPrefix := none
        extension := none
        names :=
          some (.value (("Mario/Kart," : Text) ++ [⟨0xDC80, by decide⟩] ++ (",Mario/Kart" : Text)))
        namesFile := none
        asciiOnly := none
        verbose := none }
    let checked : Checked :=
      { settings :=
          { Config.Settings.withExtension (some ".nsp") with outputPrefix := some "out" }
        limits := .default }
    let m : Machine :=
      { environment := []
        station := { setup := .fresh, files := ⟨["tmp"], []⟩, console := [], frames := fun _ => ⟨[], []⟩ }
        stdout := []
        now := ⟨2024, 1, 2, 3, 4, 5⟩
        clock := 0
        memory := .failed "no access" }
    ∃ j, Obtains .command options checked m names j ∧ names ≠ [] ∧
      (runChecked .command options checked m).1 = .exit 1 ∧
      (runChecked .command options checked m).2.stdout =
        "out/Mario_Kart.nsp\nout/Mario_Kart.nsp\n" := by
  intro names options checked m
  have hobtains : Obtains .command options checked m names
      ((settingRecords checked.settings { source := Entry.command.source, clock := 0, output := [] }).log
        .debug ("Limits: " ++
          "PathLimits(max_component_bytes=255, max_path_bytes=769, separator='/')")) := by
    refine ⟨(m.station.setUp m.now checked.settings.logDirectory checked.settings.verbose).2,
      "PathLimits(max_component_bytes=255, max_path_bytes=769, separator='/')", ?_, ?_, ?_⟩
    · exact Prod.ext (by decide +kernel) rfl
    · decide +kernel
    · exact Prod.ext (by decide +kernel) rfl
  obtain ⟨-, -, -, -, -, -, hrun⟩ := batch_accounts_for_every_name checked m names _
  obtain ⟨hexit, hstdout⟩ := hrun .command options hobtains (by decide)
  refine ⟨_, hobtains, by decide, ?_, ?_⟩
  · rw [hexit, if_neg (by decide +kernel)]
  · rw [hstdout]
    decide +kernel

end SafePath.Cli
