import SafePath.Proofs.Log.Station

/-!
# Logging over its whole life

Set-ups and shut-downs may come in any order, while others attach handlers of their own, records are written
and files change.  Over every such history it is followed which handlers set-ups have attached (`own`), and
how things stand by what the calls met in the files:

- `idle`: nothing is set up;
- `active`: a set-up has opened its log file and was not shut down since;
- `stranded`: a set-up has made its directory and then failed to open its log file.

Each standing determines what the setup holds (`Standing.Describes`), whatever happened before.  So logging
is consistent, in that its flag, its path and its handlers agree and a shut-down detaches exactly what was
attached, after every history that does not leave it stranded, and after no other
(`run_consistent_iff_not_stranded`).  A stranded setup keeps the path and the console handler of the attempt;
a shut-down leaves it as it is, and only a set-up that opens its log file ends it.
-/

namespace SafePath.Log

/-- What happens in the life of a process, as far as logging is concerned. -/
inductive Event
  | setUp (now : Moment) (directory : Files.FilePath) (verbose : Bool)
  | shutDown
  /-- A record is written. -/
  | record (now : Moment) (r : Record)
  /-- Somebody else attaches a handler. -/
  | attach (sink : Sink)
  /-- Somebody else changes the files. -/
  | alter (files : Files.Tree)

/-- How things stand after some calls. -/
inductive Standing
  | idle
  | active
  | stranded
deriving DecidableEq

namespace Standing

/-- How things stand after an attempt to set up logging, by the files that it meets. -/
def afterSetUp (now : Moment) (directory : Files.FilePath) (files : Files.Tree) (standing : Standing) : Standing :=
  if standing = .active then .active
  else
    match files.makeDirectories directory with
    | (.error _, _) => standing
    | (.ok (), made) =>
      match made.append (Setup.openedIn made directory now) [] with
      | .error _ => .stranded
      | .ok _ => .active

/-- How things stand after a shut-down. -/
def afterShutDown : Standing → Standing
  | .active => .idle
  | standing => standing

end Standing

/-- Logging, the handlers that set-ups have ever attached, and how things stand. -/
structure History where
  station : Station
  own : List Handler
  standing : Standing

namespace History

def begin (files : Files.Tree) (console : Text) (frames : Record → Frames) : History :=
  { station := { setup := Setup.fresh, files := files, console := console, frames := frames }
    own := []
    standing := .idle }

/-- The history with one more event. -/
def perform (h : History) : Event → History
  | .setUp now directory verbose =>
    let st := (h.station.setUp now directory verbose).2
    { station := st
      own := h.own ++ st.setup.root.filter fun x => x ∉ h.station.setup.root
      standing := h.standing.afterSetUp now directory h.station.files }
  | .shutDown => { h with station := h.station.shutDown, standing := h.standing.afterShutDown }
  | .record now r => { h with station := h.station.log now r }
  | .attach sink => { h with station := { h.station with setup := (h.station.setup.attach sink).1 } }
  | .alter files => { h with station := { h.station with files := files } }

def run (h : History) (events : List Event) : History := events.foldl perform h

/-- The handlers attached to the root that a set-up has put there. -/
def ownAttached (h : History) : List Handler := h.station.setup.root.filter fun x => x ∈ h.own

/-- The flag, the path and the handlers of logging agree. -/
structure Consistent (h : History) : Prop where
  initialized_iff : h.station.setup.initialized = true ↔ h.station.setup.logFile ≠ none
  both : h.station.setup.initialized = true →
    ∃ console file level path base, h.ownAttached = [console, file] ∧ console.sink = .console level ∧
      file.sink = .file (path.absolute base) ∧ h.station.setup.logFile = some path
  none : h.station.setup.initialized = false → h.ownAttached = []
  /-- A shut-down detaches exactly what was attached. -/
  root_shutDown : h.station.shutDown.setup.root = h.station.setup.root.filter fun x => x ∉ h.own

end History

/-- What a setup holds when things stand so, with these of its handlers attached. -/
def Standing.Describes (setup : Setup) (attached : List Handler) : Standing → Prop
  | .idle => setup.initialized = false ∧ setup.logFile = none ∧ attached = []
  | .active =>
    setup.initialized = true ∧ setup.installed = attached ∧
      ∃ console file level path base, attached = [console, file] ∧ console.sink = .console level ∧
        file.sink = .file (path.absolute base) ∧ setup.logFile = some path
  | .stranded =>
    setup.initialized = false ∧
      ∃ console level path, attached = [console] ∧ console.sink = .console level ∧ setup.logFile = some path

theorem Standing.Describes.initialized_iff {setup : Setup} {attached : List Handler} {standing : Standing}
    (h : standing.Describes setup attached) : setup.initialized = true ↔ standing = .active := by
  cases standing with
  | idle => exact ⟨fun hinit => Bool.noConfusion (hinit.symm.trans h.1), nofun⟩
  | active => exact ⟨fun _ => rfl, fun _ => h.1⟩
  | stranded => exact ⟨fun hinit => Bool.noConfusion (hinit.symm.trans h.1), nofun⟩

/-- Handlers on the root that no set-up has attached do not matter. -/
theorem Standing.Describes.congr {setup setup' : Setup} {attached : List Handler} {standing : Standing}
    (h : standing.Describes setup attached) (hinit : setup'.initialized = setup.initialized)
    (hpath : setup'.logFile = setup.logFile) (hinstalled : setup'.installed = setup.installed) :
    standing.Describes setup' attached := by
  cases standing with
  | idle => exact ⟨hinit.trans h.1, hpath.trans h.2.1, h.2.2⟩
  | active => simpa only [Standing.Describes, hinit, hpath, hinstalled] using h
  | stranded => simpa only [Standing.Describes, hinit, hpath] using h

namespace History

/-- The invariant of a history: serial numbers are given once, and the setup is as things stand. -/
structure Sound (h : History) : Prop where
  root_older : ∀ x ∈ h.station.setup.root, x.serial < h.station.setup.nextSerial
  own_older : ∀ x ∈ h.own, x.serial < h.station.setup.nextSerial
  describes : h.standing.Describes h.station.setup h.ownAttached

theorem sound_begin (files : Files.Tree) (console : Text) (frames : Record → Frames) :
    (begin files console frames).Sound where
  root_older := nofun
  own_older := nofun
  describes := ⟨rfl, rfl, rfl⟩

variable {h k : History}

/-- The files and the console do not matter. -/
theorem Sound.of_setup_eq (hs : h.Sound) (hsetup : k.station.setup = h.station.setup) (hown : k.own = h.own)
    (hstanding : k.standing = h.standing) : k.Sound := by
  have hattached : k.ownAttached = h.ownAttached := by rw [ownAttached, ownAttached, hsetup, hown]
  refine ⟨?_, ?_, ?_⟩
  · rw [hsetup]
    exact hs.root_older
  · rw [hsetup, hown]
    exact hs.own_older
  · rw [hstanding, hsetup, hattached]
    exact hs.describes

/-- Handlers with new numbers have taken the place of all others. -/
theorem Sound.of_replaced (hs : h.Sound) (hle : h.station.setup.nextSerial ≤ k.station.setup.nextSerial)
    (hnew : ∀ x ∈ k.station.setup.root,
      h.station.setup.nextSerial ≤ x.serial ∧ x.serial < k.station.setup.nextSerial)
    (hown : k.own = h.own ++ k.station.setup.root.filter fun x => x ∉ h.station.setup.root)
    (hdescribes : k.standing.Describes k.station.setup k.station.setup.root) : k.Sound := by
  have hfilter : (k.station.setup.root.filter fun x => x ∉ h.station.setup.root) = k.station.setup.root := by
    rw [List.filter_eq_self]
    intro x hx
    have hfresh : x ∉ h.station.setup.root := fun hold =>
      absurd (hs.root_older x hold) (Nat.not_lt.mpr (hnew x hx).1)
    exact decide_eq_true hfresh
  rw [hfilter] at hown
  have hattached : k.ownAttached = k.station.setup.root := by
    rw [ownAttached, List.filter_eq_self, hown]
    exact fun x hx => decide_eq_true (List.mem_append_right _ hx)
  refine ⟨fun x hx => (hnew x hx).2, ?_, by rwa [hattached]⟩
  rw [hown, List.forall_mem_append]
  exact ⟨fun x hx => Nat.lt_of_lt_of_le (hs.own_older x hx) hle, fun x hx => (hnew x hx).2⟩

/-- A set-up that leaves the setup alone adds no handler. -/
theorem Sound.of_setUp_setup_eq {now : Moment} {directory : Files.FilePath} {verbose : Bool} (hs : h.Sound)
    (heq : (h.station.setUp now directory verbose).2.setup = h.station.setup)
    (hstanding : h.standing.afterSetUp now directory h.station.files = h.standing) :
    (h.perform (.setUp now directory verbose)).Sound := by
  have hnone : (h.station.setup.root.filter fun x => x ∉ h.station.setup.root) = [] := by
    rw [List.filter_eq_nil_iff]
    exact fun x hx hnew => of_decide_eq_true hnew hx
  refine hs.of_setup_eq heq ?_ hstanding
  simp only [perform, heq, hnone, List.append_nil]

theorem Sound.setUp (hs : h.Sound) (now : Moment) (directory : Files.FilePath) (verbose : Bool) :
    (h.perform (.setUp now directory verbose)).Sound := by
  by_cases hactive : h.standing = .active
  · have hsame := Station.setUp_of_initialized now directory verbose (hs.describes.initialized_iff.mpr hactive)
    exact hs.of_setUp_setup_eq (by rw [hsame]) (by rw [Standing.afterSetUp, if_pos hactive, hactive])
  have hinit : h.station.setup.initialized = false := by
    rw [← Bool.not_eq_true, hs.describes.initialized_iff]
    exact hactive
  rcases hmake : h.station.files.makeDirectories directory with ⟨error | ⟨⟩, made⟩
  · have hfailed := Station.setUp_of_noDirectory now verbose hinit hmake
    refine hs.of_setUp_setup_eq (by rw [hfailed]) ?_
    rw [Standing.afterSetUp, if_neg hactive, hmake]
  cases hopen : made.append (Setup.openedIn made directory now) [] with
  | error error =>
    have hstanding : (h.perform (.setUp now directory verbose)).standing = .stranded := by
      simp only [perform, Standing.afterSetUp, hactive, hmake, hopen, if_false]
    have hsetup : (h.perform (.setUp now directory verbose)).station.setup =
        h.station.setup.halfway (Setup.logFileIn directory now) verbose := by
      rw [perform, Station.setUp_of_noLogFile verbose hinit hmake hopen]
    refine hs.of_replaced ?_ ?_ rfl ?_
    · rw [hsetup]
      exact Nat.le_succ _
    · rw [hsetup]
      exact List.forall_mem_singleton.mpr ⟨Nat.le_refl _, Nat.lt_succ_self _⟩
    · rw [hsetup, hstanding]
      exact ⟨rfl, _, _, _, rfl, rfl, rfl⟩
  | ok files =>
    have hstanding : (h.perform (.setUp now directory verbose)).standing = .active := by
      simp only [perform, Standing.afterSetUp, hactive, hmake, hopen, if_false]
    have hsetup : (h.perform (.setUp now directory verbose)).station.setup =
        h.station.setup.completed (Setup.logFileIn directory now) (Setup.openedIn made directory now) verbose := by
      rw [perform, Station.setUp_of_opened verbose hinit hmake hopen]
      exact Station.setup_logAll _ _ _
    refine hs.of_replaced ?_ ?_ rfl ?_
    · rw [hsetup]
      exact Nat.le_add_right _ 2
    · rw [hsetup]
      refine List.forall_mem_cons.mpr ⟨⟨Nat.le_refl _, Nat.lt_add_of_pos_right Nat.two_pos⟩, ?_⟩
      exact List.forall_mem_singleton.mpr ⟨Nat.le_succ _, Nat.lt_succ_self _⟩
    · rw [hsetup, hstanding]
      exact ⟨rfl, rfl, _, _, _, _, _, rfl, rfl, rfl, rfl⟩

/-- What a shut-down leaves on the root while logging is set up. -/
theorem root_shutDown_of_installed (hinit : h.station.setup.initialized = true)
    (hinstalled : h.station.setup.installed = h.ownAttached) :
    h.station.shutDown.setup.root = h.station.setup.root.filter fun x => x ∉ h.own := by
  rw [Station.shutDown, if_pos hinit, hinstalled]
  refine List.filter_congr fun x hx => ?_
  simp only [ownAttached, List.mem_filter, hx, true_and, decide_eq_true_eq]

theorem Sound.shutDown (hs : h.Sound) : (h.perform .shutDown).Sound := by
  by_cases hactive : h.standing = .active
  · have hdescribes := hs.describes
    rw [hactive] at hdescribes
    obtain ⟨hinit, hinstalled, -⟩ := hdescribes
    have hroot : (h.perform .shutDown).station.setup.root = h.station.setup.root.filter fun x => x ∉ h.own :=
      root_shutDown_of_installed hinit hinstalled
    have hshut : (h.perform .shutDown).station.setup =
        { h.station.setup with
          root := (h.perform .shutDown).station.setup.root
          installed := []
          initialized := false
          logFile := none } := by
      simp only [perform, Station.shutDown, hinit, if_true]
    have hattached : (h.perform .shutDown).ownAttached = [] := by
      rw [ownAttached, hroot, List.filter_filter, List.filter_eq_nil_iff]
      intro x _ hboth
      rw [Bool.and_eq_true, decide_eq_true_eq, decide_eq_true_eq] at hboth
      exact hboth.2 hboth.1
    have hstanding : (h.perform .shutDown).standing = .idle := by
      simp only [perform, hactive, Standing.afterShutDown]
    refine ⟨?_, ?_, ?_⟩
    · rw [hroot, hshut]
      exact fun x hx => hs.root_older x (List.mem_filter.mp hx).1
    · rw [hshut]
      exact hs.own_older
    · rw [hstanding, hattached, hshut]
      exact ⟨rfl, rfl, rfl⟩
  · have hinit : ¬h.station.setup.initialized = true := fun hinit =>
      hactive (hs.describes.initialized_iff.mp hinit)
    have hsame : (h.perform .shutDown).station = h.station := if_neg hinit
    refine hs.of_setup_eq (congrArg Station.setup hsame) rfl ?_
    cases hstanding : h.standing with
    | idle => simp only [perform, hstanding, Standing.afterShutDown]
    | active => exact absurd hstanding hactive
    | stranded => simp only [perform, hstanding, Standing.afterShutDown]

/-- Handlers of others are no concern of a set-up. -/
theorem Sound.attach (hs : h.Sound) (sink : Sink) : (h.perform (.attach sink)).Sound := by
  have hforeign : (h.station.setup.attach sink).2 ∉ h.own := fun hown => Nat.lt_irrefl _ (hs.own_older _ hown)
  have hattached : (h.perform (.attach sink)).ownAttached = h.ownAttached := by
    have hroot : (h.perform (.attach sink)).ownAttached =
        (h.station.setup.root ++ [(h.station.setup.attach sink).2]).filter fun x => x ∈ h.own := rfl
    have hnone : [(h.station.setup.attach sink).2].filter (fun x => x ∈ h.own) = [] :=
      List.filter_cons_of_neg fun hown => hforeign (of_decide_eq_true hown)
    rw [hroot, List.filter_append, hnone, List.append_nil, ownAttached]
  refine ⟨?_, fun x hx => Nat.lt_succ_of_lt (hs.own_older x hx), ?_⟩
  · exact List.forall_mem_append.mpr
      ⟨fun x hx => Nat.lt_succ_of_lt (hs.root_older x hx), List.forall_mem_singleton.mpr (Nat.lt_succ_self _)⟩
  · rw [hattached]
    exact hs.describes.congr rfl rfl rfl

/-- **One event**: whatever happens, the setup stays as things stand. -/
theorem Sound.perform (hs : h.Sound) (event : Event) : (h.perform event).Sound := by
  cases event with
  | setUp now directory verbose => exact hs.setUp now directory verbose
  | shutDown => exact hs.shutDown
  | record now r => exact hs.of_setup_eq (Station.setup_log now h.station r) rfl rfl
  | attach sink => exact hs.attach sink
  | alter files => exact hs.of_setup_eq rfl rfl rfl

/-- **A whole history.** -/
theorem Sound.run (hs : h.Sound) (events : List Event) : (h.run events).Sound := by
  induction events generalizing h with
  | nil => exact hs
  | cons event rest ih => exact ih (hs.perform event)

/-- Logging is consistent exactly if things do not stand stranded. -/
theorem Sound.consistent_iff (hs : h.Sound) : h.Consistent ↔ h.standing ≠ .stranded := by
  have hdescribes := hs.describes
  constructor
  · intro hc hstranded
    rw [hstranded] at hdescribes
    obtain ⟨hinit, console, level, path, hattached, -⟩ := hdescribes
    cases hattached.symm.trans (hc.none hinit)
  · intro hne
    cases hstanding : h.standing with
    | idle =>
      rw [hstanding] at hdescribes
      obtain ⟨hinit, hpath, hattached⟩ := hdescribes
      refine ⟨by simp [hinit, hpath], by simp [hinit], fun _ => hattached, ?_⟩
      rw [ownAttached, List.filter_eq_nil_iff] at hattached
      rw [Station.shutDown, if_neg (by simp [hinit]), eq_comm, List.filter_eq_self]
      exact fun x hx => decide_eq_true fun hown => hattached x hx (decide_eq_true hown)
    | active =>
      rw [hstanding] at hdescribes
      obtain ⟨hinit, hinstalled, console, file, level, path, base, hattached, hconsole, hfile, hpath⟩ := hdescribes
      have hboth : ∃ console file level path base, h.ownAttached = [console, file] ∧ console.sink = .console level ∧
          file.sink = .file (path.absolute base) ∧ h.station.setup.logFile = some path :=
        ⟨console, file, level, path, base, hattached, hconsole, hfile, hpath⟩
      refine ⟨by simp [hinit, hpath], fun _ => hboth, by simp [hinit], root_shutDown_of_installed hinit hinstalled⟩
    | stranded => exact absurd hstanding hne

/-- **Over any history**, with any files and any handlers of others, the setup is as things stand, and so
logging is consistent unless the last set-up that made its directory could not open its log file. -/
theorem run_consistent_iff_not_stranded (files : Files.Tree) (console : Text) (frames : Record → Frames)
    (events : List Event) :
    let h := (begin files console frames).run events
    (h.Consistent ↔ h.standing ≠ .stranded) ∧ h.standing.Describes h.station.setup h.ownAttached :=
  have hs := (sound_begin files console frames).run events
  ⟨hs.consistent_iff, hs.describes⟩

/-- A set-up makes a directory where the log file of the next one is to be: the console handler of that one stays,
also after a shut-down. -/
theorem exists_run_inconsistent :
    let now : Moment := ⟨2024, 1, 2, 3, 4, 5⟩
    let logs := Files.FilePath.ofText "../nxdt_paths_logs"
    let logFile := Setup.logFileIn logs now
    let h := (begin ⟨["tmp", "work"], []⟩ [] fun _ => ⟨[], []⟩).run
      [.setUp now logFile false, .shutDown, .setUp now logs false, .shutDown]
    h.station.setup.initialized = false ∧ h.station.setup.logFile = some logFile ∧
      h.ownAttached = [⟨2, .console .info⟩] ∧ ¬h.Consistent := by
  intro now logs logFile h
  have hinit : h.station.setup.initialized = false := by decide +kernel
  have hpath : h.station.setup.logFile = some logFile := by decide +kernel
  have hattached : h.ownAttached = [⟨2, .console .info⟩] := by decide +kernel
  refine ⟨hinit, hpath, hattached, fun hc => ?_⟩
  cases hattached.symm.trans (hc.none hinit)

end History

end SafePath.Log
