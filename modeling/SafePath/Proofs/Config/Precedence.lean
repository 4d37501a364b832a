import SafePath.Config.Settings
import SafePath.Proofs.Config.Limits

/-!
# Which source a setting comes from

A loader of environment files is known by what it is to do, which is its contract for one file
(`EnvLoader.Adds`): a variable that is set keeps its value, and one that is not takes the last value that the
file assigns.  If there is no file, nothing is assigned.  Either way

    (loadEnvFile load files path env).environment.get? name =
      (env.get? name).or (lastValue assigned name)      (FileAssigns.get?_loadEnvFile)

Settings and limits depend on an environment only through the values of its variables, so each has its sources
from this equation.  A variable that the file assigns has a value afterwards, so loading once more adds nothing.
-/

namespace SafePath.Config

/-! ## Loading a file -/

/-- The last value that assignments give to a variable. -/
def lastValue (assigned : List (Text × Text)) (name : Text) : Option Text :=
  ((assigned.filter fun entry => entry.1 = name).getLast?).map (·.2)

/-- The contract of a loader for one file: to whatever environment, it adds the last value of each variable that is
not there yet, and it keeps the others. -/
structure EnvLoader.Adds (load : EnvLoader) (files : Files.Tree) (path : Files.FilePath)
    (assigned : List (Text × Text)) : Prop where
  outcome : ∀ env, (load files path env).outcome = .ok ()
  get? : ∀ env name, (load files path env).environment.get? name = (env.get? name).or (lastValue assigned name)

/-- What the environment file at a path assigns: nothing if there is none. -/
inductive FileAssigns (load : EnvLoader) (files : Files.Tree) (path : Files.FilePath) : List (Text × Text) → Prop
  | absent (hfile : files.isThere path = .ok false) : FileAssigns load files path []
  | loaded {assigned : List (Text × Text)} (hfile : files.isThere path = .ok true)
      (hadds : load.Adds files path assigned) : FileAssigns load files path assigned

section
variable {load : EnvLoader} {files : Files.Tree} {path : Files.FilePath} {assigned : List (Text × Text)}

/-- **What is set stays, and the rest comes from the file.** -/
theorem FileAssigns.get?_loadEnvFile (h : FileAssigns load files path assigned) (env : Environment) :
    (loadEnvFile load files path env).outcome = .ok () ∧
      ∀ name, (loadEnvFile load files path env).environment.get? name =
        (env.get? name).or (lastValue assigned name) := by
  cases h with
  | absent hfile =>
    simp only [loadEnvFile, hfile, true_and]
    exact fun name => Option.or_none.symm
  | loaded hfile hadds =>
    simp only [loadEnvFile, hfile]
    exact ⟨hadds.outcome env, hadds.get? env⟩

end

/-! ## Settings and limits -/

section
variable {env env' : Environment} (h : ∀ name, env'.get? name = env.get? name)

include h

theorem Settings.ofEnvironment_congr : ofEnvironment env' = ofEnvironment env := by
  simp only [ofEnvironment, nonEmpty?, flag, h]

theorem limitsOf_congr : limitsOf env' = limitsOf env := by
  simp only [limitsOf, limitSettings, numberSetting, h]

end

/-- Settings of which each comes from its own argument, or else from its own variable. -/
structure Settings.ComesFrom (given : Overrides) (source : Text → Option Text) (settings : Settings) : Prop where
  outputPrefix : settings.outputPrefix = given.outputPrefix.or ((source "OUTPUT_PREFIX").filter (· ≠ []))
  extension : settings.extension = given.extension.or ((source "OUTPUT_EXTENSION").filter (· ≠ []))
  asciiOnly : settings.asciiOnly =
    given.asciiOnly.getD ((source "ASCII_ONLY").any fun value => flagWords.contains value.asciiLower)
  verbose : settings.verbose =
    given.verbose.getD ((source "VERBOSE").any fun value => flagWords.contains value.asciiLower)
  logDirectory : settings.logDirectory = Files.FilePath.ofText ((source "LOG_DIR").getD usualLogDirectory)

theorem Settings.flag_eq (env : Environment) (name : Text) :
    flag env name = (env.get? name).any fun value => flagWords.contains value.asciiLower := by
  unfold flag
  cases env.get? name <;> rfl

theorem Settings.comesFrom_override (given : Overrides) {env : Environment} {source : Text → Option Text}
    (hget : ∀ name, env.get? name = source name) : ((ofEnvironment env).override given).ComesFrom given source := by
  constructor <;> simp only [override, ofEnvironment, nonEmpty?, flag_eq, hget]

section
variable {load : EnvLoader} {files : Files.Tree} {path : Files.FilePath} {assigned : List (Text × Text)}

theorem settings_loadSettings {env : Environment} (given : Overrides)
    (h : (loadEnvFile load files path env).outcome = .ok ()) :
    (loadSettings load files path env given).settings =
      .ok ((Settings.ofEnvironment (loadEnvFile load files path env).environment).override given) := by
  simp only [loadSettings, h]

end

/-! ## A loader -/

/-- A loader that knows what files assign. -/
def EnvLoader.ofAssigned (assigned : List (Text × Text)) : EnvLoader := fun _ _ env =>
  { outcome := .ok (), environment := env ++ assigned.reverse, records := [] }

theorem Environment.get?_append (env more : Environment) (name : Text) :
    (env ++ more).get? name = (env.get? name).or (more.get? name) := by
  rw [get?, List.find?_append, Option.map_or]
  rfl

theorem lastValue_eq (assigned : List (Text × Text)) (name : Text) :
    lastValue assigned name = Environment.get? assigned.reverse name := by
  rw [lastValue, List.getLast?_eq_head?_reverse, ← List.filter_reverse, List.head?_filter]
  rfl

theorem EnvLoader.adds_ofAssigned (assigned : List (Text × Text)) (files : Files.Tree) (path : Files.FilePath) :
    (ofAssigned assigned).Adds files path assigned where
  outcome _ := rfl
  get? env name := by
    rw [lastValue_eq]
    exact env.get?_append assigned.reverse name

end SafePath.Config
