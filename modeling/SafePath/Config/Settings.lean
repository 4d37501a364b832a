import SafePath.Config.LimitSettings

/-!
# Settings of a run

A setting is an explicit argument, or else the value of an environment variable, or else the usual
value.  An environment file, if there is one, is loaded into the environment first.  An empty prefix
or extension variable counts as absent.
-/

namespace SafePath.Config

inductive ConfigFault
  | loading (fault : LoadFault)
  | limits (fault : LimitsFault)
  | extensionWithoutDot (extension : Text)
  | separatorInExtension (separator extension : Text)

def ConfigFault.message : ConfigFault → Text
  | .loading fault => fault.message
  | .limits fault => fault.message
  | .extensionWithoutDot extension => "Extension must start with '.': " ++ extension.quoted
  | .separatorInExtension separator extension =>
    "Extension must not contain " ++ separator.quoted ++ ": " ++ extension.quoted

structure Settings where
  outputPrefix : Option Text
  extension : Option Text
  asciiOnly : Bool
  verbose : Bool
  logDirectory : Files.FilePath

structure Overrides where
  outputPrefix : Option Text
  extension : Option Text
  asciiOnly : Option Bool
  verbose : Option Bool

namespace Settings

/-- The directory of log files unless another one is set. -/
def usualLogDirectory : Text := "logs"

/-- Settings with nothing set but perhaps an extension. -/
def withExtension (extension : Option Text) : Settings :=
  { outputPrefix := none
    extension := extension
    asciiOnly := false
    verbose := false
    logDirectory := Files.FilePath.ofText usualLogDirectory }

/-- The words that switch a flag on, in any case. -/
def flagWords : List Text := ["true", "1", "yes", "on"]

/-- A variable switches a flag on. -/
def flag (env : Environment) (name : Text) : Bool :=
  match env.get? name with
  | none => false
  | some value => flagWords.contains value.asciiLower

def nonEmpty? (env : Environment) (name : Text) : Option Text :=
  (env.get? name).filter fun value => value ≠ []

def ofEnvironment (env : Environment) : Settings :=
  { outputPrefix := nonEmpty? env "OUTPUT_PREFIX"
    extension := nonEmpty? env "OUTPUT_EXTENSION"
    asciiOnly := flag env "ASCII_ONLY"
    verbose := flag env "VERBOSE"
    logDirectory := Files.FilePath.ofText ((env.get? "LOG_DIR").getD usualLogDirectory) }

/-- The settings with explicit ones in their place. -/
def override (given : Overrides) (settings : Settings) : Settings :=
  { settings with
    outputPrefix := given.outputPrefix.or settings.outputPrefix
    extension := given.extension.or settings.extension
    asciiOnly := given.asciiOnly.getD settings.asciiOnly
    verbose := given.verbose.getD settings.verbose }

/-- An extension has to begin with a dot and must not hold the separator. -/
def validate (separator : Text) (settings : Settings) : Except ConfigFault Unit :=
  match settings.extension with
  | none => .ok ()
  | some extension =>
    if !extension.startsWith "." then .error (.extensionWithoutDot extension)
    else if Text.contains separator extension then .error (.separatorInExtension separator extension)
    else .ok ()

end Settings

/-- The environment file unless another one is named. -/
def usualEnvFile (files : Files.Tree) : Files.FilePath :=
  { anchor := .root, parts := files.workingDirectory ++ [(".env" : Text)] }

/-- Settings, the environment they leave behind, and the records made on the way. -/
structure Loaded where
  settings : Except ConfigFault Settings
  environment : Environment
  records : List Log.Record

/-- The settings of a run, read from explicit arguments, the environment and an environment file. -/
def loadSettings (load : EnvLoader) (files : Files.Tree) (path : Files.FilePath) (env : Environment)
    (given : Overrides) : Loaded :=
  let completed := loadEnvFile load files path env
  { settings :=
      match completed.outcome with
      | .ok () => .ok ((Settings.ofEnvironment completed.environment).override given)
      | .error fault => .error (.loading fault)
    environment := completed.environment
    records := completed.records }

end SafePath.Config
