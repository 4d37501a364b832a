import SafePath.Config.Environment
import SafePath.Log.Record
import SafePath.Number.Literal
import SafePath.Path.Limits

/-!
# Limits from the environment

Each limit has a variable.  A number is any integer literal; text that is none is reported and leaves
the limit as it is.  Whether the values can be used is decided when the limits are made from them.
-/

namespace SafePath.Config

structure LimitSettings where
  maxComponent : Int
  maxPath : Int
  separator : Text

def limitSource : Text := "nxdt_paths.infrastructure.config.path_config"

/-- The report of a value that is no integer literal. -/
def ignoredRecord (name value : Text) : Log.Record :=
  { level := .warning
    source := limitSource
    message := "Ignoring invalid " ++ name ++ " value: " ++ value.quoted }

def maxComponentVariable : Text := "NXDT_MAX_COMPONENT_BYTES"

def maxPathVariable : Text := "NXDT_MAX_PATH_BYTES"

def separatorVariable : Text := "NXDT_PATH_SEPARATOR"

/-- A number from its variable, or the usual one, with a report if the variable holds no number. -/
def numberSetting (env : Environment) (name : Text) (usual : Int) : Log.Logged Int :=
  match env.get? name with
  | none => { result := usual, records := [] }
  | some value =>
    match Literal.parse? value with
    | some n => { result := n, records := [] }
    | none => { result := usual, records := [ignoredRecord name value] }

def limitSettings (env : Environment) : Log.Logged LimitSettings :=
  let component := numberSetting env maxComponentVariable Limits.defaultMaxComponent
  let path := numberSetting env maxPathVariable Limits.defaultMaxPath
  { result :=
      { maxComponent := component.result
        maxPath := path.result
        separator := (env.get? separatorVariable).getD Limits.defaultSeparator }
    records := component.records ++ path.records }

/-- The limits of the environment. -/
def limitsOf (env : Environment) : Log.Logged (Except LimitsFault Limits) :=
  let settings := limitSettings env
  { result :=
      Limits.make settings.result.maxComponent settings.result.maxPath settings.result.separator
    records := settings.records }

end SafePath.Config
