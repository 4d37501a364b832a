import SafePath.Files.Tree
import SafePath.Log.Record

/-!
# Environment variables

The variables of a run, each with one value.  An environment file may add to them.  How such a file is
written is no concern of this library, which has it loaded by an `EnvLoader` from outside; it decides
whether there is a file to load at all, and what follows if that cannot be done.
-/

namespace SafePath.Config

/-- Variables with their values, the first of each variable. -/
abbrev Environment := List (Text × Text)

def Environment.get? (env : Environment) (name : Text) : Option Text :=
  (env.find? fun entry => entry.1 = name).map (·.2)

inductive LoadFault
  /-- It cannot be told whether there is one, or it cannot be opened. -/
  | file (error : Files.FileError)
  | undecodable (failure : Utf8.Strict.DecodeFailure)
  | illegalVariable (reason : Text)

def LoadFault.message : LoadFault → Text
  | .file error => error.message
  | .undecodable failure => failure.message
  | .illegalVariable reason => reason

/-- An environment after an attempt to load a file into it, with the records of the attempt. -/
structure Completed where
  outcome : Except LoadFault Unit
  environment : Environment
  records : List Log.Record

/-- What loads the file at a path into an environment. -/
abbrev EnvLoader := Files.Tree → Files.FilePath → Environment → Completed

/-- The environment with an environment file loaded into it, if there is one at the path.  A path that is
too long is a fault. -/
def loadEnvFile (load : EnvLoader) (files : Files.Tree) (path : Files.FilePath) (env : Environment) :
    Completed :=
  match files.isThere path with
  | .error error => { outcome := .error (.file error), environment := env, records := [] }
  | .ok false => { outcome := .ok (), environment := env, records := [] }
  | .ok true => load files path env

end SafePath.Config
