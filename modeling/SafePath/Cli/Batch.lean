import SafePath.Config.Settings
import SafePath.Log.Progress
import SafePath.Path.Parts

/-!
# Handling a batch of names

Every name gets its path, or the error that it has none; one name's error does not keep the next one
from being handled.  Paths are put out as lines, in the order of the names.  Only a fault that is no
path error would end the batch.
-/

namespace SafePath.Cli

/-- What a batch of names is built with. -/
structure BatchSettings where
  leading : Option Text
  extension : Option Text
  asciiOnly : Bool
  limits : Limits

structure Failure where
  name : Text
  reason : Text
deriving DecidableEq

def pathText : Name → Text
  | .text t => t
  | .bytes b => Utf8.Escaped.decode b

/-- The path of one name, with the records of the functions that build it. -/
def buildPath (settings : BatchSettings) (name : Text) (p : Log.Progress) : Except Fault Text × Log.Progress :=
  let built :=
    pathOfRawName (.text name) (settings.leading.map .text) (settings.extension.map .text)
      settings.asciiOnly settings.limits
  (built.result.map pathText, { p with journal := p.journal.append built.records })

def reportPath (name path : Text) (p : Log.Progress) : Log.Progress :=
  let p := p.log .debug ("[SUCCESS] " ++ name.quoted ++ " -> " ++ path.quoted)
  { p with journal := p.journal.put (.line path) }

def reportFailure (failure : Failure) (p : Log.Progress) : Log.Progress :=
  p.log .error ("[FAILED] " ++ failure.name.quoted ++ ": " ++ failure.reason)

/-- The names in order: those without a path, or the fault that ended the batch. -/
def handleNames (settings : BatchSettings) (p : Log.Progress) :
    List Text → Except Fault (List Failure) × Log.Progress
  | [] => (.ok [], p)
  | name :: rest =>
    match p.within Fault.message .name name (buildPath settings name) with
    | (.ok path, p) => handleNames settings (reportPath name path p) rest
    | (.error (.path error), p) =>
      let failure : Failure := ⟨name, error.message⟩
      let (failures, p) := handleNames settings (reportFailure failure p) rest
      (failures.map (failure :: ·), p)
    | (.error fault, p) => (.error fault, p)

/-- The names without a path, listed after the summary. -/
def listFailures (failures : List Failure) (p : Log.Progress) : Log.Progress :=
  if failures = [] then p
  else
    failures.foldl
      (fun p failure => p.log .info ("  - " ++ failure.name.quoted ++ ": " ++ failure.reason))
      (p.log .info "Failed names:")

/-- A batch from its first record to its last: the names without a path, or the fault that ended it. -/
def runBatch (settings : BatchSettings) (memory : Log.MemoryUse) (names : List Text) (j : Log.Journal) :
    Except Fault (List Failure) × Log.Progress :=
  match (Log.Progress.start j).within Fault.message .operation "generate paths"
      (fun p => handleNames settings p names) with
  | (.error fault, p) => (.error fault, p)
  | (.ok failures, p) => (.ok failures, listFailures failures (p.reportMemory memory.reading).summarize)

/-- The exit status of a batch: zero if every name has a path. -/
def batchStatus (failures : List Failure) : Nat := if failures = [] then 0 else 1

end SafePath.Cli
