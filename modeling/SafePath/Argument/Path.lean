import SafePath.Argument.Raised
import SafePath.Argument.Limits
import SafePath.Path.Parts

/-!
# Paths from untyped arguments

The parts of a path and its limits, given as any values.  An empty file name of any kind is refused
first; then each part has to be text or bytes, file name before directory before extension.

Where both limits are whole numbers, the path is the one of the typed parts, and an error carries the
limit as it was given.  A measured limit bounds counts like a whole one.  But a component can be cut
only at a whole number, and a length can be shown only if it is one: where the limit itself is to be
the place of a cut, or to be shown, there is no path and no error about it, but a misuse.
-/

namespace SafePath

namespace CallFault

def ofFault (limits : LooseLimits) : Fault → CallFault
  | .path (.extensionTooLong extensionLength boundary) =>
    let given :=
      if limits.maxComponent.toInt? = some boundary then limits.maxComponent else .integer boundary
    ofRaised (Raised.extensionTooLong (.integer extensionLength) given)
  | .path (.pathTooLong length _) => ofRaised (Raised.pathTooLong (.integer length) limits.maxPath)
  | .path error => .raised (Raised.ofFault error)
  | other => .fault other

end CallFault

namespace LooseLimits

/-- The path of the joined parts: cut to the limits and then checked for its length. -/
def fit (limits : LooseLimits) (extension buffer : Bytes) : Log.Logged (Except CallFault Bytes) :=
  let (cuts, result) :=
    Path.cutComponents limits.separator.val (limits.budgetWithin buffer.length) extension buffer
  let made := cuts.takeWhile fun cut => !limits.isBetweenPlaces cut.after
  let records := made.map Path.Cut.record
  if made.length < cuts.length then { result := .error (.misuse .cutBetweenPlaces), records := records }
  else
    match result with
    | .error reason =>
      if limits.isBetweenPlaces reason.boundary then
        { result := .error (.misuse (.notHexadecimal limits.maxComponent.kind)), records := records }
      else
        let error := PathFault.extensionTooLong reason.extensionLength reason.boundary
        { result := .error (CallFault.ofFault limits (.path error))
          records := records ++ [Path.record .error error.message] }
    | .ok path =>
      if limits.isReached path.length then
        { result := .error (.ofRaised (Raised.pathTooLong (.integer path.length) limits.maxPath))
          records := records ++ [Path.tooLongRecord path.length] }
      else { result := .ok path, records := records }

/-- The path of three byte strings, of which the second is not empty. -/
def pathOfBytes (limits : LooseLimits) (leading file extension : Bytes) :
    Log.Logged (Except CallFault Bytes) :=
  match Path.join limits.separator.val leading file extension with
  | .error (error, report) => { result := .error (.raised (Raised.ofFault error)), records := [report] }
  | .ok buffer => limits.fit extension buffer

/-- The path of a file name that is not empty. -/
def pathOfParts (limits : LooseLimits) (leading : Option Name) (file : Name) (extension : Option Name) :
    Log.Logged (Except CallFault Name) :=
  match limits.toLimits? with
  | some exact =>
    let outcome := SafePath.pathOfParts leading file extension exact
    { result := outcome.result.mapError (CallFault.ofFault limits), records := outcome.records }
  | none =>
    let outcome :=
      limits.pathOfBytes (Path.partBytes leading) file.toBytes (Path.partBytes extension)
    { result :=
        match outcome.result with
        | .ok path => (file.withBytes path).mapError .fault
        | .error fault => .error fault
      records := outcome.records }

end LooseLimits

namespace Argument

/-- The path of values that should be the parts of a path. -/
def pathOfParts (leading file extension : Argument) (limits : LooseLimits) :
    Log.Logged (Except CallFault Name) :=
  if file.isEmpty then
    { result := .error (.raised (Raised.ofFault (.invalidParts .emptyName)))
      records := [Path.partFaultRecord .emptyName] }
  else
    match file.toName, leading.toPart, extension.toPart with
    | .error fault, _, _ => { result := .error (.fault fault), records := [] }
    | .ok _, .error fault, _ => { result := .error (.fault fault), records := [] }
    | .ok _, .ok _, .error fault => { result := .error (.fault fault), records := [] }
    | .ok f, .ok l, .ok e => limits.pathOfParts l f e

/-- The path of a value that should be a raw name. -/
def pathOfRawName (raw leading extension : Argument) (asciiOnly : Bool) (limits : LooseLimits) :
    Log.Logged (Except CallFault Name) :=
  match raw.toName with
  | .error fault => { result := .error (.fault fault), records := [] }
  | .ok name =>
    let sanitized := name.trim.sanitize asciiOnly
    match sanitized.result with
    | .error fault => { result := .error (.fault fault), records := sanitized.records }
    | .ok file =>
      let path := pathOfParts leading (ofName file) extension limits
      { result := path.result, records := sanitized.records ++ path.records }

end Argument

end SafePath
