import SafePath.Name.Sanitize
import SafePath.Path.Cascade
import SafePath.Path.Limits

/-!
# Building a path from its parts

A path is an optional leading directory, a file name and an optional extension.  The parts are
checked and joined, every component is cut to the limit, and the length of the whole is checked.

Faults have an order: an empty file name, then a NUL byte in any part, then a separator in the
extension, then malformed UTF-8 in the joined path, then an extension without room, then the length.
Every fault is reported once, as the last record.

A raw name is trimmed and sanitized first, and is then the file name of the path.
-/

namespace SafePath

namespace Path

def partsSource : Text := "nxdt_paths.core.path_synthesizer"

/-- The bytes of an optional part; an absent part and an empty one are the same. -/
def partBytes (part : Option Name) : Bytes := (part.map Name.toBytes).getD []

/-- The parts in one buffer, a separator between directory and file name unless one is there. -/
def assemble (separator : UInt8) (leading file extension : Bytes) : Bytes :=
  (if leading = [] ∨ leading.getLast? = some separator then leading else leading ++ [separator])
    ++ file ++ extension

/-- What is wrong with the parts, taken for themselves. -/
def partFault? (separator : UInt8) (leading file extension : Bytes) : Option PartFault :=
  if 0 ∈ leading ∨ 0 ∈ file ∨ 0 ∈ extension then some .embeddedNul
  else if separator ∈ extension then some (.separatorInExtension (Limits.textOfSeparator separator))
  else none

def record (level : Log.Level) (message : Text) : Log.Record :=
  { level := level, source := partsSource, message := message }

def Cut.record (c : Cut) : Log.Record :=
  Path.record .debug
    ("Truncated path element at offset " ++ Numeral.decimal c.offset ++ ": "
      ++ Numeral.decimal c.before ++ " -> " ++ Numeral.decimal c.after ++ " bytes")

def partFaultRecord (fault : PartFault) : Log.Record :=
  Path.record .error
    ("Invalid parameters: " ++
      (match fault with
      | .emptyName => ("empty file name" : Text)
      | .embeddedNul => "embedded NUL byte"
      | .separatorInExtension separator => "extension contains " ++ separator.quoted
      | .other message => message))

/-- The parts in one buffer; or what is wrong with them, and its report. -/
def join (separator : UInt8) (leading file extension : Bytes) :
    Except (PathFault × Log.Record) Bytes :=
  match partFault? separator leading file extension with
  | some fault => .error (.invalidParts fault, partFaultRecord fault)
  | none =>
    let buffer := assemble separator leading file extension
    match Utf8.malformedAt buffer with
    | some offset =>
      let error := PathFault.malformed offset []
      .error (error, record .error ("Failed to generate path: " ++ error.message))
    | none => .ok buffer

def tooLongRecord (length : Nat) : Log.Record :=
  record .error
    ("Generated path length is >= maximum path length (" ++ shownLength length ++ ")")

/-- The path of the joined parts: cut to the limits and then checked for its length. -/
def fit (limits : Limits) (extension buffer : Bytes) : Log.Logged (Except PathFault Bytes) :=
  match cutComponents limits.separator limits.maxComponent extension buffer with
  | (cuts, .error reason) =>
    let error := PathFault.extensionTooLong reason.extensionLength reason.boundary
    { result := .error error
      records := cuts.map Cut.record ++ [record .error error.message] }
  | (cuts, .ok path) =>
    if limits.maxPath ≤ path.length then
      { result := .error (.pathTooLong path.length limits.maxPath)
        records := cuts.map Cut.record ++ [tooLongRecord path.length] }
    else { result := .ok path, records := cuts.map Cut.record }

/-- The path of three byte strings, of which the second is not empty. -/
def pathOfBytes (limits : Limits) (leading file extension : Bytes) :
    Log.Logged (Except PathFault Bytes) :=
  match join limits.separator leading file extension with
  | .error (error, report) => { result := .error error, records := [report] }
  | .ok buffer => fit limits extension buffer

end Path

/-- The path of a file name in an optional directory with an optional extension, in the form of the
file name. -/
def pathOfParts (leading : Option Name) (file : Name) (extension : Option Name) (limits : Limits) :
    Log.Logged (Except Fault Name) :=
  if file.isEmpty then
    { result := .error (.path (.invalidParts .emptyName))
      records := [Path.partFaultRecord .emptyName] }
  else
    let outcome :=
      Path.pathOfBytes limits (Path.partBytes leading) file.toBytes (Path.partBytes extension)
    { result :=
        match outcome.result with
        | .ok path => file.withBytes path
        | .error error => .error (.path error)
      records := outcome.records }

/-- The path of a raw name. -/
def pathOfRawName (raw : Name) (leading : Option Name) (extension : Option Name) (asciiOnly : Bool)
    (limits : Limits) : Log.Logged (Except Fault Name) :=
  let sanitized := raw.trim.sanitize asciiOnly
  match sanitized.result with
  | .error fault => { result := .error fault, records := sanitized.records }
  | .ok file =>
    let path := pathOfParts leading file extension limits
    { result := path.result, records := sanitized.records ++ path.records }

end SafePath
