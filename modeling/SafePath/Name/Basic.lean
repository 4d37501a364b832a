import SafePath.Path.Fault
import SafePath.Utf8.Strict

/-!
# Names

A raw name is given as text or as bytes.  Work on a name is work on its bytes; the result comes back
in the form of the name it was made from.
-/

namespace SafePath

/-- A raw name, as text or as bytes. -/
inductive Name
  | text (t : Text)
  | bytes (b : Bytes)
deriving DecidableEq

inductive Fault
  | path (error : PathFault)
  | undecodable (failure : Utf8.Strict.DecodeFailure)
  /-- Neither text nor bytes was given, but a value of this kind. -/
  | notAName (kind : String)
deriving DecidableEq

def Fault.message : Fault → Text
  | .path error => error.message
  | .undecodable failure => failure.message
  | .notAName kind => "Expected str or bytes, got " ++ Text.ofString kind

namespace Name

/-- The bytes of a name; a surrogate in text keeps its three bytes, which no reader accepts. -/
def toBytes : Name → Bytes
  | .text t => t.encode
  | .bytes b => b

def isEmpty : Name → Bool
  | .text t => t.isEmpty
  | .bytes b => b.isEmpty

/-- `data` in the form that `form` has: for text, it has to be UTF-8. -/
def withBytes (form : Name) (data : Bytes) : Except Fault Name :=
  match form with
  | .text _ =>
    match Utf8.Strict.decode data with
    | .ok t => .ok (.text t)
    | .error failure => .error (.undecodable failure)
  | .bytes _ => .ok (.bytes data)

end Name

end SafePath
