import SafePath.Argument.Message
import SafePath.Argument.Scan
import SafePath.Config.Settings
import SafePath.Log.Progress

/-!
# Settings and labels from an untyped caller

Explicit settings given as any values.  They are kept as they were given; only the validation looks at
an extension, which then has to be a text, and at a separator, which has to be one if an extension is
searched for it.

A block of work may be called by any value, and a reading of the memory in use may be any value: a text
is the reason why there is none.
-/

namespace SafePath

/-- Settings of any kind; an absent one is not set. -/
structure LooseSettings where
  outputPrefix : Argument
  extension : Argument
  asciiOnly : Argument
  verbose : Argument

inductive LooseSettingsFault
  | misuse (misuse : Misuse)
  | config (fault : Config.ConfigFault)

namespace LooseSettings

def names : List String := ["output_prefix", "extension", "ascii_only", "verbose", "env_path"]

/-- The first of some names by which there is no explicit setting. -/
def unexpected? (given : List String) : Option Misuse :=
  (given.find? fun name => !names.contains name).map (.unexpected "Config.from_args")

/-- The value, or else the other one. -/
def given (value usual : Argument) : Argument :=
  match value with
  | .absent => usual
  | other => other

def ofText? : Option Text → Argument
  | none => .absent
  | some t => .text t

def ofSettings (settings : Config.Settings) : LooseSettings :=
  { outputPrefix := ofText? settings.outputPrefix
    extension := ofText? settings.extension
    asciiOnly := .flag settings.asciiOnly
    verbose := .flag settings.verbose }

/-- The settings with explicit ones in their place. -/
def override (explicit settings : LooseSettings) : LooseSettings :=
  { outputPrefix := given explicit.outputPrefix settings.outputPrefix
    extension := given explicit.extension settings.extension
    asciiOnly := given explicit.asciiOnly settings.asciiOnly
    verbose := given explicit.verbose settings.verbose }

/-- An extension has to begin with a dot and must not hold the separator. -/
def validate (separator : Argument) (settings : LooseSettings) : Except LooseSettingsFault Unit :=
  match settings.extension, separator with
  | .absent, _ => .ok ()
  | .text e, .text s => ((Config.Settings.withExtension (some e)).validate s).mapError .config
  | .text e, other =>
    if e.startsWith "." then .error (.misuse (.notInText other.kind))
    else .error (.config (.extensionWithoutDot e))
  | .bytes _, _ => .error (.misuse .beginsWithText)
  | .buffer _, _ => .error (.misuse .beginsWithText)
  | other, _ => .error (.misuse (.withoutMember other.kind "startswith"))

end LooseSettings

namespace Argument

def label (a : Argument) : Log.Label :=
  { plain := a.asMessage
    literal := a.literal
    length := (a.parts.map List.length).mapError fun _ => a.kind }

/-- The value as a reading of the memory in use. -/
def memoryReading (a : Argument) : Log.MemoryReading :=
  match a, a.quantity? with
  | .text reason, _ => .failed reason
  | _, some q => .bytes q
  | other, none => .notANumber other.kind

end Argument

end SafePath
