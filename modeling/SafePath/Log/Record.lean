import SafePath.Text.Basic

/-!
# Log records

A record is what one part of the program reports, with a level.  Nothing writes a record where it
arises: functions return their records in order beside their result, and the caller hands them on.
-/

namespace SafePath.Log

inductive Level
  | debug
  | info
  | warning
  | error
  | critical
deriving DecidableEq

/-- The place of a level in the order of gravity. -/
def Level.rank : Level → Nat
  | .debug => 10
  | .info => 20
  | .warning => 30
  | .error => 40
  | .critical => 50

def Level.name : Level → String
  | .debug => "DEBUG"
  | .info => "INFO"
  | .warning => "WARNING"
  | .error => "ERROR"
  | .critical => "CRITICAL"

/-- The source that a name stands for; the empty name stands for the root of all sources. -/
def sourceNamed (name : Text) : Text := if name = [] then "root" else name

/-- A message of one source. -/
structure Record where
  level : Level
  source : Text
  message : Text
deriving DecidableEq

/-- A result and the records that were made on the way to it. -/
structure Logged (α : Type) where
  result : α
  records : List Record

end SafePath.Log
