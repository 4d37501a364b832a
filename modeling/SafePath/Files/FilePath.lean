import SafePath.Text.Basic

/-!
# File paths

A path as a list of parts.  Reading a path drops empty parts and single dots, so that `./a//b` is
`a/b` and nothing at all is `.`; a part `..` is kept.  A leading slash makes a path absolute; exactly
two of them are written apart from one.

`absolute` writes a path from the root.  It only rewrites: every `..` takes away the part in front of
it, whatever that part may be on a disk.
-/

namespace SafePath.Files

inductive Anchor
  | here
  | root
  | doubleRoot
deriving DecidableEq

/-- A path in parts, none of them empty or a single dot. -/
structure FilePath where
  anchor : Anchor
  parts : List Text
deriving DecidableEq

namespace FilePath

def anchorOf (t : Text) : Anchor :=
  if t.startsWith "///" then .root
  else if t.startsWith "//" then .doubleRoot
  else if t.startsWith "/" then .root
  else .here

/-- A written path. -/
def ofText (t : Text) : FilePath :=
  { anchor := anchorOf t
    parts := (t.splitWhere (·.is '/')).filter fun part => part ≠ [] ∧ part ≠ ("." : Text) }

def toText (p : FilePath) : Text :=
  let joined := Text.join "/" p.parts
  match p.anchor with
  | .here => if p.parts = [] then "." else joined
  | .root => "/" ++ joined
  | .doubleRoot => "//" ++ joined

def child (p : FilePath) (name : Text) : FilePath := { p with parts := p.parts ++ [name] }

def parent (p : FilePath) : FilePath := { p with parts := p.parts.dropLast }

/-- Parts from the root and one more; above the root there is nothing. -/
def walk (parts : List Text) (part : Text) : List Text :=
  if part = (".." : Text) then parts.dropLast else parts ++ [part]

/-- The path from the root, of a relative one behind `base`. -/
def absolute (base : List Text) (p : FilePath) : FilePath :=
  match p.anchor with
  | .here => { anchor := .root, parts := p.parts.foldl walk base }
  | anchor => { anchor := anchor, parts := p.parts.foldl walk [] }

end FilePath

end SafePath.Files
