import SafePath.Files.FilePath
import SafePath.Text.Quoted
import SafePath.Utf8.Escaped

/-!
# A tree of files

The files that a run sees and leaves behind, and the directory that it works in.  The operations are
the few that a run needs: to ask whether a path leads anywhere, to read a file, to make a directory
with its parents, and to append to a file.

A path is followed part by part, from the working directory or from the root.  A part of a file that
is not there, a part below something that is no directory, or a part with too many bytes ends it with
an error; `..` goes back to the directory before.  A path with too many bytes is not followed at all.
Parts are told apart by their bytes.
-/

namespace SafePath.Files

inductive Node
  | directory
  | file (content : Bytes)
deriving DecidableEq

/-- A place: the directories on the way to it from the root, and its own name. -/
abbrev Place := List Text

/-- The places with what stands there.  The working directory and those above it are always there. -/
structure Tree where
  workingDirectory : Place
  nodes : List (Place × Node)
deriving DecidableEq

/-- Why a file operation fails. -/
inductive Cause
  | notFound
  | fileExists
  | notDirectory
  | isDirectory
  | nameTooLong
deriving DecidableEq

inductive FileError
  | system (cause : Cause) (path : FilePath)
  | embeddedNul
  | unencodable (failure : Utf8.Strict.EncodeFailure)
deriving DecidableEq

def Cause.number : Cause → Nat
  | .notFound => 2
  | .fileExists => 17
  | .notDirectory => 20
  | .isDirectory => 21
  | .nameTooLong => 36

def Cause.phrase : Cause → Text
  | .notFound => "No such file or directory"
  | .fileExists => "File exists"
  | .notDirectory => "Not a directory"
  | .isDirectory => "Is a directory"
  | .nameTooLong => "File name too long"

def FileError.message : FileError → Text
  | .system cause path =>
    "[Errno " ++ Numeral.decimal cause.number ++ "] " ++ cause.phrase ++ ": " ++ path.toText.quoted
  | .embeddedNul => "embedded null byte"
  | .unencodable failure => failure.message

def partLimit : Nat := 255

def pathLimit : Nat := 4095

/-- The text has more bytes than that. -/
def exceeds (limit : Nat) (t : Text) : Bool :=
  match Utf8.Escaped.encode t with
  | .error _ => false
  | .ok data => decide (limit < data.length)

namespace Tree

def node? (tree : Tree) (place : Place) : Option Node :=
  if place.isPrefixOf tree.workingDirectory then some .directory
  else (tree.nodes.find? fun entry => entry.1 = place).map (·.2)

/-- The tree with `node` at a place. -/
def set (tree : Tree) (place : Place) (node : Node) : Tree :=
  { tree with
    nodes :=
      if tree.nodes.any fun entry => entry.1 = place then
        tree.nodes.map fun entry => if entry.1 = place then (place, node) else entry
      else tree.nodes ++ [(place, node)] }

/-- The place that parts lead to from a place, which has to be a directory on the way. -/
def follow (tree : Tree) (place : Place) : List Text → Except Cause Place
  | [] => .ok place
  | part :: rest =>
    match tree.node? place with
    | none => .error .notFound
    | some (.file _) => .error .notDirectory
    | some .directory =>
      if part = (".." : Text) then tree.follow place.dropLast rest
      else if exceeds partLimit part then .error .nameTooLong
      else tree.follow (place ++ [part]) rest

/-- The place that a path begins at. -/
def start (tree : Tree) (path : FilePath) : Place :=
  match path.anchor with
  | .here => tree.workingDirectory
  | .root | .doubleRoot => []

/-- The place that a path leads to. -/
def resolve (tree : Tree) (path : FilePath) : Except Cause Place :=
  if exceeds pathLimit path.toText then .error .nameTooLong
  else tree.follow (tree.start path) (path.parts.map Utf8.Escaped.normalise)

/-- The directory that the last part of a path is to stand in. -/
def resolveParent (tree : Tree) (path : FilePath) : Except Cause Place :=
  if exceeds pathLimit path.toText then .error .nameTooLong else tree.resolve path.parent

/-- A path that no file can have: it holds a NUL, or it has no bytes. -/
def unusable? (path : FilePath) : Option FileError :=
  match Utf8.Escaped.encode path.toText with
  | .error failure => some (.unencodable failure)
  | .ok data => if 0 ∈ data then some .embeddedNul else none

/-- A path leads to something.  One that is too long is an error, one that no file can have leads nowhere. -/
def isThere (tree : Tree) (path : FilePath) : Except FileError Bool :=
  match unusable? path with
  | some _ => .ok false
  | none =>
    match tree.resolve path with
    | .error .nameTooLong => .error (.system .nameTooLong path)
    | .error _ => .ok false
    | .ok place => .ok (tree.node? place).isSome

def read (tree : Tree) (path : FilePath) : Except FileError Bytes :=
  match unusable? path with
  | some error => .error error
  | none =>
    match tree.resolve path with
    | .error cause => .error (.system cause path)
    | .ok place =>
      match tree.node? place with
      | none => .error (.system .notFound path)
      | some .directory => .error (.system .isDirectory path)
      | some (.file content) => .ok content

def isDirectory (tree : Tree) (path : FilePath) : Bool :=
  match tree.resolve path with
  | .ok place => decide (tree.node? place = some .directory)
  | .error _ => false

/-- One new directory, whose parent has to be there. -/
def makeDirectory (tree : Tree) (path : FilePath) : Except Cause Tree :=
  match path.parts.getLast? with
  | none => .error .fileExists
  | some last =>
    match tree.resolveParent path with
    | .error cause => .error cause
    | .ok parent =>
      match tree.node? parent with
      | none => .error .notFound
      | some (.file _) => .error .notDirectory
      | some .directory =>
        if last = (".." : Text) then .error .fileExists
        else if exceeds partLimit last then .error .nameTooLong
        else
          let place := parent ++ [Utf8.Escaped.normalise last]
          match tree.node? place with
          | some _ => .error .fileExists
          | none => .ok (tree.set place .directory)

/-- One new directory, unless there is one already. -/
def ensureDirectory (tree : Tree) (path : FilePath) : Except FileError Tree :=
  match tree.makeDirectory path with
  | .ok made => .ok made
  | .error cause => if tree.isDirectory path then .ok tree else .error (.system cause path)

/-- A directory with all its parents, of which the first `n` parts of the path have been tried.  What
was made before an error stays. -/
def makeParents (tree : Tree) (path : FilePath) : Nat → Except FileError Unit × Tree
  | 0 =>
    match tree.ensureDirectory path with
    | .ok made => (.ok (), made)
    | .error error => (.error error, tree)
  | n + 1 =>
    match tree.makeDirectory path with
    | .ok made => (.ok (), made)
    | .error .notFound =>
      match tree.makeParents path.parent n with
      | (.error error, made) => (.error error, made)
      | (.ok (), made) =>
        match made.ensureDirectory path with
        | .ok made' => (.ok (), made')
        | .error error => (.error error, made)
    | .error cause =>
      if tree.isDirectory path then (.ok (), tree) else (.error (.system cause path), tree)

/-- A directory with all its parents, unless it is there already. -/
def makeDirectories (tree : Tree) (path : FilePath) : Except FileError Unit × Tree :=
  match unusable? path with
  | some error => (.error error, tree)
  | none => tree.makeParents path path.parts.length

/-- Bytes at the end of a file, which is made if it is not there. -/
def append (tree : Tree) (path : FilePath) (data : Bytes) : Except FileError Tree :=
  match unusable? path with
  | some error => .error error
  | none =>
    match tree.resolve path with
    | .error cause => .error (.system cause path)
    | .ok place =>
      match tree.node? place with
      | some .directory => .error (.system .isDirectory path)
      | some (.file content) => .ok (tree.set place (.file (content ++ data)))
      | none =>
        match tree.node? place.dropLast with
        | some .directory => .ok (tree.set place (.file data))
        | _ => .error (.system .notFound path)

end Tree

end SafePath.Files
