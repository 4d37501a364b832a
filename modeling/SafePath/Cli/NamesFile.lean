import SafePath.Files.Tree
import SafePath.Log.Journal
import SafePath.Text.Blank
import SafePath.Text.Lines

/-!
# Names files

One name a line.  Blank lines and lines whose first non-blank character is `#` are no names; every
other line is a name as it stands, with its blanks.  Bytes that are no text are kept as escaped bytes.
-/

namespace SafePath.Cli

def isNameLine (line : Text) : Bool :=
  !line.isAllBlank && !(line.dropWhile CodePoint.isBlank).head?.any (·.is '#')

def namesOf (content : Bytes) : List Text := (Utf8.Escaped.decode content).lines.filter isNameLine

/-- The names in a file, which is read in the tree that there is once a journal has been put out. -/
def readNames (files : Log.Journal → Files.Tree) (path : Files.FilePath) (j : Log.Journal) :
    Except Files.FileError (List Text) × Log.Journal :=
  j.timed Files.FileError.message "read_names_file" fun j => (((files j).read path).map namesOf, j)

/-- The names in a list with commas between them; blank ones are left out. -/
def splitNames (list : Text) : List Text :=
  (list.splitWhere (·.is ',')).filter fun name => !name.isAllBlank

end SafePath.Cli
