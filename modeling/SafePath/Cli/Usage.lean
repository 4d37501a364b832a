import SafePath.Cli.Options
import SafePath.Number.Literal
import SafePath.Text.Lines

/-!
# Usage and help

The usage names the program and its options, the help says what each of them is for.  Both are broken
into lines by the width of the terminal.  Lines of the usage after the first are indented up to the
first option, or less if the program has a long name, and the value without an option has a line of
its own.  A text of the help stands in a column of its own, to the right of what it explains, or below
it if that reaches into the column.

A line takes as many parts as fit, and at least one.
-/

namespace SafePath.Cli

def blanks (n : Nat) : Text := List.replicate n (CodePoint.ofChar ' ')

/-- A part of a text behind which a line may end, and whether a blank stands in front of it. -/
structure Chunk where
  afterBlank : Bool
  text : Text

/-- Chunks in lines of at most `width` code points, the first line begun with `line`. -/
def fill (width : Nat) (line : Text) : List Chunk → List Text
  | [] => if line = [] then [] else [line]
  | chunk :: rest =>
    let longer := line ++ (if chunk.afterBlank ∧ line ≠ [] then blanks 1 else []) ++ chunk.text
    if width < longer.length ∧ line ≠ [] then line :: fill width chunk.text rest
    else fill width longer rest

/-! ## Usage -/

def optionParts : List Text :=
  ["[-h]", "[-e EXTENSION]", "[--names NAMES]", "[--names-file FILE]", "[--ascii-only]", "[-v]"]

def valueParts : List Text := ["[prefix]"]

def usageOpening : Text := "usage: "

/-- Parts with a blank between each two, in lines that together with an indentation have at most
`width` code points. -/
def partLines (width indent : Nat) (parts : List Text) : List Text :=
  fill (width - indent) [] (parts.map (Chunk.mk true))

/-- Lines behind an opening: the later ones are indented by as much as the opening takes. -/
def hang (opening : Text) : List Text → List Text
  | [] => [opening]
  | first :: rest => (opening ++ first) :: rest.map (blanks opening.length ++ ·)

/-- The lines of the usage of a program: one line if all fits; else the options and the value in lines
of their own behind the program, or below it if its name takes more than three quarters of a line. -/
def usageLines (width : Nat) (program : Text) : List Text :=
  let whole := usageOpening ++ Text.join " " (program :: optionParts ++ valueParts)
  let named := usageOpening ++ program
  if whole.length ≤ width then [whole]
  else if 4 * named.length ≤ 3 * width then
    let indent := named.length + 1
    hang (named ++ " ") (partLines width indent optionParts ++ partLines width indent valueParts)
  else
    let indent := usageOpening.length
    let below :=
      match partLines width indent (optionParts ++ valueParts) with
      | [line] => [line]
      | _ => partLines width indent optionParts ++ partLines width indent valueParts
    hang usageOpening (program :: below)

def usage (width : Nat) (program : Text) : Text := Text.ofLines (usageLines width program)

/-! ## Help -/

/-- What the help explains, and the explanation. -/
structure Explained where
  subject : Text
  explanation : Text

def valueEntries : List Explained := [⟨"prefix", "Output directory prefix (optional if using .env)"⟩]

def optionEntries : List Explained :=
  [⟨"-h, --help", "show this help message and exit"⟩,
    ⟨"-e EXTENSION, --extension EXTENSION",
      "File extension appended to every name, including the leading dot"⟩,
    ⟨"--names NAMES",
      "Comma-separated list of raw names (use --names-file for names containing commas)"⟩,
    ⟨"--names-file FILE", "Read raw names from file (one name per line)"⟩,
    ⟨"--ascii-only", "Replace every character outside 7-bit ASCII"⟩,
    ⟨"-v, --verbose", "Enable verbose output with debug logs"⟩]

def isLetter (c : CodePoint) : Bool :=
  (0x41 ≤ c.val && c.val ≤ 0x5A) || (0x61 ≤ c.val && c.val ≤ 0x7A)

/-- A word in parts, each but the last up to a hyphen between two letters. -/
def hyphenParts : Text → List Text
  | a :: b :: c :: rest =>
    if isLetter a && isDash b && isLetter c then [a, b] :: hyphenParts (c :: rest)
    else
      match hyphenParts (b :: c :: rest) with
      | [] => [[a]]
      | part :: parts => (a :: part) :: parts
  | short => [short]

/-- The chunks of a word, which has a blank in front of it. -/
def wordChunks (word : Text) : List Chunk :=
  match hyphenParts word with
  | [] => []
  | first :: rest => ⟨true, first⟩ :: rest.map (Chunk.mk false)

def chunksOf (t : Text) : List Chunk := (t.splitWhere (·.is ' ')).flatMap wordChunks

/-- Where explanations begin. -/
def explanationColumn (width : Nat) : Nat := min 24 (max (width - 20) 4)

/-- The lines of an entry; an explanation has room for eleven code points at least. -/
def Explained.lines (width : Nat) (entry : Explained) : List Text :=
  let column := explanationColumn width
  let explained := fill (max (width - column) 11) [] (chunksOf entry.explanation)
  let subject := blanks 2 ++ entry.subject
  if subject.length + 2 ≤ column then hang (subject ++ blanks (column - subject.length)) explained
  else subject :: explained.map (blanks column ++ ·)

def exampleLines : List Text :=
  ["Examples:",
    "  # Single name under an output directory",
    "  nxdt-paths sd:/nxdt_out --names \"Some Game: Deluxe Edition\" -e .nsp",
    "",
    "  # Several names, 7-bit ASCII only",
    "  nxdt-paths sd:/nxdt_out --names \"Pokémon,Zelda\" --ascii-only",
    "",
    "  # Names from a file (one per line, '#' starts a comment)",
    "  nxdt-paths sd:/nxdt_out --names-file titles.txt -e .xci -v",
    "",
    "  # Using .env file for configuration",
    "  echo 'OUTPUT_PREFIX=sd:/nxdt_out' > .env",
    "  nxdt-paths --names \"Some Game\"",
    "        "]

def purpose : Text := "Turn raw title/content names into filesystem-safe output paths"

def sectionLines (width : Nat) (title : Text) (entries : List Explained) : List Text :=
  [[], title ++ (":" : Text)] ++ entries.flatMap (Explained.lines width)

def help (width : Nat) (program : Text) : Text :=
  Text.ofLines
    (usageLines width program ++ [[], purpose]
      ++ sectionLines width "positional arguments" valueEntries
      ++ sectionLines width "options" optionEntries
      ++ [[]] ++ exampleLines)

/-- What is shown when a command line is refused. -/
def refusal (width : Nat) (program : Text) (error : UsageError) : Text :=
  usage width program ++ program ++ ": error: " ++ error.message ++ "\n"

/-! ## The width of the terminal -/

def columnsVariable : Text := "COLUMNS"

/-- The columns of a terminal of which nothing is known. -/
def usualColumns : Nat := 80

/-- The columns of the terminal, which a text may state. -/
def columns (stated : Option Text) : Nat :=
  match stated.bind Literal.parseDecimal? with
  | some n => if 0 < n then n.toNat else usualColumns
  | none => usualColumns

/-- How long lines may be: two columns stay free. -/
def lineWidth (stated : Option Text) : Nat := columns stated - 2

end SafePath.Cli
