import SafePath.Files.FilePath
import SafePath.Text.Numeral
import SafePath.Text.Quoted

/-!
# Command line options

The words of a command line are first told apart: options, values, and the two dashes behind which
all words are values.  Then they are read from the left.  An option that takes a value has it in the
same word or as the next one; short options that take none can share a word; long options may be
shortened as long as only one begins that way.  The first free value is the output prefix.  Words for
which there is no place are collected and refused at the end.

Two dashes are dropped where they stand for a value: an option that has them in its own word is given,
but without a value.

An ambiguous word is refused before anything is read; a request for help ends the reading where it
stands.
-/

namespace SafePath.Cli

inductive Flag
  | help
  | extension
  | names
  | namesFile
  | asciiOnly
  | verbose
deriving DecidableEq

def Flag.takesValue : Flag → Bool
  | .extension | .names | .namesFile => true
  | .help | .asciiOnly | .verbose => false

/-- The written forms of all options, in the order in which they are tried. -/
def writtenForms : List (Text × Flag) :=
  [("-h", .help), ("--help", .help), ("-e", .extension), ("--extension", .extension),
    ("--names", .names), ("--names-file", .namesFile), ("--ascii-only", .asciiOnly),
    ("-v", .verbose), ("--verbose", .verbose)]

def flagOf? (form : Text) : Option Flag := (writtenForms.find? fun entry => entry.1 = form).map (·.2)

/-- All forms of an option, as errors name it. -/
def Flag.shown (flag : Flag) : Text :=
  Text.join "/" ((writtenForms.filter fun entry => entry.2 = flag).map (·.1))

inductive UsageError
  | ambiguous (word : Text) (candidates : List Text)
  | valueMissing (flag : Flag)
  | valueUnwanted (flag : Flag) (value : Text)
  | unrecognized (words : List Text)
deriving DecidableEq

def UsageError.message : UsageError → Text
  | .ambiguous word candidates =>
    "ambiguous option: " ++ word ++ " could match " ++ Text.join ", " candidates
  | .valueMissing flag => "argument " ++ flag.shown ++ ": expected one argument"
  | .valueUnwanted flag value =>
    "argument " ++ flag.shown ++ ": ignored explicit argument " ++ value.quoted
  | .unrecognized words => "unrecognized arguments: " ++ Text.join " " words

/-- What a word is; an option may have a text behind it in the same word. -/
inductive Kind
  | value
  | twoDashes
  | option (flag : Flag) (isLong : Bool) (attached : Option Text)
  | unknownOption
deriving DecidableEq

def isDash (c : CodePoint) : Bool := c.is '-'

/-- The text before the first equals sign, and the text behind it if there is one. -/
def splitAtEquals (word : Text) : Text × Option Text :=
  let head := word.takeWhile fun c => !c.is '='
  (head, (word.drop head.length).tail?)

/-- The word is a number with a dash in front. -/
def looksNegative (word : Text) : Bool :=
  let body := (if word.getLast?.any (·.is '\n') then word.dropLast else word).drop 1
  let whole := body.takeWhile CodePoint.isDecimalDigit
  match body.drop whole.length with
  | [] => !whole.isEmpty
  | c :: fraction => c.is '.' && !fraction.isEmpty && fraction.all CodePoint.isDecimalDigit

/-- The options that a word in an unlisted form may mean, each with its full form. -/
def candidates (word : Text) : List (Text × Kind) :=
  match word with
  | c :: d :: rest =>
    if isDash d then
      let (head, value) := splitAtEquals word
      (writtenForms.filter fun entry => entry.1.startsWith head).map fun (form, flag) =>
        (form, .option flag true value)
    else
      (writtenForms.filter fun entry => entry.1 = [c, d]).map fun (form, flag) =>
        (form, .option flag false (some rest))
  | _ => []

/-- What a word in an unlisted form is. -/
def kindOfUnlisted (word : Text) : Except UsageError Kind :=
  match candidates word with
  | [] =>
    if looksNegative word || word.any (·.is ' ') then .ok .value else .ok .unknownOption
  | [(_, kind)] => .ok kind
  | several => .error (.ambiguous word (several.map (·.1)))

/-- What a word is that is not behind two dashes. -/
def kindOf (word : Text) : Except UsageError Kind :=
  if !word.head?.any isDash || word.length = 1 then .ok .value
  else
    match flagOf? word with
    | some flag => .ok (.option flag ((word.drop 1).head?.any isDash) none)
    | none =>
      match splitAtEquals word with
      | (head, some value) =>
        match flagOf? head with
        | some flag => .ok (.option flag ((word.drop 1).head?.any isDash) (some value))
        | none => kindOfUnlisted word
      | (_, none) => kindOfUnlisted word

def classify : List Text → Except UsageError (List (Text × Kind))
  | [] => .ok []
  | word :: rest =>
    if word = ("--" : Text) then .ok ((word, .twoDashes) :: rest.map fun w => (w, .value))
    else
      match kindOf word with
      | .error e => .error e
      | .ok kind => (classify rest).map ((word, kind) :: ·)

/-- The options of one word: those that take no value, and the last one, with the text behind it if it
takes that as its value. -/
structure Cluster where
  switches : List Flag
  last : Flag
  value : Option Text
deriving DecidableEq

/-- The options of a word, of which the first has `attached` behind it.  Every letter behind a short
option that takes no value has to be a short option too. -/
def unpack (flag : Flag) (isLong : Bool) (attached : Text) : Except UsageError Cluster :=
  if flag.takesValue then .ok ⟨[], flag, some attached⟩
  else
    match attached with
    | [] => .error (.valueUnwanted flag attached)
    | c :: rest =>
      if isLong then .error (.valueUnwanted flag attached)
      else
        match flagOf? [CodePoint.ofChar '-', c] with
        | none => .error (.valueUnwanted flag attached)
        | some next =>
          if rest = [] then .ok ⟨[flag], next, none⟩
          else (unpack next false rest).map fun more => { more with switches := flag :: more.switches }

/-- What an option that takes a value was given: a value, or two dashes, which are dropped. -/
inductive Given (α : Type)
  | dropped
  | value (a : α)
deriving DecidableEq

namespace Given

/-- The value of an option that was given a text. -/
def ofText (t : Text) : Given Text := if t = ("--" : Text) then .dropped else .value t

/-- The value, if it was not dropped. -/
def value? {α : Type} : Given α → Option α
  | .dropped => none
  | .value a => some a

def map {α β : Type} (f : α → β) : Given α → Given β
  | .dropped => .dropped
  | .value a => .value (f a)

end Given

/-- What a command line says. -/
structure Options where
  outputPrefix : Option Text
  extension : Option (Given Text)
  names : Option (Given Text)
  namesFile : Option (Given Files.FilePath)
  asciiOnly : Option Bool
  verbose : Option Bool

def Options.empty : Options := ⟨none, none, none, none, none, none⟩

inductive Outcome
  | help
  | refused (error : UsageError)
  | options (options : Options)

/-- What has been read so far. -/
structure Parsed where
  options : Options
  prefixTaken : Bool
  leftOver : List Text

/-- The options without a value that were given. -/
def Options.switch (o : Options) : Flag → Options
  | .asciiOnly => { o with asciiOnly := some true }
  | .verbose => { o with verbose := some true }
  | _ => o

/-- An option with its value. -/
def Options.assign (o : Options) (flag : Flag) (value : Given Text) : Options :=
  match flag with
  | .extension => { o with extension := some value }
  | .names => { o with names := some value }
  | .namesFile => { o with namesFile := some (value.map Files.FilePath.ofText) }
  | _ => o

/-- Several options without a value. -/
def Parsed.switchAll (p : Parsed) (flags : List Flag) : Parsed :=
  { p with options := flags.foldl Options.switch p.options }

/-- The words behind two dashes that come next, or all words if others do. -/
def behindDashes : List (Text × Kind) → List (Text × Kind)
  | (_, .twoDashes) :: rest => rest
  | words => words

/-- The value that comes next, and the words behind it. -/
def nextValue? : List (Text × Kind) → Option (Text × List (Text × Kind))
  | (value, .value) :: rest => some (value, rest)
  | _ => none

theorem length_behindDashes_le (words : List (Text × Kind)) :
    (behindDashes words).length ≤ words.length := by
  unfold behindDashes
  split
  · exact Nat.le_succ _
  · exact Nat.le_refl _

theorem length_lt_of_nextValue? {words rest : List (Text × Kind)} {value : Text}
    (h : nextValue? words = some (value, rest)) : rest.length < words.length := by
  unfold nextValue? at h
  split at h
  · obtain ⟨rfl, rfl⟩ := h
    exact Nat.lt_succ_self _
  · simp at h

/-- The words from the left. -/
def read (p : Parsed) : List (Text × Kind) → Outcome
  | [] =>
    if p.leftOver = [] then .options p.options else .refused (.unrecognized p.leftOver)
  | (word, .value) :: rest =>
    if p.prefixTaken then read { p with leftOver := p.leftOver ++ [word] } rest
    else
      read { p with prefixTaken := true, options := { p.options with outputPrefix := some word } }
        (behindDashes rest)
  | (word, .twoDashes) :: rest =>
    if p.prefixTaken then read { p with leftOver := p.leftOver ++ [word] } rest
    else
      match _h : nextValue? rest with
      | some (value, rest') =>
        read { p with prefixTaken := true, options := { p.options with outputPrefix := some value } } rest'
      | none => read { p with prefixTaken := true } rest
  | (word, .unknownOption) :: rest => read { p with leftOver := p.leftOver ++ [word] } rest
  | (_, .option flag isLong attached) :: rest =>
    let cluster : Except UsageError Cluster :=
      match attached with
      | none => .ok ⟨[], flag, none⟩
      | some text => unpack flag isLong text
    match cluster with
    | .error e => .refused e
    | .ok ⟨switches, last, some value⟩ =>
      if .help ∈ switches then .help
      else
        let q := p.switchAll switches
        read { q with options := q.options.assign last (Given.ofText value) } rest
    | .ok ⟨switches, last, none⟩ =>
      if last.takesValue then
        match _h : nextValue? rest with
        | some (value, rest') =>
          if .help ∈ switches then .help
          else
            let q := p.switchAll switches
            read { q with options := q.options.assign last (Given.ofText value) } rest'
        | none => .refused (.valueMissing last)
      else if .help ∈ switches ++ [last] then .help
      else read (p.switchAll (switches ++ [last])) rest
termination_by words => words.length
decreasing_by
  all_goals simp only [List.length_cons]
  all_goals first
    | exact Nat.lt_succ_self _
    | exact Nat.lt_succ_of_le (length_behindDashes_le _)
    | exact Nat.lt_succ_of_lt (length_lt_of_nextValue? _h)

/-- What a command line comes to. -/
def parse (words : List Text) : Outcome :=
  match classify words with
  | .error e => .refused e
  | .ok classified => read { options := .empty, prefixTaken := false, leftOver := [] } classified

end SafePath.Cli
