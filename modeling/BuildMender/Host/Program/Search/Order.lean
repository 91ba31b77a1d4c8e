import BuildMender.Host.Choice
import BuildMender.Host.Numeral

/-!
# What a search is to do

A search is told by its options what to look for, in which files, and what to print of what it finds. The
options are read one after the other; the search is over where one of them has a value it cannot have.
-/

namespace BuildMender.Host.Search

/-- How patterns are spelled. -/
inductive Spelling where
  | basic
  | extended
  | fixed
deriving DecidableEq, Inhabited

/-- Which names of files are printed in place of lines. -/
inductive Naming where
  | nothing
  | matching
  | others
deriving DecidableEq, Inhabited

/-- What is done about files that are not text. -/
inductive Binary where
  /-- It is said that they have lines that match. -/
  | told
  | text
  /-- They have no such lines. -/
  | none
deriving DecidableEq, Inhabited

/-- What is done about directories. -/
inductive Directories where
  | read
  | recurse
  | skip
deriving DecidableEq, Inhabited

/-- Lines of patterns, and the file and number of the first of them if they are from a file. -/
structure PatternLines where
  lines : List Raw
  file : Option Raw := none
deriving DecidableEq, Inhabited

/-- A pattern for the names of files that are searched, or that are not. -/
structure NamePattern where
  included : Bool
  pattern : Raw
deriving DecidableEq, Inhabited

/-- What a search is to do. -/
structure Order where
  spelling : Option Spelling := none
  patterns : Option (List PatternLines) := none
  folding : Bool := false
  word : Bool := false
  whole : Bool := false
  inverted : Bool := false
  /-- Whether lines end in zeros. -/
  zeros : Bool := false
  silent : Bool := false
  quiet : Bool := false
  counting : Bool := false
  naming : Naming := .nothing
  only : Bool := false
  colored : Bool := false
  /-- Whether names are printed in front of lines, if that was said. -/
  named : Option Bool := none
  numbered : Bool := false
  offsets : Bool := false
  tabs : Bool := false
  /-- Whether a zero follows each name. -/
  zeroAfterName : Bool := false
  /-- After how many lines the search in a file ends. -/
  most : Option Nat := none
  before : Option Nat := none
  after : Option Nat := none
  around : Option Nat := none
  /-- The digits of the last option that is a number. -/
  digits : Raw := []
  separator : Option Raw := some ['-', '-']
  binary : Binary := .told
  directories : Directories := .read
  /-- What the standard input is called. -/
  label : Raw := "(standard input)".toList
  names : List NamePattern := []
  directoryNames : List NamePattern := []
deriving Inhabited

namespace Order

/-- How many lines in front of a line are printed with it, if that was said. -/
def linesBefore (o : Order) : Option Nat := o.before <|> o.around

/-- How many lines behind a line are printed with it, if that was said. -/
def linesAfter (o : Order) : Option Nat := o.after <|> o.around

end Order

/-! ### Options -/

/-- The short options that take no value or another one. -/
def letters : Text := "0123456789A:B:C:D:EFGHILPTUVX:abcd:e:f:hiLlm:noqRrsuvwxyZz".toList

/-- The options about patterns and matching. -/
def matchingOptions : List (String × Takes × String) :=
  [("basic-regexp", .nothing, "G"), ("extended-regexp", .nothing, "E"), ("fixed-regexp", .nothing, "F"),
    ("fixed-strings", .nothing, "F"), ("perl-regexp", .nothing, "P"), ("after-context", .value, "A"),
    ("before-context", .value, "B"), ("binary-files", .value, "binary-files"), ("binary", .nothing, "U"),
    ("byte-offset", .nothing, "b"), ("context", .value, "C"), ("color", .inside, "color"),
    ("colour", .inside, "color"), ("count", .nothing, "c"), ("devices", .value, "D"),
    ("directories", .value, "d"), ("exclude", .value, "exclude"),
    ("exclude-from", .value, "exclude-from"), ("exclude-dir", .value, "exclude-dir"),
    ("file", .value, "f"), ("files-with-matches", .nothing, "l"),
    ("files-without-match", .nothing, "L"), ("group-separator", .value, "group-separator")]

/-- The other options. -/
def otherOptions : List (String × Takes × String) :=
  [("help", .nothing, "help"), ("include", .value, "include"), ("ignore-case", .nothing, "i"),
    ("no-ignore-case", .nothing, "no-ignore-case"), ("initial-tab", .nothing, "T"),
    ("label", .value, "label"), ("line-buffered", .nothing, "line-buffered"),
    ("line-number", .nothing, "n"), ("line-regexp", .nothing, "x"), ("max-count", .value, "m"),
    ("no-filename", .nothing, "h"), ("no-group-separator", .nothing, "no-group-separator"),
    ("no-messages", .nothing, "s"), ("null", .nothing, "Z"), ("null-data", .nothing, "z"),
    ("only-matching", .nothing, "o"), ("quiet", .nothing, "q"), ("recursive", .nothing, "r"),
    ("dereference-recursive", .nothing, "R"), ("regexp", .value, "e"), ("invert-match", .nothing, "v"),
    ("silent", .nothing, "q"), ("text", .nothing, "a"), ("unix-byte-offsets", .nothing, "u"),
    ("version", .nothing, "V"), ("with-filename", .nothing, "H"), ("word-regexp", .nothing, "w")]

/-- The options of a search. -/
def table : OptionTable := .make letters (matchingOptions ++ otherOptions)

/-! ### What can be wrong -/

/-- The status of trouble. -/
def trouble : Nat := 2

/-- The last piece of a path. -/
def lastPiece (path : Raw) : Raw := (path.reverse.takeWhile (· ≠ '/')).reverse

/-- The end of a search that was called in a wrong way. -/
def refuse {α : Type} (status : Nat) : Job α := do
  let d ← Job.bench
  let name := lastPiece d.name
  Job.act (Act.complain ("Usage: " ++ name ++ " [OPTION]... PATTERNS [FILE]...\n".toList ++ Job.advice name))
  Job.stop status

/-- The end of a search after a complaint. -/
def end_ {α : Type} (message : Raw) : Job α := do
  Job.complain message
  Job.stop trouble

/-! ### Values -/

/-- A whole number with nothing behind it. -/
def whole? (t : Raw) : Option Int :=
  let t := t.dropWhile Raw.isSpace
  let (sign, digits) : Int × Raw := match t with
    | '-' :: t => (-1, t)
    | '+' :: t => (1, t)
    | t => (1, t)
  if !digits.isEmpty && digits.all Raw.isDigit then some (sign * (Numeral.valueIn 10 digits : Nat)) else none

/-- A number of lines around a line. -/
def lineCount (t : Raw) : Job Nat := do
  match whole? t with
  | some n => if 0 ≤ n then return n.toNat else wrong
  | none => wrong
where
  /-- The end: the text is no such number. -/
  wrong : Job Nat := end_ (t ++ ": invalid context length argument".toList)

/-- All that can be read of a file or of the standard input. -/
def readFile (name : Raw) : Job Raw := do
  if name = ['-'] then readAll 0
  else
    match ← Job.ask (.openFile name { reading := true }) with
    | .error e => end_ (name ++ ": " ++ e.message)
    | .ok n =>
      let t ← readAll n
      let _ ← Job.ask (.close n)
      return t
where
  /-- All that can be read from a descriptor. -/
  readAll (descriptor : Nat) : Job Raw := go descriptor Act.forever []
  /-- What can be read after some pieces, the last first. -/
  go (descriptor : Nat) : Nat → List Raw → Job Raw
    | 0, ps => pure ps.reverse.flatten
    | n + 1, ps => do
      match ← Job.ask (.read descriptor Job.portion) with
      | .error e => end_ (name ++ ": " ++ e.message)
      | .ok [] => return ps.reverse.flatten
      | .ok t => go descriptor n (t :: ps)

/-- The lines of a text; what is behind its last line feed is a line unless it is empty. -/
def linesOf (t : Raw) : List Raw :=
  let ls := Text.split (· = '\n') t
  if ls.getLast? = some [] then ls.dropLast else ls

/-- Patterns added. -/
def addPatterns (o : Order) (p : PatternLines) : Order := { o with patterns := some (o.patterns.getD [] ++ [p]) }

/-- The spelling of patterns, which must be said only once. -/
def setSpelling (o : Order) (s : Spelling) : Job Order := do
  if o.spelling.any (· ≠ s) then end_ "conflicting matchers specified".toList
  return { o with spelling := some s }

/-- The ways to say that colors are wanted. -/
def colorWords : List (Text × Bool) :=
  (words "always yes force").map (·, true) ++ (words "never no none auto tty if-tty").map (·, false)
where
  /-- The words of a text. -/
  words (t : String) : List Text := Text.split (· = ' ') t.toList

/-- What is done about directories by its name. -/
def directoriesChoice : Choice Directories := [("read", .read), ("recurse", .recurse), ("skip", .skip)]

/-! ### Reading -/

/-- An option that is a letter and takes no value. -/
def setLetter (o : Order) (c : Char) : Job Order := do
  match c with
  | 'E' => setSpelling o .extended
  | 'F' => setSpelling o .fixed
  | 'G' => setSpelling o .basic
  | 'H' => return { o with named := some true }
  | 'I' => return { o with binary := .none }
  | 'L' => return { o with naming := .others }
  | 'T' => return { o with tabs := true }
  | 'Z' => return { o with zeroAfterName := true }
  | 'a' => return { o with binary := .text }
  | 'b' => return { o with offsets := true }
  | 'c' => return { o with counting := true }
  | 'h' => return { o with named := some false }
  | 'i' | 'y' => return { o with folding := true }
  | 'l' => return { o with naming := .matching }
  | 'n' => return { o with numbered := true }
  | 'o' => return { o with only := true }
  | 'q' => return { o with quiet := true }
  | 'R' | 'r' => return { o with directories := .recurse }
  | 's' => return { o with silent := true }
  | 'u' => do
    Job.complain "warning: --unix-byte-offsets (-u) is obsolete".toList
    return o
  | 'v' => return { o with inverted := true }
  | 'w' => return { o with word := true }
  | 'x' => return { o with whole := true }
  | 'z' => return { o with zeros := true }
  | 'V' => Job.stop 0
  | _ => return o

/-- An option that is a letter and takes a value. -/
def setValue (o : Order) (c : Char) (v : Raw) : Job Order := do
  match c with
  | 'A' => return { o with after := some (← lineCount v) }
  | 'B' => return { o with before := some (← lineCount v) }
  | 'C' => return { o with around := some (← lineCount v) }
  | 'D' => do
    if v ≠ "read".toList ∧ v ≠ "skip".toList then end_ "unknown devices method".toList
    return o
  | 'd' => return { o with directories := ← directoriesChoice.read "--directories".toList v (refuse 1) }
  | 'e' => return addPatterns o { lines := Text.split (· = '\n') v }
  | 'f' => return addPatterns o { lines := linesOf (← readFile v), file := some v }
  | 'm' => do
    match whole? v with
    | some n => return { o with most := if n < 0 then none else some n.toNat }
    | none => end_ "invalid max count".toList
  | 'X' => do
    if v = "grep".toList then setSpelling o .basic
    else if v = "egrep".toList then setSpelling o .extended
    else if v = "fgrep".toList then setSpelling o .fixed
    else end_ ("invalid matcher " ++ v)
  | _ => return o

/-- A path without slashes at its end. -/
def withoutSlashes (t : Raw) : Raw :=
  let u := Text.dropEnd (· = '/') t
  if u.isEmpty then t.take 1 else u

/-- An option with a long name only. -/
def setLong (o : Order) (key : Text) (v : Raw) : Job Order := do
  if key = "no-ignore-case" then return { o with folding := false }
  else if key = "label" then return { o with label := v }
  else if key = "group-separator" then return { o with separator := some v }
  else if key = "no-group-separator" then return { o with separator := none }
  else if key = "include" then return { o with names := o.names ++ [⟨true, v⟩] }
  else if key = "exclude" then return { o with names := o.names ++ [⟨false, v⟩] }
  else if key = "exclude-dir" then
    return { o with directoryNames := o.directoryNames ++ [⟨false, withoutSlashes v⟩] }
  else if key = "exclude-from" then
    let ls := (linesOf (← readFile v)).map (Text.dropEnd Raw.isSpace)
    let ls := ls.filter fun l => !l.isEmpty && l.head? ≠ some '#'
    return { o with names := o.names ++ ls.map fun l => ⟨false, l⟩ }
  else if key = "binary-files" then
    if v = "binary".toList then return { o with binary := .told }
    else if v = "text".toList then return { o with binary := .text }
    else if v = "without-match".toList then return { o with binary := .none }
    else end_ "unknown binary-files type".toList
  else if key = "help" then Job.stop 0
  else return o

/-- An option. -/
def set (o : Order) (key : Text) (v : Option Raw) : Job Order := do
  match key, v with
  | [c], none =>
    if Raw.isDigit c then
      let digits := o.digits ++ [c]
      return { o with digits := digits, around := some (Numeral.valueIn 10 digits) }
    else setLetter o c
  | [c], some v => setValue o c v
  | key, v =>
    if key = "color" then
      match v with
      | none => return { o with colored := false }
      | some v =>
        match colorWords.lookup v with
        | some on => return { o with colored := on }
        | none => Job.stop 0
    else setLong o key (v.getD [])

/-- **What the words of a search say**, and the files to be searched. -/
def read (words : List Raw) : Job (Order × List Raw) := do
  let (gs, operands) := table.read words
  let o ← gs.foldlM (fun o g => do
    match g with
    | .option key v =>
      let next ← set o key v
      return if key.all Raw.isDigit then next else { next with digits := [] }
    | .wrong message => do
      Job.complain message
      refuse trouble) ({} : Order)
  if o.patterns.isSome then return (o, operands)
  else
    match operands with
    | [] => refuse trouble
    | p :: files => return (addPatterns o { lines := Text.split (· = '\n') p }, files)

end BuildMender.Host.Search
