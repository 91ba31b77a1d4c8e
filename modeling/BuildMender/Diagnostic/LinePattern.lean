import BuildMender.Diagnostic
import BuildMender.Text.Place

/-!
# How tools write a message on a line

Each dialect has a way to write where a message points, how bad it is and what it says. A reader
below takes one line and gives the parts, or nothing if the line is not written that way.

The readers run from left to right without looking back, because each part ends at a character it
cannot hold: a file name at its colon or parenthesis, a number at its first non-digit. Two things
need a second try. A letter and a colon at the start may be the drive of a file name or a file name
of one letter (`afterDrive`), and the front of a linker's line may or may not name the linker and an
object file (`linker?`), so there the readings are listed, the preferred one first.
-/

namespace BuildMender

open Text

/-- The parts of a message on a line, before they are brought into one form. -/
structure LinePattern where
  file : Text
  /-- The line number, unless there is none or it does not fit. -/
  line : Option UInt32 := none
  /-- The column number, unless there is none or it does not fit. -/
  column : Option UInt32 := none
  /-- The tool's word for the severity. -/
  severity : Text
  message : Text
deriving DecidableEq, Inhabited

namespace LinePattern

/-! ### Parts -/

/-- The number a run of digits stands for, if they are ASCII digits and the number fits. -/
def number (digits : Text) : Option UInt32 := (unsigned? bound32 digits).map UInt32.ofNat

/-- A non-empty run of digits and the text after it. -/
def digits? (t : Text) : Option (Text × Text) :=
  let run := t.takeWhile isDigit
  if run.isEmpty then none else some (run, t.dropWhile isDigit)

/-- The first of some words that the text begins with, and the text after it. -/
def word? (words : List Text) (t : Text) : Option (Text × Text) :=
  words.findSome? fun w => (after? w t).map fun r => (w, r)

/-- Two ways to begin a file name: with the letter and colon of a drive set aside, if it begins that
way, and as it stands. -/
def afterDrive (t : Text) : List (Text × Text) :=
  match t with
  | c :: ':' :: rest => if isAsciiLetter c then [([c, ':'], rest), ([], t)] else [([], t)]
  | _ => [([], t)]

/-- A run of characters other than `stop` with a non-blank one in front, and the text after the stop
that ends it. -/
def upTo? (stop : Char) (t : Text) : Option (Text × Text) :=
  match t with
  | [] => none
  | c :: _ =>
    if c = stop || isBlank c then none
    else match t.dropWhile (· ≠ stop) with
      | [] => none
      | _ :: rest => some (t.takeWhile (· ≠ stop), rest)

/-! ### Compilers in the style of GCC -/

/-- The severity words of such a compiler. -/
def gccWords : List Text := ["fatal error", "error", "warning", "note", "remark"]

/-- The column and the colon after it, if there is one. -/
def gccColumn (t : Text) : Option Text × Text :=
  match digits? t with
  | some (digits, rest) =>
    match after? ":" rest with
    | some after => (some digits, after)
    | none => (none, t)
  | none => (none, t)

/-- What follows the file name: the line, the column if any, the severity, the message. -/
def gccTail? (file t : Text) : Option LinePattern := do
  let (line, t) ← digits? t
  let t ← after? ":" t
  let (column, t) := gccColumn t
  let (severity, t) ← word? gccWords (trimStart t)
  let t ← after? ":" t
  return ⟨file, number line, column.bind number, severity, trimStart t⟩

/-- **A line as GCC writes it**, `file:line:column: severity: message`. -/
def gcc? (t : Text) : Option LinePattern :=
  (afterDrive t).findSome? fun (drive, rest) =>
    (upTo? ':' rest).bind fun (name, tail) => gccTail? (drive ++ name) tail

/-! ### Compilers in the style of Visual C++ -/

/-- The severity words of such a compiler. -/
def msvcWords : List Text := ["fatal error", "error", "warning", "note"]

/-- A code such as `C2065`: capitals, then digits. -/
def code? (t : Text) : Option (Text × Text) :=
  let capitals := t.takeWhile isAsciiCapital
  if capitals.isEmpty then none
  else (digits? (t.dropWhile isAsciiCapital)).map fun (digits, rest) => (capitals ++ digits, rest)

/-- A code of the linker: `LNK`, then digits. -/
def linkCode? (t : Text) : Option (Text × Text) :=
  (after? "LNK" t).bind fun t => (digits? t).map fun (digits, rest) => ("LNK" ++ digits, rest)

/-- The text after blanks, a colon and more blanks. -/
def afterColon? (t : Text) : Option Text := (after? ":" (trimStart t)).map trimStart

/-- A message without the project file that the build driver puts after it in brackets. -/
def withoutProject (message : Text) : Text :=
  if endsWith "proj]" message then
    match cutLast " [" message with
    | some (before, _) => before
    | none => message
  else message

/-- The code and the message behind it. -/
def coded (code message : Text) : Text := code ++ ": " ++ trim (withoutProject message)

/-- A severity word, a code and a message, where `code` reads the code. -/
def verdict? (words : List Text) (code : Text → Option (Text × Text)) (t : Text) :
    Option (Text × Text) := do
  let (severity, t) ← word? words t
  let t ← afterSome? isBlank t
  let (code, t) ← code t
  let t ← afterColon? t
  return (severity, coded code t)

/-- The line, the column if any, and the closing parenthesis. -/
def msvcPlace? (t : Text) : Option (Text × Option Text × Text) := do
  let (line, t) ← digits? t
  match after? "," t with
  | some u =>
    let (column, u) ← digits? u
    return (line, some column, ← after? ")" u)
  | none => return (line, none, ← after? ")" t)

/-- **A line as Visual C++ writes it**, `file(line,column): severity code: message`. -/
def msvc? (t : Text) : Option LinePattern := do
  let (file, t) ← upTo? '(' (trimStart t)
  let (line, column, t) ← msvcPlace? t
  let t ← afterColon? t
  let (severity, message) ← verdict? msvcWords code? t
  return ⟨file, number line, column.bind number, severity, message⟩

/-! ### CMake -/

/-- What follows the place: the context in parentheses, if there is one. -/
def cmakeContext (t : Text) : Option Text × Text :=
  match after? " (" t with
  | some u =>
    match u.dropWhile (· ≠ ')') with
    | _ :: rest => (some (u.takeWhile (· ≠ ')')), rest)
    | [] => (none, t)
  | none => (none, t)

/-- The message of such a line, with the context behind it. -/
def withContext (context : Option Text) (message : Text) : Text :=
  if allBlank message then []
  else match context with
    | some c => message ++ " (" ++ c ++ ")"
    | none => message

/-- **A line as CMake writes it**, `CMake Error at file:line (context): message`. -/
def cmake? (t : Text) : Option LinePattern := do
  let t := (after? "CMake " t).getD t
  let (severity, t) ← word? ["Error", "Warning"] t
  let t := (after? " (dev)" t).getD t
  let t ← after? " at " t
  let file := t.takeWhile (· ≠ ':')
  let t ← after? ":" (t.dropWhile (· ≠ ':'))
  let (line, t) ← if file.isEmpty then none else digits? t
  let (context, t) := cmakeContext t
  let t := (after? ":" t).getD t
  return ⟨file, number line, none, severity, withContext context (trimStart t)⟩

/-! ### Linkers -/

/-- The text after the rest of a linker's name: a suffix, `.exe`, a colon, blanks. -/
def afterLinkerName? (t : Text) : Option Text :=
  let t := match t with
    | '.' :: rest => (afterSome? isWordChar rest).getD t
    | _ => t
  let t := (after? ".exe" t).getD t
  (after? ":" t).bind (afterSome? isBlank)

/-- What may follow the name of a linker, for each `ld` that begins a word in the first run of
characters that are not blank. -/
def afterLinker (previous : Option Char) : Text → List Text
  | [] => []
  | c :: cs =>
    let here := if boundary previous (c :: cs) then (after? "ld" (c :: cs)).bind afterLinkerName? else none
    here.toList ++ if isBlank c then [] else afterLinker (some c) cs

/-- The text after a stretch in parentheses, if the text begins with one. -/
def afterParens? (t : Text) : Option Text :=
  (after? "(" t).bind fun u => after? ")" (u.dropWhile (· ≠ ')'))

/-- The extensions of object files and libraries. -/
def objectExtensions : List Text := [".o", ".obj", ".a", ".lib"]

/-- The text after an object file's extension, the member in parentheses if any, and the colon. -/
def afterObjectExtension? (t : Text) : Option Text :=
  objectExtensions.findSome? fun ext =>
    (after? ext t).bind fun u =>
      ((afterParens? u).bind (after? ":")).orElse fun _ => after? ":" u

/-- What may follow the name of an object file and its colon, the longest name first. -/
def afterObjectFrom : Text → List Text
  | [] => []
  | c :: cs =>
    if c = ':' || isBlank c then []
    else afterObjectFrom cs ++ (afterObjectExtension? cs).toList

/-- What may follow the name of an object file and its colon, with a drive or without. -/
def afterObject (t : Text) : List Text := (afterDrive t).flatMap fun (_, rest) => afterObjectFrom rest

/-- A name without blanks that ends before a colon, and the text from that colon on. -/
def compactName? (t : Text) : Option (Text × Text) :=
  let name := t.takeWhile fun c => c ≠ ':' && !isBlank c
  let rest := t.dropWhile fun c => c ≠ ':' && !isBlank c
  if name.isEmpty || !startsWith ":" rest then none else some (name, rest)

/-- The line number after a colon, if there is one. -/
def linkerLine (t : Text) : Option Text × Text :=
  match (after? ":" t).bind digits? with
  | some (digits, rest) => (some digits, rest)
  | none => (none, t)

/-- The beginning of the message of an unresolved name. -/
def undefinedReference : Text := "undefined reference to "

/-- What follows the file name: a line or a section, and the unresolved name. -/
def linkerTail? (file t : Text) : Option LinePattern := do
  let (line, t) := linkerLine t
  let t := ((after? ":" t).bind afterParens?).getD t
  let message := trimStart (← after? ":" t)
  let name ← after? undefinedReference message
  if name.isEmpty then none else return ⟨file, line.bind number, none, "error", message⟩

/-- The file named at the front of a text, with a drive or without, and what follows it. -/
def linkerFile? (t : Text) : Option LinePattern :=
  (afterDrive t).findSome? fun (drive, rest) =>
    (compactName? rest).bind fun (name, tail) => linkerTail? (drive ++ name) tail

/-- **A linker's line about an unresolved name**: the linker, the object file and the source file,
of which the first two may be absent. -/
def linker? (t : Text) : Option LinePattern :=
  (afterLinker none t ++ [t]).findSome? fun u =>
    (afterObject u ++ [u]).findSome? linkerFile?

/-- The severity words of the linker of Visual C++. -/
def linkWords : List Text := ["fatal error", "error", "warning"]

/-- **A line as the linker of Visual C++ writes it**, `file : severity code: message`. -/
def link? (t : Text) : Option LinePattern := do
  let (file, t) ← upTo? ':' (trimStart t)
  let (severity, message) ← verdict? linkWords linkCode? (trimStart t)
  return ⟨trimEnd file, none, none, severity, message⟩

/-! ### The table -/

/-- The readers, in the order in which they are tried. -/
def table : List (Dialect × (Text → Option LinePattern)) :=
  [(.gcc, gcc?), (.msvc, msvc?), (.cmake, cmake?), (.linker, linker?), (.linker, link?)]

/-- **The dialect of a line and its parts**, by the first reader that takes it. -/
def ofLine? (line : Text) : Option (Dialect × LinePattern) :=
  table.findSome? fun (dialect, read) => (read line).map fun p => (dialect, p)

end LinePattern

end BuildMender
