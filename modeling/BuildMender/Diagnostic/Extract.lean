import BuildMender.Diagnostic.Hint
import BuildMender.Diagnostic.LinePattern
import BuildMender.SourceFile
import BuildMender.Text.Line

/-!
# Diagnostics from a build log

A build log is cut into lines, colour codes are taken out, and every line that a dialect's reader
takes becomes one diagnostic. The list is then sorted by file and line; messages about the same line
keep the order of the log.

One dialect writes a message over several lines: where CMake's line ends at its colon, the indented
lines below it are the message (`continuation`).
-/

namespace BuildMender.Diagnostic

open Text

/-! ### Colour codes -/

/-- The text after a colour code whose escape character has been read: a bracket, digits and
semicolons, one letter. -/
def afterColour? (t : Text) : Option Text :=
  (after? "[" t).bind fun u =>
    match u.dropWhile fun c => isAsciiDigit c || c = ';' with
    | c :: rest => if isAsciiLetter c then some rest else none
    | [] => none

theorem length_dropWhile_le (p : Char → Bool) (t : Text) : (t.dropWhile p).length ≤ t.length :=
  (List.dropWhile_sublist p).length_le

theorem length_of_afterColour? {t rest : Text} (h : afterColour? t = some rest) :
    rest.length < t.length := by
  unfold afterColour? at h
  obtain ⟨u, hu, h⟩ := Option.bind_eq_some_iff.1 h
  have hut := congrArg List.length (eq_of_isPrefixOf? hu)
  have hle := length_dropWhile_le (fun c => isAsciiDigit c || c = ';') u
  split at h
  · rename_i c r hd
    rw [hd] at hle
    split at h
    · cases h
      simp at hut hle
      omega
    · cases h
  · cases h

/-- **A line without its colour codes.** An escape character that begins no complete code stays. -/
def plain : Text → Text
  | [] => []
  | c :: cs =>
    if c = '\x1b' then
      match _h : afterColour? cs with
      | some rest => plain rest
      | none => c :: plain cs
    else c :: plain cs
termination_by t => t.length
decreasing_by
  · have := length_of_afterColour? _h
    simp
    omega
  · simp
  · simp

/-- The lines of a log, without trailing blanks and colour codes. -/
def logLines (log : Text) : List Text := (lines log).map fun l => plain (trimEnd l)

/-! ### A message over several lines -/

/-- A line that begins with a space or a tab. -/
def isIndented (line : Text) : Bool := startsWith " " line || startsWith "\t" line

/-- The indented lines at the front, up to a blank one. -/
def indentedBlock (ls : List Text) : List Text :=
  (ls.takeWhile fun l => !allBlank l && isIndented l).map trim

/-- The message on the lines below a header: the first block after blank lines, if it is indented,
its lines joined by single spaces. -/
def continuation (below : List Text) : Option Text :=
  match indentedBlock (below.dropWhile allBlank) with
  | [] => none
  | block => some (join " " block)

/-! ### Extraction -/

/-- A number of a line or column, 1 where there is none or it is 0. -/
def orOne (n : Option UInt32) : UInt32 := (n.filter (0 < ·)).getD 1

/-- The parts of a line in the form that all dialects share. -/
def ofParts (dialect : Dialect) (parts : LinePattern) (line : Text) : Diagnostic :=
  let message := trim parts.message
  { file := SourceFile.normalize parts.file
    line := orOne parts.line
    column := orOne parts.column
    severity := .ofWord parts.severity
    message := message
    raw := line
    dialect := dialect
    violation := Hint.ofMessage message }

/-- A CMake message that is not on its own line is looked for below it, and failing that is made up
from the severity. -/
def complete (dialect : Dialect) (parts : LinePattern) (below : List Text) : LinePattern :=
  if dialect = .cmake ∧ parts.message = [] then
    { parts with message := (continuation below).getD ("configuration " ++ lowercase parts.severity) }
  else parts

/-- The diagnostic of a line, given the lines below it. -/
def ofLine? (line : Text) (below : List Text) : Option Diagnostic :=
  if allBlank line then none
  else (LinePattern.ofLine? line).map fun (dialect, parts) =>
    ofParts dialect (complete dialect parts below) line

/-- The diagnostics of some lines, in their order. -/
def ofLines : List Text → List Diagnostic
  | [] => []
  | line :: below => (ofLine? line below).toList ++ ofLines below

/-- The order of the list: by file, then by line. -/
def precedes (a b : Diagnostic) : Bool :=
  match Path.compareText a.file b.file with
  | .lt => true
  | .eq => a.line ≤ b.line
  | .gt => false

/-- **The diagnostics of a build log**, sorted by file and line. -/
def extract (log : Text) : List Diagnostic := (ofLines (logLines log)).mergeSort precedes

end BuildMender.Diagnostic
