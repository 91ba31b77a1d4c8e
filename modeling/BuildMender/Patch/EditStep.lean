import BuildMender.SourceFile
import BuildMender.Text.Line

/-!
# Edit steps

An edit step names a file, a text to look for in it, and a text to put in its place. A backend writes
its steps as blocks: a line `FILE:` with the name, then a search marker, the lines to find, a divider,
the lines to put there, and a replace marker. `EditStep.parse` reads the blocks and passes over all
other lines. The file name stays in force until another one is given.

`EditStep.apply` works on one text. An empty search appends; otherwise the first occurrence is
replaced, and a text whose lines end with carriage returns is searched for the step with such line
ends too.
-/

namespace BuildMender

/-- A replacement in one file. -/
structure EditStep where
  file : Text
  search : Text
  replacement : Text
deriving DecidableEq, Inhabited

namespace EditStep

open Text

/-! ### Reading blocks -/

/-- The marker above the lines to find. -/
def searchMarker : Text := "<<<<<<< SEARCH"

/-- The marker between the lines to find and the lines to put there. -/
def divider : Text := "======="

/-- The marker below the lines to put there. -/
def replaceMarker : Text := ">>>>>>> REPLACE"

/-- The name written on a line that names a file. -/
def written? (line : Text) : Option Text :=
  let line := trim line
  match (after? "FILE:" line).orElse fun _ => (after? "File:" line).orElse fun _ => after? "file:" line with
  | none => none
  | some rest =>
    let tick := fun c => c == '\x60'
    let name := trim (dropEnd tick (dropStart tick (trim rest)))
    if name.isEmpty then none else some name

/-- The file named by a line, if the line names one. -/
def fileNamed? (line : Text) : Option Text := (written? line).map SourceFile.normalize

/-- Where the reading of blocks stands, with the lines of the block so far. -/
inductive Place where
  /-- Between blocks. -/
  | between
  /-- Below a search marker. -/
  | searching (found : List Text)
  /-- Below the divider. -/
  | replacing (found given : List Text)
deriving DecidableEq

/-- The steps in some lines, given the file in force and where the reading stands. -/
def ofLines (file : Option Text) : Place → List Text → List EditStep
  | _, [] => []
  | .between, line :: rest =>
    match fileNamed? line with
    | some name => ofLines (some name) .between rest
    | none =>
      if trim line = searchMarker then ofLines file (.searching []) rest
      else ofLines file .between rest
  | .searching found, line :: rest =>
    if trim line = divider then ofLines file (.replacing found []) rest
    else ofLines file (.searching (found ++ [line])) rest
  | .replacing found given, line :: rest =>
    if trim line = replaceMarker then
      (file.map fun name => ⟨name, join "\n" found, join "\n" given⟩).toList ++
        ofLines file .between rest
    else ofLines file (.replacing found (given ++ [line])) rest

/-- **The edit steps written in a text**, in order. A block without a file name in force, or without
its closing marker, gives no step. -/
def parse (t : Text) : List EditStep :=
  ofLines none .between ((lines t).map (dropEnd (· = '\r')))

/-! ### Applying a step -/

/-- A text with a carriage return before each line feed. -/
def withReturns (t : Text) : Text := t.flatMap fun c => if c = '\n' then ['\r', '\n'] else [c]

/-- The text with the first occurrence of a pattern replaced. -/
def replaceFirst? (pat new t : Text) : Option Text :=
  (cut pat t).map fun (before, after) => before ++ new ++ after

/-- A text put at the end of another, on a line of its own. -/
def append (addition t : Text) : Text :=
  (if t.isEmpty || endsWith "\n" t then t else t ++ "\n") ++ addition ++ "\n"

/-- **A step applied to the content of its file.** It fails if the text to find does not occur. -/
def apply (step : EditStep) (content : Text) : Option Text :=
  if step.search.isEmpty then some (append step.replacement content)
  else (replaceFirst? step.search step.replacement content).orElse fun _ =>
    if occurs "\r\n" content then
      replaceFirst? (withReturns step.search) (withReturns step.replacement) content
    else none

end EditStep

end BuildMender
