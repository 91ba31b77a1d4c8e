import BuildMender.Disk
import BuildMender.Json.Reader
import BuildMender.Project.Encoding

/-!
# Loading a project

The description of a project lies in a file in its root. Where there is no such file the project has
the defaults; where there is one it has to be readable, well formed, and without a flaw.
-/

namespace BuildMender.Project

/-- The text about a flaw of a configuration. -/
def invalid (flaw : Text) : Text := "Configuration validation failed: " ++ flaw

/-- The text about a preset that is not there. -/
def unknownPreset (id : Text) : Text := "Unknown preset: " ++ id

/-- Why a description cannot be loaded. -/
inductive LoadError where
  | unreadable (path : Path) (error : FileError)
  | unparsable (path : Path)
  | flawed (flaw : Flaw)
deriving DecidableEq

/-- What is wrong, in words. -/
def LoadError.message : LoadError → Text
  | .unreadable path error => "Failed to read " ++ path.text ++ ": " ++ error.message
  | .unparsable path => "Failed to parse " ++ path.text ++ ": malformed project description"
  | .flawed flaw => invalid flaw.message

/-- **The description in the text of a file.** -/
def ofText (path : Path) (t : Text) : Except LoadError Project :=
  match (Json.parse t).bind ofJson? with
  | none => .error (.unparsable path)
  | some c =>
    match c.flaw? with
    | some f => .error (.flawed f)
    | none => .ok c

/-- **The description of the project at a root.** -/
def load (disk : Disk) (root : Path) : Except LoadError Project :=
  let path := root.join ⟨fileName⟩
  if disk.has path then
    match disk.readText path with
    | .ok t => ofText path t
    | .error e => .error (.unreadable path e)
  else .ok {}

end BuildMender.Project
