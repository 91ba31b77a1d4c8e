import BuildMender.Build
import BuildMender.SourceFile

/-!
# Requests to the backend

A request says what is wanted, about which file, preset and build, and with which diagnostics. The
backend receives an `Envelope`, in which the request is spelled out as prompts, snippets of files and a
summary of the project. A failed build is turned into a request by `Request.fixFor`.
-/

namespace BuildMender

/-- What is wanted of the backend. -/
inductive Intent where
  /-- To explain a build. -/
  | compile
  /-- To mend a failed build. -/
  | fix
  /-- To help with the project. -/
  | assist
deriving DecidableEq, Inhabited

/-- The word for an intent. -/
def Intent.label : Intent → Text
  | .compile => "compile"
  | .fix => "fix"
  | .assist => "assist"

/-- The intent of a word. -/
def Intent.ofLabel? (word : Text) : Option Intent :=
  [Intent.compile, .fix, .assist].find? fun i => i.label == word

/-- A file and a line in it, counted from 1. -/
structure ActiveFile where
  path : Path
  line : UInt32
deriving DecidableEq, Inhabited

/-- A file and a line in it; line 0 is taken for line 1. -/
def ActiveFile.at (path : Path) (line : UInt32) : ActiveFile := ⟨path, if line = 0 then 1 else line⟩

/-- What is wanted, and about what. -/
structure Request where
  intent : Intent := .assist
  question : Text := []
  activeFile : Option ActiveFile := none
  /-- The preset to describe, this platform's if there is none. -/
  presetId : Option Text := none
  buildLog : Option Text := none
  diagnostics : List Diagnostic := []
deriving Inhabited

/-- A piece of a file. -/
structure FileContext where
  path : Text
  kind : SourceFile.Kind
  content : Text
  startLine : UInt32
  endLine : UInt32
  /-- Whether the file holds more than the piece. -/
  truncated : Bool
deriving DecidableEq, Inhabited

/-- A summary of the project. -/
structure ProjectStructure where
  buildDirs : List Text := []
  /-- The presets that the build tool's own list names. -/
  presets : List Text := []
  interfaceDir : Text := []
  depsDir : Text := []
deriving DecidableEq, Inhabited

/-- What the backend receives. -/
structure Envelope where
  intent : Intent
  systemPrompt : Text
  userPrompt : Text
  fileContext : List FileContext
  buildLog : Option Text
  conventions : Convention.Settings
  projectStructure : ProjectStructure
deriving DecidableEq, Inhabited

namespace Request

/-- The diagnostics with the errors before all others, and otherwise in their order. -/
def errorsFirst (ds : List Diagnostic) : List Diagnostic :=
  ds.filter Diagnostic.isError ++ ds.filter fun d => !d.isError

/-- **The request to mend a failed build.** Its file is the place of the first error. -/
def fixFor (r : BuildResult) : Request :=
  let ds := errorsFirst r.diagnostics
  { intent := .fix
    question := "The " ++ r.action.label ++ " step for preset " ++ r.presetId ++
      " failed with exit code " ++ Text.integer r.exitCode ++ ". Fix the errors below."
    activeFile := (ds.head?.filter Diagnostic.isError).map fun d => .at ⟨d.file⟩ d.line
    presetId := some r.presetId
    buildLog := some r.log
    diagnostics := ds }

/-- The numbered lines of some diagnostics. -/
def numbered (ds : List Diagnostic) : List Text :=
  ds.zipIdx.map fun (d, i) => Text.decimal (i + 1) ++ ". " ++ d.display

/-- **The diagnostics listed in a prompt**: the first `max` of them with their numbers, and how many
more there are. -/
def listing (max : Nat) (ds : List Diagnostic) : Text :=
  Text.join "\n" (numbered (ds.take max) ++
    if max < ds.length then ["... and " ++ Text.decimal (ds.length - max) ++ " more"] else [])

end Request

end BuildMender
