import BuildMender.FileView
import BuildMender.Json.Reader
import BuildMender.Json.Record
import BuildMender.Project
import BuildMender.Request
import BuildMender.Text.Line
import BuildMender.Text.Utf8
import BuildMender.ToolSettings

/-!
# Assembling an envelope

An assembler knows a project, its root, a view of its files, and two limits: how many diagnostics are
listed in a prompt and how many characters of a build log are sent along. From a request it makes the
envelope for the backend.

A file comes with a window of lines around the cursor (`Assembler.snippet?`), and with the beginning
of its counterpart, the header of an implementation or the other way round.
-/

namespace BuildMender

open Text

/-- What it takes to assemble an envelope. -/
structure Assembler where
  files : FileView
  root : Path
  project : Project
  maxDiagnostics : Nat
  maxLogChars : Nat

namespace Assembler

/-- An assembler with the limits of the settings. -/
def ofSettings (files : FileView) (root : Path) (project : Project) (s : ToolSettings) : Assembler :=
  ⟨files, root, project, s.maxPromptDiagnostics, s.maxLogChars⟩

/-! ### Cutting text -/

/-- The text up to the byte with which the character behind the first `max` ones begins, and whether there
is such a character. -/
def truncate? (max : Nat) (t : Text) : Option (Text × Bool) :=
  match (offsets t)[max]? with
  | some n => (cutAtByte? n t).map fun p => (p.1, true)
  | none => some (t, false)

/-- The text from the byte on with which the first of the last `max` characters begins. -/
def tail? (max : Nat) (t : Text) : Option Text :=
  if t.length ≤ max then some t
  else
    match (offsets t)[t.length - max]? with
    | some n => (cutAtByte? n t).map (·.2)
    | none => some []

/-- The first `max` characters, and whether there are more. The byte where the text is cut always begins a
character. -/
def truncate (max : Nat) (t : Text) : Text × Bool := (truncate? max t).getD ([], false)

/-- The last `max` characters. Here too the byte always begins a character. -/
def tail (max : Nat) (t : Text) : Text := (tail? max t).getD []

/-! ### Prompts -/

/-- The values of the holes in a prompt. -/
def holes (a : Assembler) (presetId : Option Text) : List (Text × Text) :=
  let preset := (presetId.bind a.project.preset?).orElse fun _ => a.project.defaultPreset?
  let c := a.project.conventions
  [("preset", ((preset.map Preset.displayName).orElse fun _ => presetId).getD "default"),
    ("build_dir", (preset.map fun p => p.buildDir.text).getD "build"),
    ("dependency_root", a.project.depsDir),
    ("ui_dir", c.interfaceDir),
    ("header_suffix", c.suffix),
    ("include_guard", c.includeGuard)]

/-- The system prompt for an intent. An unknown template counts as the default. -/
def systemPrompt (a : Assembler) (intent : Intent) (presetId : Option Text) : Text :=
  let prompt := (Prompt.ofTemplate? a.project.template).getD .plugin
  let template := match intent with
    | .fix => prompt.fix
    | .compile | .assist => prompt.general
  Template.interpolate (Template.ofPairs (a.holes presetId)) template

/-- The heading above the diagnostics in a prompt. -/
def heading : Intent → Text
  | .fix => "Build errors:"
  | .compile | .assist => "Build diagnostics:"

/-- The question, and the diagnostics unless there are none or only help is wanted. -/
def userPrompt (a : Assembler) (r : Request) : Text :=
  trim r.question ++
    if r.diagnostics.isEmpty || r.intent == .assist then []
    else ("\n\n" ++ heading r.intent ++ "\n" ++ Request.listing a.maxDiagnostics r.diagnostics : Text)

/-! ### Pieces of files -/

/-- A path taken from the root. -/
def resolve (a : Assembler) (p : Path) : Path := if p.isAbsolute then p else a.root.join p

/-- A path as it is shown: from the root if it lies below it, with slashes. -/
def shown (a : Assembler) (p : Path) : Text :=
  replace '\\' '/' ((a.root.relativeTo? p).getD p).text

/-- How many lines are shown on each side of the cursor. -/
def radius : UInt32 := 10

/-- The window of lines around a cursor in a file of `total` lines: the first and the last line. -/
def window (total line : UInt32) : UInt32 × UInt32 :=
  let last := if total = 0 then 1 else total
  let cursor := if line < 1 then 1 else if last < line then last else line
  let start := if cursor ≤ radius then 1 else cursor - radius
  let finish := if cursor + radius ≤ total then cursor + radius else total
  (start, finish)

/-- **The lines around the cursor**, or nothing if the file cannot be read. -/
def snippet? (a : Assembler) (p : Path) (line : UInt32) : Option FileContext :=
  match a.files.read p with
  | .error _ => none
  | .ok content =>
    let ls := lines content
    let total := UInt32.ofNat ls.length
    let (start, finish) := window total line
    let shownLines := (ls.take finish.toNat).drop (start.toNat - 1)
    some
      { path := a.shown p
        kind := SourceFile.kind a.project.conventions.interfaceDir p
        content := join "\n" shownLines
        startLine := start
        endLine := if finish < start then start else finish
        truncated := 1 < start || finish < total }

/-- How many characters of a counterpart are shown. -/
def siblingChars : Nat := 1000

/-- The beginning of the first counterpart that is a file, if it can be read. -/
def sibling? (a : Assembler) (p : Path) : Option FileContext :=
  ((SourceFile.siblings p).find? a.files.isFile).bind fun q =>
    match a.files.read q with
    | .error _ => none
    | .ok content =>
      let (content, truncated) := truncate siblingChars content
      let n := (lines content).length
      some
        { path := a.shown q
          kind := SourceFile.kind a.project.conventions.interfaceDir q
          content := content
          startLine := 1
          endLine := if n = 0 then 1 else UInt32.ofNat n
          truncated := truncated }

/-- The pieces of files that go with a request. -/
def fileContext (a : Assembler) (r : Request) : List FileContext :=
  match r.activeFile with
  | none => []
  | some active =>
    let p := a.resolve active.path
    match a.snippet? p active.line with
    | none => []
    | some snippet => snippet :: (a.sibling? p).toList

/-! ### The project -/

/-- The directories that are looked for as places of a build. -/
def buildDirCandidates : List Text :=
  ["build_macos", "build_x64", "build_x86_64", "build_aarch64", "build"]

/-- The name of a preset in the build tool's list. -/
def manifestName? (j : Json) : Option Text :=
  match Json.parts? ["name"] j with
  | some [name] => Json.required? Json.text? name
  | _ => none

/-- The names in the build tool's list of presets, none if the list cannot be read. -/
def manifestNames (content : Text) : List Text :=
  match (Json.parse content).bind (Json.parts? ["configurePresets"]) with
  | some [presets] => (Json.defaulted? [] (Json.list? manifestName?) presets).getD []
  | _ => []

/-- The presets that the build tool's list names. -/
def manifestPresets (a : Assembler) : List Text :=
  let path := a.root.join ⟨SourceFile.presetList⟩
  if a.files.isFile path then
    match a.files.read path with
    | .ok content => manifestNames content
    | .error _ => []
  else []

/-- The summary of the project. -/
def projectStructure (a : Assembler) : ProjectStructure where
  buildDirs := buildDirCandidates.filter fun n => a.files.isDirectory (a.root.join ⟨n⟩)
  presets := a.manifestPresets
  interfaceDir := a.project.conventions.interfaceDir
  depsDir := a.project.depsDir

/-- **The envelope of a request.** A blank build log is left out. -/
def assemble (a : Assembler) (r : Request) : Envelope where
  intent := r.intent
  systemPrompt := a.systemPrompt r.intent r.presetId
  userPrompt := a.userPrompt r
  fileContext := a.fileContext r
  buildLog := (r.buildLog.filter fun log => !allBlank log).map (tail a.maxLogChars)
  conventions := a.project.conventions
  projectStructure := a.projectStructure

end Assembler

end BuildMender
