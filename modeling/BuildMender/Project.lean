import BuildMender.Convention.Check
import BuildMender.Dependency
import BuildMender.Preset
import BuildMender.Prompt

/-!
# Projects

What a project says about itself: its presets, where its dependencies lie, its conventions, and the
template that picks the prompts. A project that says nothing has the defaults.

`Project.flaw?` finds the first thing wrong with such a description, going through the presets in order
before the rest. A description without a flaw has presets with different, non-blank ids and commands
that are not blank, a known template, and a header suffix that is more than dots.
-/

namespace BuildMender

/-- What a project says about itself. -/
structure Project where
  presets : List Preset :=
    [.standard "macos" "macOS Universal" "build_macos",
      .standard "windows-x64" "Windows x64" "build_x64",
      .standard "linux-x86_64" "Linux x86_64" "build_x86_64"]
  /-- Where the dependencies lie, as far as it is configured. -/
  dependencies : Dependency.Roots := .empty
  /-- Where downloaded dependencies go, from the root of the project. -/
  depsDir : Text := ".deps"
  conventions : Convention.Settings := {}
  /-- The name of the template that picks the prompts. -/
  template : Text := Prompt.defaultTemplate
deriving Inhabited

namespace Project

/-- The file a project describes itself in. -/
def fileName : Text := "plugwright.json"

/-! ### Flaws -/

/-- What can be wrong with a description. -/
inductive Flaw where
  | blankId
  | duplicateId (id : Text)
  | missingCommand (id : Text)
  | unknownTemplate (name : Text)
  | emptySuffix
deriving DecidableEq

/-- What is wrong, in words. -/
def Flaw.message : Flaw → Text
  | .blankId => "Preset id cannot be empty"
  | .duplicateId id => "Duplicate preset id: " ++ id
  | .missingCommand id => "Preset " ++ id ++ " needs configure and build commands"
  | .unknownTemplate name =>
    "Unknown template \x27" ++ name ++ "\x27 (expected one of: " ++ Text.join ", " Prompt.templates ++ ")"
  | .emptySuffix => "Header suffix cannot be empty"

/-- The first flaw of some presets, where the ids `seen` are taken. -/
def presetFlaw? (seen : List Text) : List Preset → Option Flaw
  | [] => none
  | p :: more =>
    if (Text.trim p.id).isEmpty then some .blankId
    else if seen.contains p.id then some (.duplicateId p.id)
    else if (Text.trim p.configure).isEmpty || (Text.trim p.build).isEmpty then
      some (.missingCommand p.id)
    else presetFlaw? (p.id :: seen) more

/-- **The first flaw of a description.** -/
def flaw? (c : Project) : Option Flaw :=
  match presetFlaw? [] c.presets with
  | some flaw => some flaw
  | none =>
    if (Prompt.ofTemplate? c.template).isNone then some (.unknownTemplate c.template)
    else if c.conventions.suffix.isEmpty then some .emptySuffix
    else none

/-! ### Presets -/

/-- The preset with a given id. -/
def preset? (c : Project) (id : Text) : Option Preset := c.presets.find? fun p => p.id == id

/-- What the id of this platform's presets has in it. -/
def platform : Text := "linux"

/-- The first preset for this platform, or else the first of all. -/
def defaultPreset? (c : Project) : Option Preset :=
  (c.presets.find? fun p => Text.occurs platform p.id).orElse fun _ => c.presets.head?

end Project

end BuildMender
