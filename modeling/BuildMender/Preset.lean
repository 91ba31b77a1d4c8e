import BuildMender.Path

/-!
# Build presets

A preset is a named way to build a project: a command each to configure, to build and, if there is
one, to clean, and the directory that the build goes to. Which of the three is meant is a
`BuildAction`.
-/

namespace BuildMender

/-- A named way to build a project. -/
structure Preset where
  id : Text
  /-- A name to show; empty if there is none. -/
  name : Text := []
  configure : Text
  build : Text
  clean : Option Text := none
  /-- Where the build goes, from the root of the project. -/
  buildDir : Path
deriving DecidableEq, Inhabited

/-- Which command of a preset to run. -/
inductive BuildAction where
  | configure
  | build
  | clean
deriving DecidableEq, Inhabited

/-- The word for an action. -/
def BuildAction.label : BuildAction → Text
  | .configure => "configure"
  | .build => "build"
  | .clean => "clean"

namespace Preset

/-- The name to show: the id if there is no other. -/
def displayName (p : Preset) : Text := if p.name.isEmpty then p.id else p.name

/-- The command of an action. -/
def command? (p : Preset) : BuildAction → Option Text
  | .configure => some p.configure
  | .build => some p.build
  | .clean => p.clean

/-- The preset that hands everything to the build tool's preset of the same name. -/
def standard (id name buildDir : Text) : Preset :=
  { id := id
    name := name
    configure := "cmake --preset " ++ id
    build := "cmake --build --preset " ++ id
    clean := some ("cmake --build --preset " ++ id ++ " --target clean")
    buildDir := ⟨buildDir⟩ }

end Preset

end BuildMender
