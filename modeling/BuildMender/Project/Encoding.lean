import BuildMender.Convention.Encoding
import BuildMender.Project

/-!
# Projects in JSON

A project describes itself in a JSON file. Every field of the description has a default; of a preset
only the name and the command to clean may be missing.
-/

namespace BuildMender

open Json

namespace Preset

/-- The names of the fields, in order. -/
def fieldNames : List Text := ["id", "name", "configure", "build", "clean", "build_dir"]

/-- A preset as an object. -/
def toJson (p : Preset) : Json :=
  .object (fieldNames.zip [.string p.id, .string p.name, .string p.configure, .string p.build,
    ofOption .string p.clean, .path p.buildDir])

/-- A preset read from its fields. -/
def ofJson? (j : Json) : Option Preset := do
  match ← parts? fieldNames j with
  | [id, name, configure, build, clean, dir] =>
    return { id := ← required? text? id
             name := ← defaulted? [] text? name
             configure := ← required? text? configure
             build := ← required? text? build
             clean := ← defaulted? none (nullable? text?) clean
             buildDir := ⟨← required? text? dir⟩ }
  | _ => none

end Preset

namespace Dependency.Roots

/-- Places as an object with a field for each that is known. -/
def toJson (r : Roots) : Json := .object (r.entries.map fun e => (e.1.label, .path e.2))

/-- Places read from an object, whose names have to be those of packages; the last of two fields with
one name counts. -/
def ofJson? : Json → Option Roots
  | .object fields =>
    (fields.mapM fun (name, j) => do
      let k ← ofLabel? name
      let t ← text? j
      return (k, (⟨t⟩ : Path))).map ofEntries
  | _ => none

end Dependency.Roots

namespace Project

/-- The names of the fields, in order. -/
def fieldNames : List Text := ["presets", "dependencies", "deps_dir", "conventions", "template"]

/-- A description as an object. -/
def toJson (c : Project) : Json :=
  .object (fieldNames.zip [.array (c.presets.map Preset.toJson), c.dependencies.toJson,
    .string c.depsDir, c.conventions.toJson, .string c.template])

/-- **A description read from its fields.** -/
def ofJson? (j : Json) : Option Project := do
  match ← parts? fieldNames j with
  | [presets, dependencies, depsDir, conventions, template] =>
    let c : Project := {}
    return { presets := ← defaulted? c.presets (list? Preset.ofJson?) presets
             dependencies := ← defaulted? c.dependencies Dependency.Roots.ofJson? dependencies
             depsDir := ← defaulted? c.depsDir text? depsDir
             conventions := ← defaulted? c.conventions Convention.Settings.ofJson? conventions
             template := ← defaulted? c.template text? template }
  | _ => none

end Project

end BuildMender
