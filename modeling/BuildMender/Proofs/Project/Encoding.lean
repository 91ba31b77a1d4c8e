import BuildMender.Project.Encoding
import BuildMender.Proofs.Dependency
import BuildMender.Proofs.Json.Pretty
import BuildMender.Proofs.Json.Record

/-!
# Descriptions of projects read back

A description that is written as JSON is read back as it was, and fields that are left out of what is
written stand for their defaults (`BuildMender.Project.description_read_back`). There are three levels at which
fields may be left out, and what is left out at one of them has no say at the others: a project without its
conventions has the default conventions, while conventions without their suffix have the default suffix and
keep the rest.

`BuildMender.Project.Omission` says which fields are left out, `BuildMender.Project.Omission.applied` takes
them out of the JSON, and `BuildMender.Project.Omission.reset` puts the defaults in their place.
-/

namespace BuildMender

open Json

/-! ### Conventions -/

namespace Convention.Settings

variable (left : List Text) (s : Settings)

/-- Settings with the defaults in some fields. -/
def reset : Settings :=
  let d : Settings := {}
  { headerSuffix := orDefault left "header_suffix" d.headerSuffix s.headerSuffix
    includeGuard := orDefault left "include_guard" d.includeGuard s.includeGuard
    interfaceDir := orDefault left "ui_dir" d.interfaceDir s.interfaceDir
    metaObjectPrefix := orDefault left "meta_object_prefix" d.metaObjectPrefix s.metaObjectPrefix
    checkHeaderSuffix := orDefault left "enforce_header_suffix" d.checkHeaderSuffix s.checkHeaderSuffix
    checkIncludeGuard := orDefault left "enforce_include_guard" d.checkIncludeGuard s.checkIncludeGuard
    checkInterfaceDir := orDefault left "enforce_ui_dir" d.checkInterfaceDir s.checkInterfaceDir
    checkMetaObjectInclude :=
      orDefault left "enforce_meta_object_include" d.checkMetaObjectInclude s.checkMetaObjectInclude }

theorem reset_nil : s.reset [] = s := by
  simp [reset, orDefault]

theorem nodup_fieldNames : fieldNames.Nodup := by decide

theorem ofJson?_without : ofJson? (without left s.toJson) = some (s.reset left) := by
  have hparts := parts?_without nodup_fieldNames [.string s.headerSuffix, .string s.includeGuard,
    .string s.interfaceDir, .string s.metaObjectPrefix, .bool s.checkHeaderSuffix, .bool s.checkIncludeGuard,
    .bool s.checkInterfaceDir, .bool s.checkMetaObjectInclude] rfl left
  rw [← toJson] at hparts
  rw [ofJson?, hparts]
  simp only [fieldNames, List.zipWith_cons_cons, List.zipWith_nil_left, Option.bind_eq_bind, Option.bind_some,
    defaulted?_text, defaulted?_bool]
  rfl

theorem isReadable_toJson : s.toJson.IsReadable := by
  refine isReadable_zip fun v hv => ?_
  simp only [List.mem_cons, List.not_mem_nil, or_false] at hv
  rcases hv with rfl | rfl | rfl | rfl | rfl | rfl | rfl | rfl <;> constructor

end Convention.Settings

/-! ### Presets -/

namespace Preset

/-- The names of the fields that may be missing. -/
def optionalNames : List Text := ["name", "clean"]

/-- A preset with the defaults in some fields. -/
def reset (left : List Text) (p : Preset) : Preset :=
  { p with
    name := orDefault left "name" [] p.name
    clean := orDefault left "clean" none p.clean }

theorem reset_nil (p : Preset) : p.reset [] = p := by
  simp [reset, orDefault]

theorem nodup_fieldNames : fieldNames.Nodup := by decide

theorem ofJson?_without {left : List Text} (h : left ⊆ optionalNames) (p : Preset) :
    ofJson? (without left p.toJson) = some (p.reset left) := by
  have hparts := parts?_without nodup_fieldNames [.string p.id, .string p.name, .string p.configure,
    .string p.build, ofOption .string p.clean, .path p.buildDir] rfl left
  -- what has no default is there
  have hkept : ("id" : Text) ∉ left ∧ ("configure" : Text) ∉ left ∧ ("build" : Text) ∉ left ∧
      ("build_dir" : Text) ∉ left := by
    have hnot : ("id" : Text) ∉ optionalNames ∧ ("configure" : Text) ∉ optionalNames ∧
        ("build" : Text) ∉ optionalNames ∧ ("build_dir" : Text) ∉ optionalNames := by decide
    exact ⟨fun hm => hnot.1 (h hm), fun hm => hnot.2.1 (h hm), fun hm => hnot.2.2.1 (h hm),
      fun hm => hnot.2.2.2 (h hm)⟩
  have hclean : nullable? text? (ofOption .string p.clean) = some p.clean := by
    cases p.clean <;> rfl
  rw [← toJson] at hparts
  rw [ofJson?, hparts]
  simp only [fieldNames, List.zipWith_cons_cons, List.zipWith_nil_left, Option.bind_eq_bind, Option.bind_some,
    defaulted?_text, defaulted?_of_some hclean, if_neg hkept.1, if_neg hkept.2.1, if_neg hkept.2.2.1,
    if_neg hkept.2.2.2]
  rfl

theorem isReadable_toJson (p : Preset) : p.toJson.IsReadable := by
  refine isReadable_zip fun v hv => ?_
  simp only [List.mem_cons, List.not_mem_nil, or_false] at hv
  rcases hv with rfl | rfl | rfl | rfl | rfl | rfl
  case inr.inr.inr.inr.inl => cases p.clean <;> constructor
  all_goals constructor

/-- Presets are read back one by one, each with what was left out of it. -/
theorem list?_ofJson? {left : Nat → List Text} (h : ∀ i, left i ⊆ optionalNames) (ps : List Preset) :
    list? ofJson? (revisedItems (fun i => without (left i)) (.array (ps.map toJson))) =
      some (ps.mapIdx fun i p => p.reset (left i)) := by
  change ((ps.map toJson).mapIdx fun i => without (left i)).mapM ofJson? = _
  induction ps generalizing left with
  | nil => rfl
  | cons p ps ih =>
    rw [List.map_cons, List.mapIdx_cons, List.mapM_cons, ofJson?_without (h 0), ih fun i => h (i + 1),
      List.mapIdx_cons]
    rfl

end Preset

/-! ### Places of dependencies -/

namespace Dependency

theorem ofLabel?_label (k : Dependency) : ofLabel? k.label = some k := by
  cases k <;> decide

theorem Roots.ofJson?_toJson (r : Roots) : Roots.ofJson? r.toJson = some r := by
  have hfields : (r.entries.map fun e => (e.1.label, Json.path e.2)).mapM (fun (name, j) => do
      let k ← ofLabel? name
      let t ← text? j
      return (k, (⟨t⟩ : Path))) = some r.entries := by
    induction r.entries with
    | nil => rfl
    | cons e es ih => rw [List.map_cons, List.mapM_cons, ih]; simp [ofLabel?_label, Json.path, text?]
  rw [toJson, ofJson?, hfields, Option.map_some, Roots.ofEntries_entries]

theorem Roots.isReadable_toJson (r : Roots) : r.toJson.IsReadable := by
  refine .object fun f hf => ?_
  obtain ⟨e, -, rfl⟩ := List.mem_map.mp hf
  exact .string _

end Dependency

/-! ### Descriptions -/

namespace Project

theorem nodup_fieldNames : fieldNames.Nodup := by decide

theorem isReadable_toJson (c : Project) : c.toJson.IsReadable := by
  refine isReadable_zip fun v hv => ?_
  simp only [List.mem_cons, List.not_mem_nil, or_false] at hv
  rcases hv with rfl | rfl | rfl | rfl | rfl
  · refine .array fun v hv => ?_
    obtain ⟨p, -, rfl⟩ := List.mem_map.mp hv
    exact p.isReadable_toJson
  · exact c.dependencies.isReadable_toJson
  · exact .string _
  · exact c.conventions.isReadable_toJson
  · exact .string _

/-- **Fields left out of a description**, by their names: fields of the project itself, of its conventions, and
of each of its presets. Of a preset only those may be left out that have a default. -/
structure Omission where
  project : List Text := []
  conventions : List Text := []
  /-- The fields left out of each preset, by its place among the presets. -/
  preset : Nat → List Text := fun _ => []
  preset_subset : ∀ i, preset i ⊆ Preset.optionalNames := by simp

namespace Omission

variable (o : Omission)

/-- **The JSON of a description without the fields that are left out.** -/
def applied (j : Json) : Json :=
  without o.project (revised "conventions" (without o.conventions)
    (revised "presets" (revisedItems fun i => without (o.preset i)) j))

/-- **A description with the defaults in place of the fields that are left out.** -/
def reset (c : Project) : Project :=
  let d : Project := {}
  { presets := orDefault o.project "presets" d.presets (c.presets.mapIdx fun i p => p.reset (o.preset i))
    dependencies := orDefault o.project "dependencies" d.dependencies c.dependencies
    depsDir := orDefault o.project "deps_dir" d.depsDir c.depsDir
    conventions := orDefault o.project "conventions" d.conventions (c.conventions.reset o.conventions)
    template := orDefault o.project "template" d.template c.template }

theorem applied_toJson (c : Project) : o.applied c.toJson =
    without o.project (.object (fieldNames.zip
      [revisedItems (fun i => without (o.preset i)) (.array (c.presets.map Preset.toJson)),
        c.dependencies.toJson, .string c.depsDir, without o.conventions c.conventions.toJson,
        .string c.template])) := by
  rfl

theorem ofJson?_applied (c : Project) : ofJson? (o.applied c.toJson) = some (o.reset c) := by
  have hparts := parts?_without nodup_fieldNames
    [revisedItems (fun i => without (o.preset i)) (.array (c.presets.map Preset.toJson)),
      c.dependencies.toJson, .string c.depsDir, without o.conventions c.conventions.toJson,
      .string c.template] rfl o.project
  rw [← applied_toJson] at hparts
  rw [ofJson?, hparts]
  simp only [fieldNames, List.zipWith_cons_cons, List.zipWith_nil_left, Option.bind_eq_bind, Option.bind_some,
    defaulted?_text, defaulted?_of_some (Preset.list?_ofJson? o.preset_subset c.presets),
    defaulted?_of_some c.dependencies.ofJson?_toJson, defaulted?_of_some (c.conventions.ofJson?_without _)]
  rfl

theorem isReadable_applied (c : Project) : (o.applied c.toJson).IsReadable := by
  refine IsReadable.without ?_ _
  refine IsReadable.revised ?_ (fun v hv => hv.without _) _
  exact c.isReadable_toJson.revised (fun v hv => hv.revisedItems fun i v hv => hv.without _) _

/-! Where nothing is left out, nothing changes. -/

theorem reset_empty (c : Project) : ({} : Omission).reset c = c := by
  have hpresets : (c.presets.mapIdx fun _ p => p.reset []) = c.presets :=
    List.ext_getElem (by simp) (by simp [Preset.reset_nil])
  simp [reset, orDefault, hpresets, Convention.Settings.reset_nil]

theorem applied_empty (c : Project) : ({} : Omission).applied c.toJson = c.toJson := by
  have hitems (js : List Json) : revisedItems (fun _ => without []) (.array js) = .array js := by
    rw [revisedItems]
    exact congrArg Json.array (List.ext_getElem (by simp) (by simp [without_nil]))
  rw [applied_toJson, without_nil, without_nil, hitems]
  rfl

end Omission

/-- **A description is read back** from the JSON it is written as; and if fields are left out of that JSON, it
is read back with the defaults in their place, and with nothing else changed. -/
theorem description_read_back (c : Project) :
    (parse (pretty c.toJson)).bind ofJson? = some c ∧
    ∀ o : Omission, (parse (pretty (o.applied c.toJson))).bind ofJson? = some (o.reset c) := by
  have hread (o : Omission) : (parse (pretty (o.applied c.toJson))).bind ofJson? = some (o.reset c) := by
    rw [parse_pretty (o.isReadable_applied c), Option.bind_some, o.ofJson?_applied]
  refine ⟨?_, hread⟩
  have hall := hread {}
  rwa [Omission.applied_empty, Omission.reset_empty] at hall

end Project

end BuildMender
