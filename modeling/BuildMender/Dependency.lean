import BuildMender.Path

/-!
# Dependency roots

A plugin project cares about five external packages. Where each of them lies is a path, and a project
knows some of the five paths: that is `Dependency.Roots`. Two such maps are compared package by
package, including those that only one side knows; paths count by their components.
-/

namespace BuildMender

/-- An external package. -/
inductive Dependency where
  /-- The sources of the host application's development kit. -/
  | sdkSource
  /-- The user interface toolkit. -/
  | uiToolkit
  /-- The core module of that toolkit. -/
  | uiToolkitCore
  /-- The host's library for front ends. -/
  | frontendApi
  /-- The host's core library. -/
  | coreLibrary
deriving DecidableEq, Inhabited

namespace Dependency

/-- All packages, in order. -/
def all : List Dependency := [.sdkSource, .uiToolkit, .uiToolkitCore, .frontendApi, .coreLibrary]

theorem mem_all (k : Dependency) : k ∈ all := by cases k <;> decide

/-- The name of a package in configurations and reports. -/
def label : Dependency → Text
  | .sdkSource => "sdk_source"
  | .uiToolkit => "ui_toolkit"
  | .uiToolkitCore => "ui_toolkit_core"
  | .frontendApi => "frontend_api"
  | .coreLibrary => "core_library"

/-- The name of a package's entry in a build cache. -/
def cacheKey : Dependency → Text
  | .sdkSource => "OBS_SOURCE_DIR"
  | .uiToolkit => "Qt6_DIR"
  | .uiToolkitCore => "Qt6Core_DIR"
  | .frontendApi => "obs-frontend-api_DIR"
  | .coreLibrary => "libobs_DIR"

/-- The package of a name. -/
def ofLabel? (name : Text) : Option Dependency := all.find? fun k => k.label == name

/-- The package of a cache entry. -/
def ofCacheKey? (name : Text) : Option Dependency := all.find? fun k => k.cacheKey == name

/-- Where the packages lie, as far as it is known. -/
def Roots := Dependency → Option Path

namespace Roots

/-- Nothing is known. -/
def empty : Roots := fun _ => none

instance : Inhabited Roots := ⟨empty⟩

/-- A package's place put in. -/
def set (r : Roots) (k : Dependency) (p : Option Path) : Roots := fun k' => if k' = k then p else r k'

/-- The packages whose place is known, in order, with that place. -/
def entries (r : Roots) : List (Dependency × Path) := all.filterMap fun k => (r k).map fun p => (k, p)

/-- The places given by a list, a later entry over an earlier one. -/
def ofEntries (es : List (Dependency × Path)) : Roots := es.foldl (fun r e => r.set e.1 (some e.2)) empty

/-- Nothing is known of any package. -/
def isEmpty (r : Roots) : Bool := r.entries.isEmpty

end Roots

/-! ### Comparison -/

/-- The same place, or none on either side. -/
def samePlace : Option Path → Option Path → Bool
  | none, none => true
  | some a, some b => a.same b
  | _, _ => false

/-- The two places of a package on which two maps disagree. -/
structure Difference where
  configured : Option Path
  cached : Option Path
deriving DecidableEq, Inhabited

/-- The packages on which two maps disagree. -/
def Comparison := Dependency → Option Difference

/-- No disagreement. -/
def Comparison.none : Comparison := fun _ => Option.none

instance : Inhabited Comparison := ⟨Comparison.none⟩

/-- **The disagreements of two maps**: the packages whose places differ, with both places. -/
def compare (configured cached : Roots) : Comparison := fun k =>
  if samePlace (configured k) (cached k) then none else some ⟨configured k, cached k⟩

namespace Comparison

/-- The packages in disagreement, in order. -/
def entries (c : Comparison) : List (Dependency × Difference) :=
  all.filterMap fun k => (c k).map fun d => (k, d)

/-- Whether there is any disagreement. -/
def hasChanges (c : Comparison) : Bool := !c.entries.isEmpty

end Comparison

end Dependency

end BuildMender
