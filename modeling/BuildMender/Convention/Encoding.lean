import BuildMender.Convention
import BuildMender.Json.Record

/-!
# Conventions and violations in JSON

The fields of convention settings all have defaults, so each of them may be missing.
-/

namespace BuildMender

open Json

namespace Convention

/-- The convention of a word. -/
def ofLabel? (word : Text) : Option Convention := all.find? fun k => k.label == word

namespace Settings

/-- The names of the fields, in order. -/
def fieldNames : List Text :=
  ["header_suffix", "include_guard", "ui_dir", "meta_object_prefix", "enforce_header_suffix",
    "enforce_include_guard", "enforce_ui_dir", "enforce_meta_object_include"]

/-- Settings as an object. -/
def toJson (s : Settings) : Json :=
  .object (fieldNames.zip
    [.string s.headerSuffix, .string s.includeGuard, .string s.interfaceDir,
      .string s.metaObjectPrefix, .bool s.checkHeaderSuffix, .bool s.checkIncludeGuard,
      .bool s.checkInterfaceDir, .bool s.checkMetaObjectInclude])

/-- Settings read from their fields. -/
def ofJson? (j : Json) : Option Settings := do
  match ← parts? fieldNames j with
  | [suffix, guard, dir, pre, a, b, c, d] =>
    let s : Settings := {}
    return { headerSuffix := ← defaulted? s.headerSuffix text? suffix
             includeGuard := ← defaulted? s.includeGuard text? guard
             interfaceDir := ← defaulted? s.interfaceDir text? dir
             metaObjectPrefix := ← defaulted? s.metaObjectPrefix text? pre
             checkHeaderSuffix := ← defaulted? true bool? a
             checkIncludeGuard := ← defaulted? true bool? b
             checkInterfaceDir := ← defaulted? true bool? c
             checkMetaObjectInclude := ← defaulted? true bool? d }
  | _ => none

end Settings

end Convention

namespace Violation

/-- The names of the fields, in order. -/
def fieldNames : List Text := ["kind", "suggestion", "auto_fixable"]

/-- A violation as an object. -/
def toJson (v : Violation) : Json :=
  .object (fieldNames.zip [.string v.kind.label, .string v.suggestion, .bool v.autoFixable])

/-- A violation read from its fields. -/
def ofJson? (j : Json) : Option Violation := do
  match ← parts? fieldNames j with
  | [kind, suggestion, fixable] =>
    return ⟨← (← required? text? kind) |> Convention.ofLabel?, ← required? text? suggestion,
      ← required? bool? fixable⟩
  | _ => none

end Violation

end BuildMender
