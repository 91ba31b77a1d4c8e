import BuildMender.Convention.Encoding
import BuildMender.Diagnostic

/-!
# Diagnostics in JSON

A diagnostic without a violation is written without that field, and a missing or null field is read
as no violation.
-/

namespace BuildMender

open Json

/-- The severity of a word of this library. -/
def Severity.ofLabel? (word : Text) : Option Severity :=
  [Severity.error, .warning, .info].find? fun s => s.label == word

/-- The dialect of a word. -/
def Dialect.ofLabel? (word : Text) : Option Dialect :=
  [Dialect.gcc, .msvc, .cmake, .linker].find? fun d => d.label == word

namespace Diagnostic

/-- The names of the fields, in order. -/
def fieldNames : List Text :=
  ["file", "line", "column", "severity", "message", "raw", "dialect", "violation"]

/-- A diagnostic as an object. -/
def toJson (d : Diagnostic) : Json :=
  .object (fieldNames.zip ([.string d.file, .word d.line, .word d.column, .string d.severity.label,
    .string d.message, .string d.raw, .string d.dialect.label] ++
    (d.violation.map Violation.toJson).toList))

/-- A diagnostic read from its fields. -/
def ofJson? (j : Json) : Option Diagnostic := do
  match ← parts? fieldNames j with
  | [file, line, column, severity, message, raw, dialect, violation] =>
    return { file := ← required? text? file
             line := ← required? word? line
             column := ← required? word? column
             severity := ← (← required? text? severity) |> Severity.ofLabel?
             message := ← required? text? message
             raw := ← required? text? raw
             dialect := ← (← required? text? dialect) |> Dialect.ofLabel?
             violation := ← defaulted? none (nullable? Violation.ofJson?) violation }
  | _ => none

/-- Diagnostics as an array. -/
def listToJson (ds : List Diagnostic) : Json := .array (ds.map toJson)

end Diagnostic

end BuildMender
