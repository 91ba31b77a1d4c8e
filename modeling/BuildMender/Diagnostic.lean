import BuildMender.Convention
import BuildMender.Text.Case

/-!
# Diagnostics

A diagnostic is one message of a compiler, a linker or the build configuration, in one form for all
tools: where it points, how bad it is, what it says, the line it came from, and which tool's way of
writing the line was in. A message that hints at a broken convention carries the violation.

Build tools have many words for how bad a message is. Three levels are left here: whatever mentions
an error or a fatality is an error, whatever mentions a warning is a warning, and all else informs.
-/

namespace BuildMender

/-! ### Severity -/

/-- How bad a message is. -/
inductive Severity where
  | error
  | warning
  | info
deriving DecidableEq, Inhabited

namespace Severity

/-- The level a tool's word stands for. -/
def ofWord (word : Text) : Severity :=
  let w := Text.lowercase word
  if Text.occurs "error" w || Text.occurs "fatal" w then .error
  else if Text.occurs "warn" w then .warning
  else .info

/-- The word for a level. -/
def label : Severity → Text
  | .error => "error"
  | .warning => "warning"
  | .info => "info"

end Severity

/-! ### Messages -/

/-- The ways in which tools write a message on a line. -/
inductive Dialect where
  | gcc
  | msvc
  | cmake
  | linker
deriving DecidableEq, Inhabited

/-- The word for a dialect. -/
def Dialect.label : Dialect → Text
  | .gcc => "gcc"
  | .msvc => "msvc"
  | .cmake => "cmake"
  | .linker => "linker"

/-- One message of a build tool. -/
structure Diagnostic where
  /-- The file it points at. -/
  file : Text
  /-- The line it points at, counted from 1. -/
  line : UInt32
  /-- The column it points at, counted from 1. -/
  column : UInt32
  severity : Severity
  message : Text
  /-- The line of the log that it was read from. -/
  raw : Text
  dialect : Dialect
  /-- The convention whose violation the message hints at. -/
  violation : Option Violation
deriving DecidableEq, Inhabited

namespace Diagnostic

/-- Whether a diagnostic is an error. -/
def isError (d : Diagnostic) : Bool := d.severity == .error

/-- The numeral of a line or column. -/
def numeral (n : UInt32) : Text := Text.decimal n.toNat

/-- A diagnostic on one line: the place, the level, the message. -/
def display (d : Diagnostic) : Text :=
  d.file ++ ":" ++ numeral d.line ++ ":" ++ numeral d.column ++ " - " ++ d.severity.label ++ ": " ++
    d.message

end Diagnostic

end BuildMender
