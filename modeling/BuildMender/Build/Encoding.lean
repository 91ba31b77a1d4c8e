import BuildMender.Build
import BuildMender.Diagnostic.Encoding

/-!
# Build results in JSON

A duration is written as whole seconds and nanoseconds, and a result without a dependency check is
written without that field.
-/

namespace BuildMender

open Json

/-- What a dependency cache says, as an object. -/
def Dependency.CacheReport.toJson (r : CacheReport) : Json :=
  .object [("success", .bool r.success),
    ("dependencies", .object (r.roots.entries.map fun e => (e.1.label, .path e.2))),
    ("warnings", texts r.warnings), ("errors", texts r.errors)]

/-- A comparison of places as an object. -/
def Dependency.Comparison.toJson (c : Comparison) : Json :=
  .object [("has_changes", .bool c.hasChanges),
    ("differences", .object (c.entries.map fun e =>
      (e.1.label, .object [("current", ofOption .path e.2.configured),
        ("cache", ofOption .path e.2.cached)])))]

/-- A dependency check as an object. -/
def DependencyCheck.toJson (c : DependencyCheck) : Json :=
  .object [("cache", c.cache.toJson), ("path_warnings", texts c.placeWarnings),
    ("comparison", c.comparison.toJson)]

namespace BuildResult

/-- A duration in milliseconds as an object. -/
def durationJson (ms : Nat) : Json :=
  .object [("secs", .nat (ms / 1000)), ("nanos", .nat (ms % 1000 * 1000000))]

/-- The fields of a result before and after its duration. -/
def fields (r : BuildResult) : Fields × Fields :=
  ([("success", .bool r.success), ("exit_code", .number r.exitCode), ("stdout", .string r.stdout),
      ("stderr", .string r.stderr)],
    [("diagnostics", Diagnostic.listToJson r.diagnostics), ("preset_id", .string r.presetId),
      ("action", .string r.action.label), ("command", .string r.command),
      ("termination", .string r.termination.label)])

/-- **A result as an object.** -/
def toJson (r : BuildResult) : Json :=
  .record [r.fields.1, [("duration", durationJson r.duration)], r.fields.2,
    optionalField "dependency_check" DependencyCheck.toJson r.dependencyCheck]

end BuildResult

end BuildMender
