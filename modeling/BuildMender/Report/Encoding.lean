import BuildMender.Build.Encoding
import BuildMender.Fix
import BuildMender.Report

/-!
# Reports in JSON

Fields whose value is missing are left out.
-/

namespace BuildMender

open Json

/-- What became of a commit, as an object. -/
def CommitOutcome.toJson : CommitOutcome → Json
  | .skipped => .object [("status", .string "skipped")]
  | .committed m => .object [("status", .string "committed"), ("message", .string m)]
  | .failed r => .object [("status", .string "failed"), ("reason", .string r)]

/-- Why mending stopped, as an object. -/
def FixOutcome.toJson : FixOutcome → Json
  | .succeeded => .object [("outcome", .string "succeeded")]
  | .iterationsExhausted => .object [("outcome", .string "iterations_exhausted")]
  | .buildInterrupted t =>
    .object [("outcome", .string "build_interrupted"), ("termination", .string t.label)]
  | .backendFailed m => .object [("outcome", .string "backend_failed"), ("message", .string m)]
  | .patchRejected r => .object [("outcome", .string "patch_rejected"), ("reason", .string r)]

/-- An attempt as an object. -/
def FixAttempt.toJson (a : FixAttempt) : Json :=
  .record
    [[("iteration", .nat a.number), ("errors_before", .nat a.errorsBefore)],
      optionalField "patch_id" .string a.patchId,
      optionalField "patch_kind" (fun k => .string k.label) a.patchKind,
      [("non_compliant_files", texts a.nonCompliantFiles), ("applied", .bool a.applied)],
      optionalField "commit" CommitOutcome.toJson a.commit,
      optionalField "errors_after" .nat a.errorsAfter]

/-- **A report on mending a build as an object.** -/
def FixReport.toJson (r : FixReport) : Json :=
  .object [("outcome", r.outcome.toJson), ("iterations", .array (r.attempts.map FixAttempt.toJson)),
    ("final_result", r.finalResult.toJson)]

/-- What a check found in a file, as an object. -/
def FileCheck.toJson (c : FileCheck) : Json :=
  .object [("path", .path c.path), ("violations", .array (c.violations.map Violation.toJson)),
    ("fixed", .bool c.fixed)]

/-- An edit step as an object. -/
def EditStep.toJson (s : EditStep) : Json :=
  .object [("file", .string s.file), ("search", .string s.search), ("replace", .string s.replacement)]

/-- What a patch says, as an object. -/
def PatchContent.toJson (c : PatchContent) : Json :=
  .object [("type", .string c.kind.label), ("content", match c with
    | .unifiedDiff diff => .string diff
    | .editInstructions steps => .array (steps.map EditStep.toJson))]

/-- What became of an applied patch, as an object. -/
def ApplyReport.toJson (r : ApplyReport) : Json :=
  .object [("patch_id", .string r.id), ("kind", .string r.kind.label), ("files", texts r.files),
    ("commit", r.commit.toJson)]

/-- **What became of a patch as an object.** -/
def PatchSummary.toJson (s : PatchSummary) : Json :=
  .record
    [[("patch", .object [("id", .string s.id), ("content", s.patch.content.toJson),
        ("raw", .string s.patch.raw), ("target_files", texts s.patch.targets),
        ("status", .string s.patch.status.label), ("convention_compliant", .bool s.patch.compliant),
        ("auto_commit", .bool s.patch.autoCommit), ("created_at", .string s.createdAt)]),
      ("non_compliant_files", texts s.nonCompliantFiles)],
      optionalField "validation_error" .string s.validationError,
      optionalField "applied" ApplyReport.toJson s.applied]

/-- A dependency check of a build directory, as an object. -/
def DependencyCheck.toJsonIn (dir : Path) (c : DependencyCheck) : Json :=
  .object [("build_dir", .path dir), ("cache", c.cache.toJson), ("path_warnings", texts c.placeWarnings),
    ("comparison", c.comparison.toJson)]

end BuildMender
