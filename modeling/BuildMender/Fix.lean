import BuildMender.Build
import BuildMender.Patch

/-!
# Mending a build

Mending a failed build is a number of attempts: the backend proposes a patch, the patch is applied, and
the build runs again. A report says how it went: why it stopped, what each attempt did, and the last
build's result.
-/

namespace BuildMender

/-- Why mending a build stopped. -/
inductive FixOutcome where
  /-- The build succeeds. -/
  | succeeded
  /-- No attempt is left. -/
  | iterationsExhausted
  /-- A build did not end by itself. -/
  | buildInterrupted (termination : Termination)
  /-- The backend gave no answer. -/
  | backendFailed (message : Text)
  /-- The patch was refused. -/
  | patchRejected (reason : Text)
deriving DecidableEq, Inhabited

/-- One attempt. -/
structure FixAttempt where
  /-- The number of the attempt, from 1. -/
  number : Nat
  errorsBefore : Nat
  patchId : Option PatchId := none
  patchKind : Option PatchKind := none
  /-- The files that the patch leaves with violations. -/
  nonCompliantFiles : List Text := []
  applied : Bool := false
  commit : Option CommitOutcome := none
  errorsAfter : Option Nat := none
deriving DecidableEq, Inhabited

/-- How mending a build went. -/
structure FixReport where
  outcome : FixOutcome
  attempts : List FixAttempt
  finalResult : BuildResult
deriving Inhabited

/-- Whether the build succeeds in the end. -/
def FixReport.succeeded (r : FixReport) : Bool := r.outcome == .succeeded

end BuildMender
