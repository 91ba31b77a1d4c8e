import BuildMender.Backend
import BuildMender.Fix
import BuildMender.Patch.Manager
import BuildMender.Request.Assemble

/-!
# The loop that mends a build

A build that fails is mended in attempts. Each attempt asks the backend for a patch, applies it and
builds again. The loop ends when a build succeeds or does not end by itself, when the backend fails or
its patch is refused, and when no attempt is left; there is always one.

The loop does not know how builds are run or who answers: `Mending` holds both, and what else they
depend on is a state `ρ` of their own.
-/

namespace BuildMender

/-- What the loop rests on. -/
structure Mending (ρ : Type) where
  build : Workspace → ρ → BuildResult × Workspace × ρ
  ask : Envelope → Workspace → ρ → Except BackendError Text × Workspace × ρ
  /-- Makes a request into an envelope, with the files as they are. -/
  assemble : Disk → Request → Envelope
  /-- How many attempts are made at most; none counts as one. -/
  maxAttempts : Nat := 3
  /-- The name of the patch of an attempt. -/
  patchName : Nat → PatchId

/-- What the loop changes. -/
structure Bench (ρ : Type) where
  workspace : Workspace
  patches : PatchManager
  rest : ρ

namespace Mending

variable {ρ : Type}

/-- A build at the bench. -/
def buildAt (m : Mending ρ) (b : Bench ρ) : BuildResult × Bench ρ :=
  let r := m.build b.workspace b.rest
  (r.1, { b with workspace := r.2.1, rest := r.2.2 })

/-- The backend asked for a patch that mends a failed build. -/
def askAt (m : Mending ρ) (failed : BuildResult) (b : Bench ρ) : Except BackendError Text × Bench ρ :=
  let r := m.ask (m.assemble b.workspace.disk (Request.fixFor failed)) b.workspace b.rest
  (r.1, { b with workspace := r.2.1, rest := r.2.2 })

/-- The files that a patch leaves with violations. A patch that cannot be worked out leaves none: what
is wrong with it comes to light when it is applied. -/
def nonCompliantFiles (patches : PatchManager) (disk : Disk) (id : PatchId) : List Text :=
  match patches.compliance disk id with
  | .ok vs => vs.map Prod.fst
  | .error _ => []

/-- A patch put in, with note taken of whether it keeps the conventions: the files where it does not. -/
def register (response : Text) (id : PatchId) (b : Bench ρ) : List Text × Bench ρ :=
  let patches := b.patches.insert id (Patch.ofText response [] true)
  let files := nonCompliantFiles patches b.workspace.disk id
  (files, { b with patches := (patches.setCompliant id files.isEmpty).toOption.getD patches })

/-- A patch applied at the bench. -/
def applyAt (id : PatchId) (b : Bench ρ) : Except PatchError ApplyReport × Bench ρ :=
  let r := b.patches.apply id b.workspace
  (r.1, { b with patches := r.2.1, workspace := r.2.2 })

/-- How an attempt ends: with the end of the loop, or with another build. -/
inductive Turn where
  | stop (outcome : FixOutcome)
  | rebuilt (r : BuildResult)

/-- **One attempt** at mending a failed build. -/
def attempt (m : Mending ρ) (number : Nat) (failed : BuildResult) (b : Bench ρ) :
    FixAttempt × Turn × Bench ρ :=
  let a : FixAttempt := { number := number, errorsBefore := failed.errorCount }
  let b := { b with workspace := b.workspace.emit (.fixIterationStarted number failed.errorCount) }
  match m.askAt failed b with
  | (.error e, b) => (a, .stop (.backendFailed e.message), b)
  | (.ok response, b) =>
    let id := m.patchName number
    let noted := register response id b
    let a := { a with patchId := some id, patchKind := some (PatchKind.ofText response)
                      nonCompliantFiles := noted.1 }
    match applyAt id noted.2 with
    | (.error e, b) => (a, .stop (.patchRejected e.message), b)
    | (.ok applied, b) =>
      let r := m.buildAt b
      ({ a with applied := true, commit := some applied.commit, errorsAfter := some r.1.errorCount },
        .rebuilt r.1, r.2)

/-- Attempts after those done, as many as are left. -/
def attempts (m : Mending ρ) (left : Nat) (done : List FixAttempt) (r : BuildResult) (b : Bench ρ) :
    FixReport × Bench ρ :=
  if r.success then (⟨.succeeded, done, r⟩, b)
  else if r.termination ≠ .exited then (⟨.buildInterrupted r.termination, done, r⟩, b)
  else
    match left with
    | 0 => (⟨.iterationsExhausted, done, r⟩, b)
    | left + 1 =>
      match m.attempt (done.length + 1) r b with
      | (a, .stop outcome, b) => (⟨outcome, done ++ [a], r⟩, b)
      | (a, .rebuilt r, b) => attempts m left (done ++ [a]) r b

/-- **A build, and the attempts to mend it if it fails.** -/
def run (m : Mending ρ) (b : Bench ρ) : FixReport × Bench ρ :=
  let first := m.buildAt b
  m.attempts (max m.maxAttempts 1) [] first.1 first.2

end Mending

end BuildMender
