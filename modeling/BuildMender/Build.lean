import BuildMender.Dependency.Cache
import BuildMender.Diagnostic
import BuildMender.Preset
import BuildMender.Process

/-!
# Builds

A build is one run of a preset's command. It ends in one of four ways, and its result says which, with
the exit code, both streams and the diagnostics found in them. After a successful configuration the
result also holds what the dependency cache says.
-/

namespace BuildMender

/-- How a run ended. -/
inductive Termination where
  /-- The process ended by itself. -/
  | exited
  | cancelled
  | timedOut
  /-- The process could not be started. -/
  | spawnFailed
deriving DecidableEq, Inhabited

/-- The word for how a run ended. -/
def Termination.label : Termination → Text
  | .exited => "exited"
  | .cancelled => "cancelled"
  | .timedOut => "timed_out"
  | .spawnFailed => "spawn_failed"

/-- What the dependency cache says after a configuration. -/
structure DependencyCheck where
  cache : Dependency.CacheReport
  /-- The packages whose place is missing or no directory. -/
  placeWarnings : List Text
  /-- The configured places against those in the cache. -/
  comparison : Dependency.Comparison
deriving Inhabited

/-- The result of a run. -/
structure BuildResult where
  success : Bool := false
  exitCode : Int := 0
  stdout : Text := []
  stderr : Text := []
  /-- How long the run took, in milliseconds. -/
  duration : Nat := 0
  diagnostics : List Diagnostic := []
  presetId : Text := []
  action : BuildAction := .build
  command : Text := []
  termination : Termination := .exited
  dependencyCheck : Option DependencyCheck := none
deriving Inhabited

namespace BuildResult

/-- The errors among the diagnostics. -/
def errors (r : BuildResult) : List Diagnostic := r.diagnostics.filter Diagnostic.isError

/-- The number of errors. -/
def errorCount (r : BuildResult) : Nat := r.errors.length

/-- Both streams in one text, the error stream after the other. -/
def log (r : BuildResult) : Text :=
  if r.stderr.isEmpty then r.stdout
  else if r.stdout.isEmpty then r.stderr
  else r.stdout ++ "\n" ++ r.stderr

end BuildResult

/-- Why a run was not started at all. -/
inductive BuildError where
  | alreadyRunning (preset : Text) (action : BuildAction)
  | missingCommand (preset : Text) (action : BuildAction)
deriving DecidableEq

namespace BuildError

/-- What is wrong, in words. -/
def message : BuildError → Text
  | .alreadyRunning preset action =>
    "A " ++ action.label ++ " for preset " ++ preset ++ " is already running; cancel it first"
  | .missingCommand preset action => "Preset " ++ preset ++ " has no " ++ action.label ++ " command"

/-- What to do about it. -/
def help : BuildError → Text
  | .alreadyRunning _ _ =>
    "Only one build runs at a time. Cancel the running build before starting another."
  | .missingCommand _ action =>
    "Add a \"" ++ action.label ++ "\" command to the preset in plugwright.json."

end BuildError

end BuildMender
