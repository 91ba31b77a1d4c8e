import BuildMender.Build
import BuildMender.ToolSettings

/-!
# Progress

While builds run and patches are applied, events tell what happens. They are shown to whoever
watches, in the order in which they happen, and written to the log: `Progress.logged` gives the line
for each.
-/

namespace BuildMender

/-- The two streams of a process. -/
inductive OutputStream where
  | stdout
  | stderr
deriving DecidableEq, Inhabited

/-- Something that happens. -/
inductive Progress where
  /-- A run begins. -/
  | buildStarted (preset : Text) (action : BuildAction) (command : Text)
  /-- A process has written a line. -/
  | output (stream : OutputStream) (line : Text)
  /-- A run has ended, with this many errors among its diagnostics. -/
  | buildFinished (preset : Text) (action : BuildAction) (exitCode : Int) (termination : Termination)
      (errors : Nat)
  /-- The dependency cache was read after a configuration. -/
  | cacheResolved (dependencies warnings : Nat) (hasChanges : Bool)
  /-- A patch was applied to this many files. -/
  | patchApplied (patch : Text) (files : Nat)
  /-- A patch was rejected. -/
  | patchRejected (patch reason : Text)
  /-- An attempt at mending a build begins, with this many errors to mend. -/
  | fixIterationStarted (iteration errors : Nat)
deriving DecidableEq, Inhabited

namespace Progress

/-- The level and the line of an event in the log. -/
def logged : Progress → LogLevel × Text
  | .buildStarted _ _ _ => (.info, "Starting build step")
  | .output _ line => (.trace, line)
  | .buildFinished _ _ exitCode termination _ =>
    if termination = .exited then
      if exitCode = 0 then (.info, "Build step succeeded") else (.warn, "Build step failed")
    else (.warn, "Build step did not complete")
  | .cacheResolved _ _ hasChanges =>
    if hasChanges then (.info, "Dependency cache differs from project configuration")
    else (.debug, "Dependency cache resolved")
  | .patchApplied _ _ => (.info, "Patch applied")
  | .patchRejected _ _ => (.warn, "Patch rejected")
  | .fixIterationStarted _ _ => (.info, "Starting fix iteration")

/-- The line of an event in the log of a console, where the output of a process is shown and not
logged. -/
def loggedOnConsole (e : Progress) : Option (LogLevel × Text) :=
  match e with
  | .output _ _ => none
  | _ => some e.logged

end Progress

end BuildMender
