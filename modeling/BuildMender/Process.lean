import BuildMender.CommandLine
import BuildMender.Path

/-!
# Running commands

A command that was started ends with an exit code and what it wrote to its two streams. A command that
could not be started has no output, only a reason.

A `Runner` is the source of such results for commands whose effects lie outside this library, such as
those of version control: it holds the results still to come, in order, and the calls so far. When no
result is left, every command ends alike; if nothing else is said, it succeeds in silence.
-/

namespace BuildMender

/-- The exit code that stands for a process that ended without one. -/
def noExitCode : Int := -1

/-- What a command that ended leaves. -/
structure CommandOutput where
  exitCode : Int := 0
  stdout : Text := []
  stderr : Text := []
deriving DecidableEq, Inhabited

namespace CommandOutput

/-- Whether the command succeeded. -/
def success (o : CommandOutput) : Bool := o.exitCode == 0

/-- Why a command failed: what it wrote to the error stream, or else to the other one. -/
def failureReason (o : CommandOutput) : Text :=
  let reason := Text.trim o.stderr
  if reason.isEmpty then Text.trim o.stdout else reason

end CommandOutput

/-- A call of a command. -/
structure Call where
  command : CommandLine
  /-- The directory it was made in. -/
  directory : Path
  /-- The content of the scratch file the command was given, if it was given one. -/
  scratch : Option Text := none
deriving DecidableEq, Inhabited

namespace Call

/-- The program and its arguments with single spaces between them. -/
def line (c : Call) : Text := Text.join " " (c.command.program :: c.command.arguments)

end Call

/-- Results still to come and calls so far. -/
structure Runner where
  /-- The results still to come; a failure is the reason why the command could not be started. -/
  results : List (Except Text CommandOutput) := []
  /-- The result of every command once those are used up. -/
  otherwise : Except Text CommandOutput := .ok {}
  calls : List Call := []
deriving Inhabited

namespace Runner

/-- A call answered by the next result. -/
def run (r : Runner) (call : Call) : Except Text CommandOutput × Runner :=
  match r.results with
  | [] => (r.otherwise, { r with calls := r.calls ++ [call] })
  | result :: more => (result, { r with results := more, calls := r.calls ++ [call] })

end Runner

end BuildMender
