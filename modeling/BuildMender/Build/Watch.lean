import BuildMender.Build.Signal

/-!
# Watching a process

Whoever watches a build process hears of four things in some order: the lines that the readers of its
two streams deliver, the end of both streams, the end of the process, and calls to stop because of a
cancellation or because the time is up. `Watch.observe` says what each of them changes, and
`Watch.observeAll` takes them in the order in which they are heard.

The watch is over when the process and its streams have ended, or when it is called off; no line that is
heard after that counts. So no line is lost that was delivered before, and none is shown after. A process
that is called off is killed and waited for, and its exit code is still taken (`Watch.reap`): it may have
ended by itself in between.
-/

namespace BuildMender

/-- What the watch has come to. -/
structure Watch where
  stdout : Text := []
  stderr : Text := []
  /-- The lines that were shown. -/
  shown : List Progress := []
  /-- Whether a stream may still deliver lines. -/
  streamsOpen : Bool := true
  /-- How the process ended, once that is known. -/
  status : Option (Option Int) := none
  /-- How the watch ended, once it has. -/
  termination : Option Termination := none
deriving DecidableEq, Inhabited

namespace Watch

/-- The message about a build that took too long, with the time it had in milliseconds. -/
def timeoutMessage (timeout : Nat) : Text :=
  "Build timed out after " ++ Text.decimal (timeout / 1000) ++ "s\n"

/-- A line appended to its stream, and shown. -/
def addLine (w : Watch) (stream : OutputStream) (line : Text) : Watch :=
  let w := { w with shown := w.shown ++ [Progress.output stream line] }
  match stream with
  | .stdout => { w with stdout := w.stdout ++ line ++ ['\n'] }
  | .stderr => { w with stderr := w.stderr ++ line ++ ['\n'] }

/-- The watch ends by itself once the process and both streams have ended. -/
def settle (w : Watch) : Watch :=
  if w.status.isSome && !w.streamsOpen then { w with termination := some .exited } else w

/-- What is left to hear when the watch has ended: how a process ended that was called off. -/
def reap (w : Watch) : Signal → Watch
  | .ended code =>
    if w.status.isSome || w.termination == some .exited then w else { w with status := some code }
  | _ => w

/-- **What hearing something changes**, with the time the build has in milliseconds. -/
def observe (timeout : Nat) (w : Watch) (s : Signal) : Watch :=
  if w.termination.isSome then w.reap s
  else
    match s with
    | .line stream text => if w.streamsOpen then w.addLine stream text else w
    | .closed => settle { w with streamsOpen := false }
    | .ended code => if w.status.isSome then w else settle { w with status := some code }
    | .lost => { w with termination := some .exited }
    | .cancelled => { w with termination := some .cancelled }
    | .timeUp =>
      { w with termination := some .timedOut, stderr := w.stderr ++ timeoutMessage timeout }

/-- What hearing several things in turn changes. -/
def observeAll (timeout : Nat) (w : Watch) (ss : List Signal) : Watch := ss.foldl (observe timeout) w

/-- **The watch over a process** of which the given signals are heard. The time of every build is
limited, so the last of them is that the time is up. -/
def ofSignals (timeout : Nat) (ss : List Signal) : Watch := observeAll timeout {} (ss ++ [.timeUp])

/-- The watch over a process that could not be started, for a reason. -/
def refused (reason : Text) : Watch := { stderr := reason, termination := some .spawnFailed }

/-- The exit code that is reported. A process that was killed has none of its own. -/
def exitCode (w : Watch) : Int := (w.status.bind id).getD noExitCode

end Watch

end BuildMender
