import BuildMender.Build
import BuildMender.Host

/-!
# What is heard of a process

Two readers turn what a process writes into lines, one for each stream. Besides their lines, whoever
watches the process hears that both streams have ended, that the process has ended, and calls to stop.
-/

namespace BuildMender

/-- Something heard of a process. -/
inductive Signal where
  /-- The reader of a stream delivers a line. -/
  | line (stream : OutputStream) (text : Text)
  /-- Both readers have come to their end. -/
  | closed
  /-- The process has ended; it has no exit code if it was killed. -/
  | ended (code : Option Int)
  /-- How the process ends cannot be found out. -/
  | lost
  | cancelled
  | timeUp
deriving DecidableEq, Inhabited

/-! ### The lines of a stream -/

namespace Signal

/-- The lines a reader delivers. It stops at a line that is no text. -/
def linesOf (stream : OutputStream) : List Host.Raw → List Signal
  | [] => []
  | l :: more =>
    match Text.ofBytes? (Host.Raw.toBytes l) with
    | none => []
    | some t => .line stream (Text.withoutEnding t) :: linesOf stream more

/-- The lines that end with a line feed. -/
def complete (ls : List Host.Raw) : List Host.Raw := ls.filter fun l => l.getLast? == some '\n'

/-- The lines that were delivered of a stream in time. A line that has not come to its end is delivered
only when the stream ends. -/
def delivered (r : Host.Record) (s : OutputStream) : List Signal :=
  let ls := Text.rawLines (r.raw s)
  linesOf s (if r.isClosed s then ls else complete ls)

/-- **The signals of a process that ran in a closed world.** All it wrote in time is delivered. -/
def ofRecord (r : Host.Record) : List Signal :=
  let closed : List Signal := if r.isClosed .stdout && r.isClosed .stderr then [.closed] else []
  let ended : List Signal := if r.ending = .late then [] else [.ended (r.exitCode?.map Int.ofNat)]
  delivered r .stdout ++ delivered r .stderr ++ closed ++ ended

end Signal

end BuildMender
