import BuildMender.Backend
import BuildMender.Json.Writer
import BuildMender.Request.Encoding
import BuildMender.Host

/-!
# Backends that are commands

A command can serve as a backend: it reads the envelope as JSON and writes its answer. An answer counts
only if the command succeeds and writes more than blanks.
-/

namespace BuildMender

/-- A command that answers envelopes. -/
structure CommandBackend where
  command : CommandLine
  /-- How long an answer may take, in milliseconds. -/
  timeout : Nat := 180000
  /-- Variables that the command sees. -/
  environment : List (Text × Text) := []
deriving Inhabited

namespace CommandBackend

/-- The backend of a command line. -/
def ofText (line : Text) : Except BackendError CommandBackend :=
  match CommandLine.parse line with
  | some c => .ok { command := c }
  | none => .error (.notConfigured "AI command is empty")

/-- What the command's process has to say. -/
def answerOf (timeout : Nat) (r : Host.Record) : Except BackendError Text :=
  if !r.isOver then .error (.timeout (timeout / 1000))
  else if r.exitCode? ≠ some 0 then
    .error (.failed (Text.trim (r.text .stderr)) (r.exitCode?.map Int.ofNat))
  else
    let t := r.text .stdout
    if (Text.trim t).isEmpty then .error .emptyResponse else .ok t

/-- **The answer of a command to an envelope**, and the disk after it. -/
def ask (b : CommandBackend) (directory : Path) (e : Envelope) (disk : Disk) :
    Except BackendError Text × Disk :=
  match Host.run disk {
    directory := directory, command := b.command, input := some e.toJson.compact, limit := some b.timeout
    environment := b.environment } with
  | .error e =>
    (.error (.notConfigured ("Failed to start " ++ b.command.program ++ ": " ++ e.message)), disk)
  | .ok r => (answerOf b.timeout r, r.disk)

end CommandBackend

end BuildMender
