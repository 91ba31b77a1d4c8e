import BuildMender.Host.Machine.Run
import BuildMender.Host.Program.Cat
import BuildMender.Host.Program.Echo
import BuildMender.Host.Program.Listing
import BuildMender.Host.Program.MakeDirectory
import BuildMender.Host.Program.Remove
import BuildMender.Host.Program.Search
import BuildMender.Host.Program.Sleep
import BuildMender.Host.Shell.Session
import BuildMender.CommandLine
import BuildMender.Process

/-!
# The host that commands run on

Commands run in a closed world: a machine with a disk, a clock, a shell and a handful of programs. Starting
a command can fail for the same reasons as on a real machine. What was started leaves a record: what it
wrote, which of its streams came to their ends in time, how it ended, and the disk after it.
-/

namespace BuildMender.Host

/-! ### Programs -/

/-- The programs of the machine by their names. -/
def images : List (Text × Image) :=
  [("sh", Session.image), ("dash", Session.image), ("echo", Echo.image), ("sleep", Sleep.image),
    ("cat", Cat.image), ("mkdir", MakeDirectory.image), ("rm", Remove.image), ("ls", Listing.image),
    ("grep", Search.image)]

/-- What the program with a name does. -/
def image (name : Text) : Image := (images.lookup name).getD fun _ _ => .exit (if name = "false" then 1 else 0)

/-! ### Orders and records -/

/-- How a command is to be run. -/
structure Order where
  directory : Path
  command : CommandLine
  /-- What it can read, if there is a pipe to read from. -/
  input : Option Text := none
  /-- How long it may take, in milliseconds. -/
  limit : Option Nat := none
  hearing : Hearing := .whole
  /-- Variables it sees besides those that every command sees. -/
  environment : List (Text × Text) := []
deriving Inhabited

/-- Why a command could not be started. -/
inductive StartError where
  | file (e : FileError)
  /-- A word of the command held the character that ends words. -/
  | badWord
deriving DecidableEq, Inhabited

/-- What went wrong, in words. -/
def StartError.message : StartError → Text
  | .file e => e.message
  | .badWord => "nul byte found in provided data"

/-- What a process leaves. -/
structure Record where
  disk : Disk
  /-- What it and its children wrote, in order. -/
  written : List (OutputStream × Raw)
  ending : Ending
  /-- The streams that came to their ends in time. -/
  closed : List OutputStream
deriving Inhabited

namespace Record

/-- All that was written to a stream. -/
def raw (r : Record) (s : OutputStream) : Raw :=
  ((r.written.filter fun w => w.1 == s).map Prod.snd).flatten

/-- All that was written to a stream, as text. -/
def text (r : Record) (s : OutputStream) : Text := Raw.toText (r.raw s)

/-- The exit code; a process that was killed has none. -/
def exitCode? (r : Record) : Option Nat :=
  match r.ending with
  | .code n => some n
  | _ => none

/-- Whether a stream came to its end in time. -/
def isClosed (r : Record) (s : OutputStream) : Bool := r.closed.contains s

/-- Whether the process and both streams came to their ends in time. -/
def isOver (r : Record) : Bool := r.ending != .late && r.isClosed .stdout && r.isClosed .stderr

end Record

/-! ### Starting -/

/-- The variables that every command sees. -/
def commonVariables : Environment := [("PATH", Locate.standardPath), ("HOME", "/root".toList)]

/-- The directory a command is to run in. -/
def directoryOf (disk : Disk) (directory : Path) : Except StartError Place :=
  match disk.find [] directory with
  | .error e => .error (.file e)
  | .ok (_, .file _) => .error (.file .notDirectory)
  | .ok (at_, .directory) => .ok at_

/-- The machine before its first process: what it reads is a pipe with some content or nothing, and what it
writes leaves the machine. -/
def machineOf (disk : Disk) (o : Order) : Machine :=
  let content := o.input.map Raw.ofText
  { disk := disk
    hearing := o.hearing
    pipes := content.toList.map fun t => (0, t)
    files := [
      { number := 0, channel := if content.isSome then .source 0 else .null, reading := true },
      { number := 1, channel := .outside .stdout, writing := true },
      { number := 2, channel := .outside .stderr, writing := true }] }

/-- The first process, which has not become a program yet. -/
def firstProcess (at_ : Place) : Process :=
  { parent := 0, task := .exit 0, directory := at_, descriptors := [⟨0, 0, false⟩, ⟨1, 1, false⟩, ⟨2, 2, false⟩] }

/-- The first path that leads to a program among those that a name stands for. -/
def programOf (m : Machine) (p : Process) (name : Raw) : Except FileError Raw :=
  if name.isEmpty then .error .notFound
  else if name.contains '/' then (m.program p name).mapError plain |>.map fun _ => name
  else search .notFound (Locate.directories Locate.standardPath)
where
  /-- The fault of a program as that of a file. -/
  plain : Fault → FileError
    | .file e => e
    | _ => .permissionDenied
  /-- The first of some directories that has the program; a program that may not be run is passed over, but
  not forgotten. -/
  search (e : FileError) : List Raw → Except FileError Raw
    | [] => .error e
    | d :: ds =>
      let path := Locate.pathIn d name
      match m.program p path with
      | .ok _ => .ok path
      | .error e' =>
        if e'.isMissing then search e ds
        else if plain e' = .permissionDenied then search .permissionDenied ds
        else .error (plain e')

/-- The number of the first process. -/
def firstNumber : Nat := 100

/-- What a machine has come to. -/
def recordOf (m : Machine) : Record where
  disk := m.disk
  written := m.written.reverse.map Prod.snd
  ending := (m.outcome.map Prod.fst).getD .late
  closed := m.closed.map Prod.fst

/-- **A command run** as ordered. -/
def run (disk : Disk) (o : Order) : Except StartError Record :=
  let words := o.command.program :: o.command.arguments
  if (o.directory.text :: words).any fun w => w.contains (Char.ofNat 0) then .error .badWord
  else
    match directoryOf disk o.directory with
    | .error e => .error e
    | .ok at_ =>
      let m := machineOf disk o
      let p := firstProcess at_
      match programOf m p (Raw.ofText o.command.program) with
      | .error e => .error (.file e)
      | .ok path =>
        let environment := commonVariables ++ o.environment.map fun v => (Raw.ofText v.1, Raw.ofText v.2)
        let task := Task.become path (words.map Raw.ofText) environment fun _ => .exit 127
        let m := { m with processes := [(firstNumber, { p with task := task })] }
        .ok (recordOf (m.run image (o.limit.map (· * 1000)) Machine.patience))

/-- A command run to its end, with nothing to read: its exit code, and what it wrote, as text. -/
def output (disk : Disk) (directory : Path) (c : CommandLine) : Except StartError (CommandOutput × Disk) :=
  match run disk { directory := directory, command := c } with
  | .error e => .error e
  | .ok r =>
    .ok (⟨(r.exitCode?.map Int.ofNat).getD noExitCode, r.text .stdout, r.text .stderr⟩, r.disk)

end BuildMender.Host
