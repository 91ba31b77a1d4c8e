import BuildMender.Disk
import BuildMender.Host.Raw

/-!
# Tasks

What a process will do depends on what the machine answers. A task is the tree of everything it may
do: it ends, or it calls the machine and goes on with the answer (`Task.call`). Each call has its own
kind of answer (`Call.Answer`). Two steps are no calls, since they concern the task itself: a process
can split in two (`Task.fork`), and it can become another program (`Task.become`).

Programs are written as actions, `Act`: an action that yields a value is a task once it is said what
comes after that value.

What the machine refuses to do for a process it refuses with a `Fault`: one of the ways in which a file
operation fails, or one of those that concern streams and other processes.
-/

namespace BuildMender.Host

/-! ### Faults -/

/-- Why the machine refuses something. -/
inductive Fault where
  | file (e : FileError)
  | badDescriptor
  | brokenPipe
  | noSpace
  | notExecutable
  | interrupted
  | invalid
  | noProcess
  | notPermitted
  | busy
  | crossed
deriving DecidableEq, Inhabited

namespace Fault

/-- What went wrong, in words. -/
def message : Fault → Text
  | .file e => e.brief
  | .badDescriptor => "Bad file descriptor"
  | .brokenPipe => "Broken pipe"
  | .noSpace => "No space left on device"
  | .notExecutable => "Exec format error"
  | .interrupted => "Interrupted system call"
  | .invalid => "Invalid argument"
  | .noProcess => "No such process"
  | .notPermitted => "Operation not permitted"
  | .busy => "Device or resource busy"
  | .crossed => "Illegal seek"

/-- Whether the fault is that nothing is there, or that something on the way is no directory. -/
def isMissing : Fault → Bool
  | .file .notFound | .file .notDirectory => true
  | _ => false

end Fault

/-! ### Processes and files -/

/-- How a process ends. -/
inductive Ending where
  | code (n : Nat)
  | signal (n : Nat)
  /-- It was still running at the limit. -/
  | late
deriving DecidableEq, Inhabited

namespace Ending

/-- The status a shell sees. -/
def status : Ending → Nat
  | .code n => n % 256
  | .signal n => 128 + n
  | .late => 128

end Ending

/-- What a process does about a signal. -/
inductive Treatment where
  | standard
  | ignored
  | caught
deriving DecidableEq, Inhabited

/-- What a file is. -/
inductive FileKind where
  | file
  | directory
  | device
  | pipe
deriving DecidableEq, Inhabited

/-- What there is to know about a file. -/
structure FileStatus where
  kind : FileKind
  size : Nat := 0
  /-- When it was last changed. -/
  changed : Nat := 0
  /-- Whether it may be run. -/
  executable : Bool := false
  /-- What tells it from other files. -/
  identity : Place := []
  /-- Where reading or writing goes on, if it is open. -/
  position : Nat := 0
deriving DecidableEq, Inhabited

/-- How a file is to be opened. -/
structure OpenMode where
  reading : Bool := false
  writing : Bool := false
  /-- Whether it is made if it is not there. -/
  create : Bool := false
  /-- Whether it must not be there. -/
  new : Bool := false
  /-- Whether its content is thrown away. -/
  empty : Bool := false
  /-- Whether all writing goes to the end. -/
  append : Bool := false
deriving DecidableEq, Inhabited

/-- How long to wait for a child. -/
inductive Patience where
  /-- Not at all. -/
  | none
  /-- Until one has ended. -/
  | child
  /-- Until one has ended or a caught signal has come. -/
  | signal
deriving DecidableEq, Inhabited

/-- What is known of the children of a process. -/
inductive ChildNews where
  /-- There are none. -/
  | childless
  /-- None has ended. -/
  | nothing
  | ended (process : Nat) (how : Ending)
deriving DecidableEq, Inhabited

/-! ### Calls and tasks -/

/-- What a process asks of the machine. -/
inductive Call where
  /-- Let some time pass, in microseconds; which caught signals have come. -/
  | pass (cost : Nat)
  | read (descriptor count : Nat)
  /-- Write; how much of it was written. -/
  | write (descriptor : Nat) (data : Raw)
  | openFile (path : Raw) (mode : OpenMode)
  | close (descriptor : Nat)
  /-- Go on with reading and writing at a place of the file. -/
  | seek (descriptor position : Nat)
  /-- Make the first free descriptor from `least` on lead where another one leads; a hidden one is
  closed when the process becomes another program. -/
  | copy (descriptor least : Nat) (hidden : Bool)
  /-- Make a descriptor lead where another one leads. -/
  | replace (descriptor target : Nat)
  /-- A new pipe: the descriptors of its two ends. -/
  | pipe
  | wait (patience : Patience)
  | kill (target : Int) (signal : Nat)
  /-- Set what is done about a signal; what was done before. -/
  | treat (signal : Nat) (treatment : Treatment)
  | sleep (duration : Nat)
  /-- The directory the process is in. -/
  | directory
  | enter (path : Raw)
  | status (path : Raw)
  | statusOf (descriptor : Nat)
  /-- The names in a directory. -/
  | list (path : Raw)
  | makeDirectory (path : Raw)
  | removeDirectory (path : Raw)
  | removeFile (path : Raw)
  /-- Set the bits that new files lack; those that they lacked before. -/
  | mask (new : Option Nat)
  /-- The numbers of the process and of its parent. -/
  | identity
deriving Inhabited

/-- The answer to a call. -/
def Call.Answer : Call → Type
  | .pass _ => List Nat
  | .read .. => Except Fault Raw
  | .write .. => Except Fault Nat
  | .openFile .. => Except Fault Nat
  | .close _ => Except Fault Unit
  | .seek .. => Except Fault Unit
  | .copy .. => Except Fault Nat
  | .replace .. => Except Fault Unit
  | .pipe => Nat × Nat
  | .wait _ => ChildNews
  | .kill .. => Except Fault Unit
  | .treat .. => Treatment
  | .sleep _ => Unit
  | .directory => Except Fault Raw
  | .enter _ => Except Fault Unit
  | .status _ => Except Fault FileStatus
  | .statusOf _ => Except Fault FileStatus
  | .list _ => Except Fault (List Raw)
  | .makeDirectory _ => Except Fault Unit
  | .removeDirectory _ => Except Fault Unit
  | .removeFile _ => Except Fault Unit
  | .mask _ => Nat
  | .identity => Nat × Nat

/-- The variables a program starts with. -/
abbrev Environment := List (Raw × Raw)

/-- Everything a process may do. -/
inductive Task where
  | exit (status : Nat)
  | call (c : Call) (next : c.Answer → Task)
  /-- Start a child that does one thing, and go on with its number. -/
  | fork (child : Task) (next : Nat → Task)
  /-- Become the program at a path, with its words and variables; go on only if that fails. -/
  | become (path : Raw) (words : List Raw) (environment : Environment) (next : Fault → Task)

instance : Inhabited Task := ⟨.exit 0⟩

/-- What a program does with its words and variables. -/
abbrev Image := List Raw → Environment → Task

/-- A task that lacks what comes after its value. -/
def Act (α : Type) : Type := (α → Task) → Task

namespace Act

variable {α β : Type}

instance : Monad Act where
  pure a := fun next => next a
  bind x f := fun next => x fun a => f a next

/-- The end. -/
def exit (status : Nat) : Act α := fun _ => .exit status

/-- A call. -/
def ask (c : Call) : Act c.Answer := fun next => .call c next

/-- Some number of steps, more than any run takes. -/
def forever : Nat := 1000000000000000

/-- All of a raw text written. -/
def writeAll (descriptor : Nat) (data : Raw) : Act (Except Fault Unit) := go (data.length + 1) data
where
  /-- What is left of a raw text written, with at most so many calls. -/
  go : Nat → Raw → Act (Except Fault Unit)
    | 0, _ => pure (.ok ())
    | n + 1, data =>
      if data.isEmpty then pure (.ok ())
      else do
        match ← ask (.write descriptor data) with
        | .error e => pure (.error e)
        | .ok count => go n (data.drop count)

/-- A raw text written to the stream of errors, whatever comes of it. -/
def complain (t : Raw) : Act Unit := do
  let _ ← writeAll 2 t

end Act

end BuildMender.Host
