import BuildMender.Host.Interrupt
import BuildMender.Host.Task
import BuildMender.Progress

/-!
# The machine that processes run on

A machine has a disk, a clock, and processes. A process reaches files through descriptors: a descriptor
leads to an open file, which several processes may share, and the open file leads to a file on the
disk, to one end of a pipe, or out of the machine. The clock counts microseconds; it goes from one
event to the next.

What leaves the machine is kept with the time at which it left. Whoever listens outside takes all of
it, or listens line by line and stops listening at a line that is no text.
-/

namespace BuildMender.Host

/-- Where an open file leads. -/
inductive Channel where
  | file (at_ : Place)
  /-- A file that is no longer on the disk, by number. -/
  | removed (number : Nat)
  | directory (at_ : Place)
  /-- The end of a pipe that is read from. -/
  | source (pipe : Nat)
  /-- The end of a pipe that is written to. -/
  | sink (pipe : Nat)
  | outside (stream : OutputStream)
  /-- Nowhere: it takes everything and has nothing. -/
  | null
  /-- It has zero bytes without end. -/
  | zero
  /-- It has zero bytes without end and takes nothing. -/
  | full
deriving DecidableEq, Inhabited

/-- An open file. -/
structure OpenFile where
  number : Nat
  channel : Channel
  /-- How many bytes have been passed. -/
  offset : Nat := 0
  reading : Bool := false
  writing : Bool := false
  append : Bool := false
  /-- How many descriptors lead here. -/
  holders : Nat := 1
deriving DecidableEq, Inhabited

/-- A descriptor of a process. -/
structure Descriptor where
  number : Nat
  /-- The number of the open file it leads to. -/
  file : Nat
  /-- Whether it is closed when the process becomes another program. -/
  hidden : Bool := false
deriving DecidableEq, Inhabited

/-- What a process waits for. -/
inductive Awaited where
  /-- Something to read from a pipe, or the end of all that write to it. -/
  | content (pipe : Nat)
  /-- Room in a pipe, or the end of all that read from it. -/
  | room (pipe count : Nat)
  | child
  | time (t : Nat)
  | signal
deriving DecidableEq, Inhabited

/-- A process. -/
structure Process where
  parent : Nat
  task : Task
  descriptors : List Descriptor := []
  directory : Place := []
  /-- The bits that new files lack. -/
  mask : Nat := 18
  /-- What is done about signals, where that is not the standard. -/
  treatments : List (Nat × Treatment) := []
  /-- The caught signals that have come. -/
  caught : List Nat := []
  readyAt : Nat := 0
  awaited : Option Awaited := none
  stopped : Bool := false
  /-- How it will end, if it does nothing any more. -/
  doom : Option Ending := none
  ending : Option Ending := none
deriving Inhabited

/-- How what leaves the machine is listened to. -/
inductive Hearing where
  | whole
  | lines
deriving DecidableEq, Inhabited

/-- A machine. -/
structure Machine where
  disk : Disk
  /-- When places were last changed, if that was not before. -/
  changes : List (Place × Nat) := []
  /-- The content of files that are open and no longer on the disk. -/
  removed : List (Nat × ByteArray) := []
  files : List OpenFile := []
  /-- What is on its way through pipes. -/
  pipes : List (Nat × Raw) := []
  processes : List (Nat × Process) := []
  clock : Nat := 0
  /-- The next unused number. -/
  next : Nat := 1000
  hearing : Hearing := .whole
  /-- What has left the machine, and when; the last first. -/
  written : List (Nat × OutputStream × Raw) := []
  /-- The lines that have not come to their end, if listened to line by line. -/
  unfinished : List (OutputStream × Raw) := []
  /-- Since when nobody listens to a stream any more. -/
  deaf : List (OutputStream × Nat) := []
  /-- How and when the first process ended. -/
  outcome : Option (Ending × Nat) := none
  /-- When the streams that leave the machine came to their ends. -/
  closed : List (OutputStream × Nat) := []
deriving Inhabited

namespace Machine

/-! ### Processes -/

/-- The process with a number. -/
def process? (m : Machine) (pid : Nat) : Option Process := m.processes.lookup pid

/-- A process changed. -/
def change (m : Machine) (pid : Nat) (f : Process → Process) : Machine :=
  { m with processes := m.processes.map fun e => if e.1 = pid then (pid, f e.2) else e }

/-- What a process does about a signal. -/
def treatment (p : Process) (signal : Nat) : Treatment :=
  (p.treatments.lookup signal).getD .standard

/-! ### Descriptors -/

/-- The open file with a number. -/
def file? (m : Machine) (n : Nat) : Option OpenFile := m.files.find? fun f => f.number = n

/-- The open file that a descriptor leads to. -/
def open? (m : Machine) (p : Process) (descriptor : Nat) : Option OpenFile :=
  (p.descriptors.find? fun d => d.number = descriptor).bind fun d => m.file? d.file

/-- An open file changed. -/
def changeFile (m : Machine) (n : Nat) (f : OpenFile → OpenFile) : Machine :=
  { m with files := m.files.map fun o => if o.number = n then f o else o }

/-- One holder more of an open file. -/
def hold (m : Machine) (n : Nat) : Machine :=
  m.changeFile n fun f => { f with holders := f.holders + 1 }

/-- One holder less of an open file, which is closed when it has no holders left. -/
def release (m : Machine) (n : Nat) : Machine :=
  { m with files := m.files.filterMap fun f =>
      if f.number = n then (if f.holders ≤ 1 then none else some { f with holders := f.holders - 1 })
      else some f }

/-- The first number from `least` on that no descriptor has. -/
def free (ds : List Descriptor) (least : Nat) : Nat :=
  let taken := ds.map Descriptor.number
  ((List.range (ds.length + 1)).map (least + ·)).find? (fun n => !taken.contains n) |>.getD least

/-- A descriptor closed. -/
def closeDescriptor (m : Machine) (pid : Nat) (p : Process) (descriptor : Nat) : Machine :=
  match p.descriptors.find? fun d => d.number = descriptor with
  | none => m
  | some d =>
    (m.release d.file).change pid fun p =>
      { p with descriptors := p.descriptors.filter fun d => d.number ≠ descriptor }

/-- A descriptor added to a process. -/
def addDescriptor (m : Machine) (pid : Nat) (d : Descriptor) : Machine :=
  m.change pid fun p => { p with descriptors := p.descriptors ++ [d] }

/-- A file opened for a process: the number of the descriptor. -/
def addFile (m : Machine) (pid : Nat) (p : Process) (f : OpenFile) : Nat × Machine :=
  let n := free p.descriptors 0
  let m := { m with files := m.files ++ [{ f with number := m.next }], next := m.next + 1 }
  (n, m.addDescriptor pid ⟨n, m.next - 1, false⟩)

/-! ### Pipes -/

/-- What is on its way through a pipe. -/
def content (m : Machine) (pipe : Nat) : Raw := (m.pipes.lookup pipe).getD []

/-- What is on its way through a pipe changed. -/
def setContent (m : Machine) (pipe : Nat) (r : Raw) : Machine :=
  { m with pipes := m.pipes.map fun e => if e.1 = pipe then (pipe, r) else e }

/-- Whether anything can still be written to a pipe. -/
def hasSink (m : Machine) (pipe : Nat) : Bool := m.files.any fun f => f.channel == .sink pipe

/-- Whether anything can still be read from a pipe. -/
def hasSource (m : Machine) (pipe : Nat) : Bool := m.files.any fun f => f.channel == .source pipe

/-- How much a pipe holds. -/
def pipeSize : Nat := 65536

/-- How much is written to a pipe in one go or not at all. -/
def pipeUnit : Nat := 4096

/-! ### The end of processes -/

/-- The number of the process that takes care of orphans. -/
def first : Nat := 1

/-- **The end of a process.** Its descriptors are closed and its children are orphans. Its parent can
still ask how it ended. -/
def finish (m : Machine) (pid : Nat) (how : Ending) : Machine :=
  match m.process? pid with
  | none => m
  | some p =>
    let m := p.descriptors.foldl (fun m d => m.release d.file) m
    let remembered := (m.process? p.parent).any fun q => q.ending.isNone
    let m := { m with
      processes := m.processes.filterMap fun (n, q) =>
        if n = pid then
          (if remembered then some (n, { q with
            descriptors := [], ending := some how, awaited := none, task := .exit 0 }) else none)
        else if q.parent = pid then
          (if q.ending.isSome then none else some (n, { q with parent := first }))
        else some (n, q)
      outcome := if p.parent = 0 then some (how, m.clock) else m.outcome }
    if remembered then
      m.change p.parent fun q =>
        if treatment q Interrupt.child = .caught then { q with caught := q.caught ++ [Interrupt.child] }
        else q
    else m

/-- How long it takes until a process that was sent a signal by another one is gone. -/
def dyingTime : Nat := 100

/-- The end of a process by a signal, which takes some time unless it comes from the process itself. -/
def doom (m : Machine) (sender pid signal : Nat) : Machine :=
  if sender = pid then m.finish pid (.signal signal)
  else m.change pid fun p => { p with doom := some (.signal signal), readyAt := m.clock + dyingTime }

/-- **A signal sent to a process** by another one, or by itself. -/
def deliver (m : Machine) (sender pid signal : Nat) : Machine :=
  match m.process? pid with
  | none => m
  | some p =>
    if signal = 0 ∨ p.ending.isSome ∨ p.doom.isSome then m
    else if signal = Interrupt.kill then m.doom sender pid signal
    else if signal = Interrupt.stop then m.change pid fun p => { p with stopped := true }
    else
      let m := if signal = Interrupt.resume then m.change pid fun p => { p with stopped := false } else m
      match treatment p signal with
      | .ignored => m
      | .caught => m.change pid fun p => { p with caught := p.caught ++ [signal] }
      | .standard =>
        if Interrupt.idle.contains signal then m
        else if Interrupt.stopping.contains signal then m.change pid fun p => { p with stopped := true }
        else m.doom sender pid signal

/-! ### Listening -/

/-- How long it takes until a listener who has given up is gone. -/
def leaving : Nat := 200

/-- The lines a raw text completes, and what is left after them. -/
def completed (r : Raw) : List Raw × Raw :=
  let pieces := Text.split (· = '\n') r
  (pieces.dropLast, pieces.getLast?.getD [])

/-- Whether a raw text is the bytes of a text. -/
def isText (r : Raw) : Bool :=
  r.all (fun c => c.toNat < 128) || (Text.ofBytes? (Raw.toBytes r)).isSome

/-- Whether somebody listens to a stream. -/
def isHeard (m : Machine) (s : OutputStream) : Bool :=
  (m.deaf.lookup s).all fun t => m.clock < t

/-- Something leaves the machine. -/
def emit (m : Machine) (s : OutputStream) (r : Raw) : Machine :=
  let m := { m with written := (m.clock, s, r) :: m.written }
  match m.hearing with
  | .whole => m
  | .lines =>
    let (lines, rest) := completed ((m.unfinished.lookup s).getD [] ++ r)
    { m with
      unfinished := (s, rest) :: m.unfinished.filter fun e => e.1 != s
      deaf := if (m.deaf.lookup s).isNone && lines.any (fun l => !isText l) then
          (s, m.clock + leaving) :: m.deaf else m.deaf }

end Machine

end BuildMender.Host
