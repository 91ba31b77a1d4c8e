import BuildMender.Host.Machine.Step

/-!
# Running a machine

A machine goes on with the process that can go on first. It runs until its first process and all that
leaves the machine have come to their ends, or until a limit of time. Two processes that can go on at
the same time go on in the order in which they were started.
-/

namespace BuildMender.Host.Machine

/-- How long it takes until a child begins. -/
def forkTime : Nat := 150

/-- How long it takes to start a child. -/
def splitTime : Nat := 40

/-- How long it takes until a program begins. -/
def becomeTime : Nat := 400

/-- **A process splits in two.** The child has what the parent has, signals that have come excepted. -/
def fork (m : Machine) (pid : Nat) (p : Process) (child : Task) (next : Nat → Task) : Machine :=
  let n := m.next
  let m := p.descriptors.foldl (fun m d => m.hold d.file) { m with next := n + 1 }
  let c := { p with
    parent := pid, task := child, caught := [], awaited := none, readyAt := m.clock + forkTime }
  let m := m.change pid fun p => { p with task := next n, awaited := none, readyAt := m.clock + splitTime }
  { m with processes := m.processes ++ [(n, c)] }

/-- The program a path leads to. -/
def program (m : Machine) (p : Process) (path : Raw) : Except Fault Text :=
  match m.find p path with
  | .error e => .error e
  | .ok (.place _ none) => .error (.file .notFound)
  | .ok (.place at_ (some (.file _))) =>
    if Disk.isProgram at_ then .ok (at_.getLast?.getD []) else .error (.file .permissionDenied)
  | .ok _ => .error (.file .permissionDenied)

/-- **A process becomes another program.** Its hidden descriptors are closed, and it catches no signals
any more. -/
def become (images : Text → Image) (m : Machine) (pid : Nat) (p : Process) (path : Raw)
    (words : List Raw) (environment : Environment) (next : Fault → Task) : Machine :=
  match m.program p path with
  | .error e => m.change pid fun p => { p with task := next e, readyAt := m.clock + 1 }
  | .ok name =>
    let m := (p.descriptors.filter Descriptor.hidden).foldl (fun m d => m.release d.file) m
    m.change pid fun p =>
      { p with
        task := images name words environment
        descriptors := p.descriptors.filter fun d => !d.hidden
        treatments := p.treatments.filter fun t => t.2 != .caught
        caught := [], readyAt := m.clock + becomeTime }

/-- What a process does next. -/
def turn (images : Text → Image) (m : Machine) (pid : Nat) (p : Process) : Machine :=
  match p.doom with
  | some how => m.finish pid how
  | none =>
    match p.task with
    | .exit n => m.finish pid (.code (n % 256))
    | .call c next =>
      match m.perform pid p c with
      | .wait a => m.change pid fun p => { p with awaited := some a }
      | .done answer m => m.change pid fun p =>
        if p.ending.isSome then p
        else { p with task := next answer, awaited := none, readyAt := m.clock + cost c }
    | .fork child next => m.fork pid p child next
    | .become path words environment next => m.become images pid p path words environment next

/-- When a process can go on. -/
def due? (m : Machine) (pid : Nat) (p : Process) : Option Nat :=
  if p.ending.isSome then none
  else if p.doom.isSome then some p.readyAt
  else if p.stopped then none
  else
    match p.awaited with
    | none => some p.readyAt
    | some (.time t) => some (max p.readyAt t)
    | some a => if m.isMet pid p a then some (max p.readyAt m.clock) else none

/-- The process that can go on first, and when. -/
def nextTurn (m : Machine) : Option (Nat × Nat × Process) :=
  m.processes.foldl (fun best (n, p) =>
    match m.due? n p, best with
    | none, _ => best
    | some t, none => some (t, n, p)
    | some t, some (t', _) => if t < t' then some (t, n, p) else best) none

/-- Whether a stream has come to its end. -/
def isClosed (m : Machine) (s : OutputStream) : Bool :=
  !m.isHeard s || !m.files.any fun f => f.channel == .outside s

/-- The ends of streams noted. -/
def note (m : Machine) : Machine :=
  if m.closed.length = 2 then m
  else
    { m with closed := m.closed ++ ([.stdout, .stderr].filter fun s =>
        (m.closed.lookup s).isNone && m.isClosed s).map fun s => (s, m.clock) }

/-- Whether everything has come to its end. -/
def isOver (m : Machine) : Bool := m.outcome.isSome && m.closed.length = 2

/-- **A machine run** up to a limit of time, with at most so many steps. -/
def run (images : Text → Image) (limit : Option Nat) : Nat → Machine → Machine
  | 0, m => m
  | n + 1, m =>
    let m := m.note
    if m.isOver then m
    else
      match m.nextTurn with
      | none => m
      | some (t, pid, p) =>
        if limit.any (· ≤ t) then m
        else run images limit n (({ m with clock := max m.clock t }).turn images pid p)

/-- The steps after which a machine is given up. -/
def patience : Nat := 3000000

end BuildMender.Host.Machine
