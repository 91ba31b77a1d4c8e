import BuildMender.Host.Machine.File

/-!
# Calls of a machine

`Machine.perform` says what the machine does for a process that calls it: it answers and is changed, or
the process has to wait for something. `Machine.isMet` says when that has come.
-/

namespace BuildMender.Host.Machine

/-- What comes of a call. -/
inductive Outcome (α : Type) where
  | done (answer : α) (m : Machine)
  | wait (a : Awaited)

/-! ### Reading and writing -/

/-- Something read from an open file. -/
def readFrom (m : Machine) (p : Process) (f : OpenFile) (count : Nat) :
    Outcome (Except Fault Raw) :=
  if !f.reading then .done (.error .badDescriptor) m
  else
    match f.channel with
    | .null => .done (.ok []) m
    | .zero | .full => .done (.ok (List.replicate count (Char.ofNat 0))) m
    | .directory _ => .done (.error (.file .isDirectory)) m
    | .source n =>
      let there := m.content n
      if there.isEmpty then
        if !m.hasSink n then .done (.ok []) m
        else if !p.caught.isEmpty then .done (.error .interrupted) m
        else .wait (.content n)
      else .done (.ok (there.take count)) (m.setContent n (there.drop count))
    | .file _ | .removed _ =>
      let part := (m.contentOf f.channel).extract f.offset (f.offset + count)
      .done (.ok (Raw.ofBytes part))
        (m.changeFile f.number fun f => { f with offset := f.offset + part.size })
    | .sink _ | .outside _ => .done (.error .badDescriptor) m

/-- Bytes put into others from an offset on, with zeros up to there. -/
def overwritten (old : ByteArray) (offset : Nat) (new : ByteArray) : ByteArray :=
  let before := old.extract 0 offset
  let gap : ByteArray := ⟨(List.replicate (offset - before.size) (0 : UInt8)).toArray⟩
  before ++ gap ++ new ++ old.extract (offset + new.size) old.size

/-- A process told that nobody reads what it writes. -/
def broken (m : Machine) (pid : Nat) : Outcome (Except Fault Nat) :=
  .done (.error .brokenPipe) (m.deliver pid pid Interrupt.pipe)

/-- Something written to an open file. -/
def writeTo (m : Machine) (pid : Nat) (f : OpenFile) (data : Raw) : Outcome (Except Fault Nat) :=
  if !f.writing then .done (.error .badDescriptor) m
  else
    match f.channel with
    | .null | .zero => .done (.ok data.length) m
    | .full => .done (if data.isEmpty then .ok 0 else .error .noSpace) m
    | .outside s => if m.isHeard s then .done (.ok data.length) (m.emit s data) else m.broken pid
    | .sink n =>
      if !m.hasSource n then m.broken pid
      else
        let there := m.content n
        let room := pipeSize - there.length
        if data.length ≤ room then .done (.ok data.length) (m.setContent n (there ++ data))
        else if room = 0 ∨ data.length ≤ pipeUnit then .wait (.room n (min data.length pipeUnit))
        else .done (.ok room) (m.setContent n (there ++ data.take room))
    | .file _ | .removed _ =>
      let old := m.contentOf f.channel
      let start := if f.append then old.size else f.offset
      let m := m.setContentOf f.channel (overwritten old start (Raw.toBytes data))
      .done (.ok data.length)
        (m.changeFile f.number fun f => { f with offset := start + data.length })
    | .source _ | .directory _ => .done (.error .badDescriptor) m

/-! ### Children and signals -/

/-- The children of a process. -/
def children (m : Machine) (pid : Nat) : List (Nat × Process) :=
  m.processes.filter fun e => e.2.parent = pid

/-- What is known of the children of a process. Of one that has ended it is known only once. -/
def news (m : Machine) (pid : Nat) (p : Process) (patience : Patience) : Outcome ChildNews :=
  let cs := m.children pid
  match cs.find? fun e => e.2.ending.isSome with
  | some (n, q) =>
    .done (.ended n (q.ending.getD .late)) { m with processes := m.processes.filter fun e => e.1 ≠ n }
  | none =>
    if cs.isEmpty then .done .childless m
    else
      match patience with
      | .none => .done .nothing m
      | .child => .wait .child
      | .signal => if p.caught.isEmpty then .wait .signal else .done .nothing m

/-- The processes that a number stands for where a signal is sent. -/
def targets (m : Machine) (target : Int) : List Nat :=
  let living := m.processes.map Prod.fst
  if 0 < target then living.filter fun n => (n : Int) = target
  else if target = 0 ∨ target = -1 then living
  else []

/-! ### Calls -/

/-- An answer that comes with a machine or not at all. -/
def settled (m : Machine) : Except Fault Machine → Outcome (Except Fault Unit)
  | .error e => .done (.error e) m
  | .ok m => .done (.ok ()) m

/-- A call that needs an open file. -/
def withOpen {α : Type} (m : Machine) (p : Process) (descriptor : Nat)
    (f : OpenFile → Outcome (Except Fault α)) : Outcome (Except Fault α) :=
  match m.open? p descriptor with
  | none => .done (.error .badDescriptor) m
  | some o => f o

/-- **What the machine does for a process that calls it.** -/
def perform (m : Machine) (pid : Nat) (p : Process) : (c : Call) → Outcome c.Answer
  | .pass _ => .done p.caught (if p.caught.isEmpty then m else m.change pid fun p => { p with caught := [] })
  | .read n count => m.withOpen p n fun f => m.readFrom p f count
  | .write n data => m.withOpen p n fun f => m.writeTo pid f data
  | .openFile path mode =>
    match m.openPath p path mode with
    | .error e => .done (.error e) m
    | .ok (f, m) =>
      let (n, m) := m.addFile pid p f
      .done (.ok n) m
  | .close n => m.withOpen p n fun _ => .done (.ok ()) (m.closeDescriptor pid p n)
  | .seek n position => m.withOpen p n fun f =>
    match f.channel with
    | .file _ | .removed _ => .done (.ok ()) (m.changeFile f.number fun f => { f with offset := position })
    | _ => .done (.error .crossed) m
  | .copy n least hidden => m.withOpen p n fun f =>
    let new := free p.descriptors least
    .done (.ok new) ((m.hold f.number).addDescriptor pid ⟨new, f.number, hidden⟩)
  | .replace n target => m.withOpen p n fun f =>
    if n = target then .done (.ok ()) m
    else
      let m := (m.hold f.number).closeDescriptor pid p target
      .done (.ok ()) (m.addDescriptor pid ⟨target, f.number, false⟩)
  | .pipe =>
    let number := m.next
    let m := { m with pipes := m.pipes ++ [(number, [])], next := m.next + 1 }
    let (r, m) := m.addFile pid p { number := 0, channel := .source number, reading := true }
    let p := (m.process? pid).getD p
    let (w, m) := m.addFile pid p { number := 0, channel := .sink number, writing := true }
    .done (r, w) m
  | .wait patience => m.news pid p patience
  | .kill target signal =>
    match m.targets target with
    | [] => .done (.error .noProcess) m
    | ns => .done (.ok ()) (ns.foldl (fun m n => m.deliver pid n signal) m)
  | .treat signal t =>
    .done (treatment p signal) (m.change pid fun p =>
      { p with treatments := (signal, t) :: p.treatments.filter fun e => e.1 ≠ signal })
  | .sleep duration =>
    match p.awaited with
    | some (.time t) => if t ≤ m.clock then .done () m else .wait (.time t)
    | _ => .wait (.time (m.clock + duration))
  | .directory =>
    match m.disk.node? p.directory with
    | some .directory => .done (.ok (pathOf p.directory)) m
    | _ => .done (.error (.file .notFound)) m
  | .enter path =>
    match m.find p path with
    | .error e => .done (.error e) m
    | .ok (.place _ none) => .done (.error (.file .notFound)) m
    | .ok (.place at_ (some .directory)) =>
      .done (.ok ()) (m.change pid fun p => { p with directory := at_ })
    | .ok _ => .done (.error (.file .notDirectory)) m
  | .status path => .done (m.status p path) m
  | .statusOf n => m.withOpen p n fun f =>
    let s := m.statusOf f.channel
    .done (.ok { s with position := if f.append then s.size else f.offset }) m
  | .list path => .done (m.list p path) m
  | .makeDirectory path => m.settled (m.makeDirectory p path)
  | .removeDirectory path => m.settled (m.removeDirectory p path)
  | .removeFile path => m.settled (m.removeFile p path)
  | .mask new => .done p.mask (new.elim m fun b => m.change pid fun p => { p with mask := b })
  | .identity => .done (pid, p.parent) m

/-- How long a call takes, in microseconds. -/
def cost : Call → Nat
  | .pass n => n
  | .sleep _ => 0
  | .write .. => 5
  | .list _ => 5
  | _ => 1

/-- Whether what a process waits for has come. -/
def isMet (m : Machine) (pid : Nat) (p : Process) : Awaited → Bool
  | .content n => !(m.content n).isEmpty || !m.hasSink n || !p.caught.isEmpty
  | .room n count => (m.content n).length + count ≤ pipeSize || !m.hasSource n
  | .child => (m.children pid).all (fun e => e.2.ending.isNone) == false || (m.children pid).isEmpty
  | .signal =>
    !p.caught.isEmpty || (m.children pid).all (fun e => e.2.ending.isNone) == false ||
      (m.children pid).isEmpty
  | .time t => t ≤ m.clock

end BuildMender.Host.Machine
