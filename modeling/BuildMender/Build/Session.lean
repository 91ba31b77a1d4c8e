import BuildMender.Build.Builder

/-!
# Builds at one desk

Only one build is accepted at a time. The desk remembers who holds it: the ticket of the build that was
accepted and has neither ended nor been cancelled. A ticket is drawn before it is known whether it will be
accepted, and each has a number of its own, so that a build that ends late, after it was cancelled and
another was accepted, takes the desk from nobody. Only after 2 ^ 64 tickets do the numbers come back.

A session runs builds for several callers at one desk. A build that was accepted starts its process and
goes on in the background until somebody waits for it; only then is its process waited for, and only
then does it leave the desk. Cancelling frees the desk at once, while the process is still there until
it is waited for. A build that was cancelled may end while another is waited for; its result is kept.
-/

namespace BuildMender

/-! ### The desk -/

/-- What a build shows at the desk. -/
structure Ticket where
  number : UInt64
  preset : Text
  action : BuildAction
deriving DecidableEq, Inhabited

/-- The desk. -/
structure Desk where
  holder : Option Ticket := none
  /-- The number of the next ticket. -/
  next : UInt64 := 1
deriving DecidableEq, Inhabited

namespace Desk

/-- Whether a build holds the desk. -/
def isBusy (d : Desk) : Bool := d.holder.isSome

/-- A ticket drawn. Its number is not given out again, even if the ticket is refused. -/
def draw (d : Desk) (preset : Text) (action : BuildAction) : Ticket × Desk :=
  (⟨d.next, preset, action⟩, { d with next := d.next + 1 })

/-- **A ticket accepted**, unless another holds the desk. -/
def accept (d : Desk) (t : Ticket) : Except BuildError Desk :=
  match d.holder with
  | some held => .error (.alreadyRunning held.preset held.action)
  | none => .ok { d with holder := some t }

/-- The build that holds the desk cancelled. -/
def cancel (d : Desk) : Option Ticket × Desk := (d.holder, { d with holder := none })

/-- A build ends; it leaves the desk if it still holds it. -/
def leave (d : Desk) (t : Ticket) : Desk :=
  if d.holder.map Ticket.number = some t.number then { d with holder := none } else d

end Desk

/-! ### Builds in the background -/

/-- A build in the background, whose process was started and has not been waited for. -/
structure BackgroundBuild where
  ticket : Ticket
  root : Path
  preset : Preset
  action : BuildAction
  command : Text
  process : Host.Record
  cancelled : Bool := false
deriving Inhabited

/-- What is heard of the process of a build: if it was cancelled, nothing else. -/
def BackgroundBuild.heard (b : BackgroundBuild) : List Signal :=
  if b.cancelled then [.cancelled] else Signal.ofRecord b.process

/-- The builds at a desk. -/
structure BuildSession where
  builder : Builder
  workspace : Workspace
  desk : Desk := {}
  /-- The builds whose processes have been started and not been waited for. -/
  alive : List BackgroundBuild := []
  /-- The results of builds that ended before somebody waited for them. -/
  ended : List (Ticket × BuildResult) := []
deriving Inhabited

/-- What comes of asking for a build. -/
inductive StartOutcome where
  | refused (e : BuildError)
  /-- The process could not be started. -/
  | ended (r : BuildResult)
  | running (t : Ticket)
deriving Inhabited

namespace BuildSession

/-- **A build asked for**: accepted if the desk is free, and its process started. -/
def start (s : BuildSession) (root : Path) (preset : Preset) (action : BuildAction) :
    StartOutcome × BuildSession :=
  match Builder.commandOf preset action with
  | .error e => (.refused e, s)
  | .ok command =>
    let (ticket, drawn) := s.desk.draw preset.id action
    match drawn.accept ticket with
    | .error e => (.refused e, { s with desk := drawn })
    | .ok desk =>
      let begun := s.workspace.emit (Builder.startedEvent preset action command)
      match s.builder.launch s.workspace.disk root preset action command with
      | .error reason =>
        let r := Builder.conclude preset action command (Watch.refused reason)
        (.ended r.1, { s with desk := desk.leave ticket, workspace := begun.emitAll r.2 })
      | .ok process =>
        let b : BackgroundBuild :=
          { ticket := ticket, root := root, preset := preset, action := action, command := command
            process := process }
        (.running ticket, { s with desk := desk, workspace := begun, alive := s.alive ++ [b] })

/-- A build in the background waited for, which ends it. A process that was cancelled leaves the files
as they were. -/
def settle (s : BuildSession) (b : BackgroundBuild) : BuildResult × BuildSession :=
  let r := Builder.conclude b.preset b.action b.command
    (Watch.ofSignals s.builder.timeout b.heard)
  let disk := if b.cancelled then s.workspace.disk else b.process.disk
  let w := { s.workspace with disk := disk }.emitAll r.2
  let checked := s.builder.withCheck b.root b.preset r.1 w
  (checked.1,
    { s with
      workspace := checked.2, desk := s.desk.leave b.ticket
      alive := s.alive.filter fun a => a.ticket.number != b.ticket.number })

/-- **The build of a ticket waited for**, unless it has ended already; nothing if there is none. -/
def wait (s : BuildSession) (t : Ticket) : Option BuildResult × BuildSession :=
  match s.alive.find? fun b => b.ticket.number == t.number with
  | none =>
    ((s.ended.find? fun e => e.1.number == t.number).map Prod.snd,
      { s with ended := s.ended.filter fun e => e.1.number != t.number })
  | some b =>
    let r := s.settle b
    (some r.1, r.2)

/-- The builds in the background that were cancelled end, and their results are kept. -/
def settleCancelled (s : BuildSession) : BuildSession :=
  (s.alive.filter BackgroundBuild.cancelled).foldl (fun s b =>
    let r := s.settle b
    { r.2 with ended := r.2.ended ++ [(b.ticket, r.1)] }) s

/-- A build asked for and waited for. Those that were cancelled before end in the meantime. -/
def run (s : BuildSession) (root : Path) (preset : Preset) (action : BuildAction) :
    Except BuildError BuildResult × BuildSession :=
  match s.start root preset action with
  | (.refused e, s) => (.error e, s)
  | (.ended r, s) => (.ok r, s)
  | (.running t, s) =>
    match s.settleCancelled.wait t with
    | (some r, s) => (.ok r, s)
    | (none, s) => (.error (.alreadyRunning t.preset t.action), s)

/-- **The build that holds the desk cancelled**; whether there was one. -/
def cancel (s : BuildSession) : Bool × BuildSession :=
  match s.desk.cancel with
  | (none, _) => (false, s)
  | (some t, desk) =>
    (true, { s with
      desk := desk
      alive := s.alive.map fun b =>
        if b.ticket.number = t.number then { b with cancelled := true } else b })

end BuildSession

end BuildMender
