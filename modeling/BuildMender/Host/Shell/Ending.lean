import BuildMender.Host.Shell.Signal

/-!
# Texts carried out, and the end of a shell

The commands of a shell are read from texts: a script, the word of a command, or what a trap says. What
carries out a single command is a parameter here (`Evaluator`), since commands contain commands, and the
knot is tied only where all of them are known.

Signals that come while a command is carried out wait until it is over. Then it is done what their traps
say, and the status is what it was before. At the end of a shell the same holds of the trap for the end,
however that came about: the status before it is the one that counts, unless something goes wrong in it.
-/

namespace BuildMender.Host

/-- How a command is carried out. -/
structure Manner where
  /-- Whether the shell has nothing to do after it. -/
  last : Bool := false
  /-- Whether its failure is looked at by somebody, so that the shell need not end. -/
  tested : Bool := false
deriving DecidableEq, Inhabited

/-- What carries out a command: its status. -/
abbrev Evaluator := Manner → Option Node → Sh Nat

namespace Sh

/-! ### Texts -/

/-- A line read: a command and whether the text ends behind it; nothing if there are no more. -/
inductive NextLine where
  | command (n : Option Node) (isLast : Bool) (rest : Source)
  | finish (rest : Source)
  /-- The next portion of the text has to come first. -/
  | more

/-- The next line of a text. What cannot be read is a fault. -/
def nextLine (source : Source) (before : Source → Sh Unit) : Sh NextLine := do
  let s ← get
  let r := source.readLine s.aliases s.nextDocument
  match r.line with
  | .more => return .more
  | .finish => do
    before r.source
    return .finish r.source
  | .command n isLast => do
    before r.source
    modify fun s => { s with documents := r.documents ++ s.documents, nextDocument := r.nextDocument }
    return .command n isLast r.source
  | .wrong l message => do
    before r.source
    modify fun s => { s with line := l }
    fail ("Syntax error: " ++ message)

/-- **A text carried out**: its status. -/
def carryOut (ev : Evaluator) (m : Manner) (t : Raw) : Sh Nat := go Act.forever { rest := t } 0
where
  /-- What is left of a text carried out, at most so many lines, after a status. -/
  go : Nat → Source → Nat → Sh Nat
    | 0, _, status => pure status
    | k + 1, source, status => do
      match ← nextLine source fun _ => pure () with
      | .command n isLast rest =>
        let new ← ev { m with last := m.last && isLast } n
        let status := if n.isSome then new else status
        if (← get).skip.isSome then return status
        go k rest status
      | _ => return status

/-! ### Signals -/

/-- What is done about signals that have come, one after the other. What passes over the rest of something
leaves the others for later. -/
def answer (ev : Evaluator) (status : Nat) : List Nat → Sh Unit
  | [] => pure ()
  | n :: ns => do
    let s ← get
    if s.skip.isSome then set { s with pending := n :: ns ++ s.pending }
    else
      match s.traps.lookup n with
      | none => pure ()
      | some action =>
        let _ ← carryOut ev {} action
        modify fun s => if s.skip = some .function then s else { s with status := status }
      answer ev status ns

/-- **What is done about the signals that have come.** -/
def serve (ev : Evaluator) : Sh Unit := do
  let s ← get
  if s.pending.isEmpty then pure ()
  else
    let before := s.savedStatus
    let status := before.getD s.status
    set { s with savedStatus := some status, pending := [] }
    answer ev status ((List.range Interrupt.bound).filter s.pending.contains)
    modify fun s => { s with savedStatus := before }

/-- After how many commands each takes a microsecond longer. -/
def tiring : Nat := 5000

/-- A command is over: some time has passed, and signals that came are answered. -/
def pause (ev : Evaluator) : Sh Unit := do
  let s ← get
  set { s with work := s.work + 1 }
  let caught : List Nat ← ask (.pass (1 + s.work / tiring))
  modify fun s => { s with pending := s.pending ++ caught }
  serve ev

/-! ### The end -/

/-- What was passed over, and the status that was saved, are of no use any more. -/
def settle (why : Option Raise) : Sh Unit := modify fun s =>
  let restored := why = some .exit ∨ s.skip = some .rest
  { s with
    status := if restored then s.savedStatus.getD s.status else s.status
    savedStatus := none, skip := none, loops := 0, tracing := false }

/-- **The end of a shell**, and why it came. -/
def close {α : Type} (ev : Evaluator) (why : Option Raise) : Sh α := do
  if why.isSome then settle why
  let s ← get
  match s.traps.lookup Interrupt.exit with
  | none => pure ()
  | some action => do
    set { s with
      savedStatus := some s.status, skip := none
      traps := s.traps.filter fun e => e.1 ≠ Interrupt.exit }
    match ← attempt (carryOut ev {} action) with
    | .ok _ => settle (some .exit)
    | .error why => settle (some why)
  flush
  stop (← get).status

/-! ### Children -/

/-- How a child is started. -/
inductive Ground where
  /-- It is waited for. -/
  | fore
  /-- It is not, and the first of its batch has nothing to read. -/
  | back (first : Bool)
deriving DecidableEq, Inhabited

/-- What a child forgets of the shell that started it. -/
def depart : Ground → Sh Unit
  | .fore => forgetParent
  | .back first => do
    forgetParent
    ignore Interrupt.interrupt
    ignore Interrupt.quit
    if first then
      let _ ← ask (.close 0)
      let _ ← ask (.openFile "/dev/null".toList { reading := true })
where
  /-- Redirections that are to be undone, children and traps. -/
  forgetParent : Sh Unit := do
    modify fun s => { s with kept := [], isPart := true }
    clearTraps
    modify fun s => { s with batches := [] }

/-- **A child of the shell** that does one thing, in a batch: its number. -/
def split (ev : Evaluator) (batch : Nat) (g : Ground) (body : Sh Nat) : Sh Nat := do
  let n ← fork do
    match ← attempt (do depart g; body) with
    | .ok _ => close ev none
    | .error why => close ev (some why)
  Children.join batch n
  if g ≠ .fore then modify fun s => { s with background := some n }
  return n

/-- All there is to read. -/
def readAll (descriptor : Nat) : Sh Raw := go Act.forever []
where
  /-- What there is to read after some pieces, the last first. -/
  go : Nat → List Raw → Sh Raw
    | 0, ps => pure ps.reverse.flatten
    | k + 1, ps => do
      match ← ask (.read descriptor portion) with
      | .error .interrupted => go k ps
      | .error _ | .ok [] => return ps.reverse.flatten
      | .ok t => go k (t :: ps)
  /-- How much is read at once. -/
  portion : Nat := 4096

/-- A descriptor moved to the place of another one. -/
def move (source target : Nat) : Sh Unit := do
  if source ≠ target then
    let _ ← ask (.replace source target)
    let _ ← ask (.close source)

/-- **The output of a command**, which a child carries out. -/
def output (ev : Evaluator) (body : Node) : Sh Raw := do
  let (source, sink) ← ask .pipe
  let batch ← Children.begin_
  let _ ← split ev batch .fore do
    let _ ← ask (.close source)
    move sink 1
    ev { last := true } (some body)
  let _ ← ask (.close sink)
  let t ← readAll source
  let _ ← ask (.close source)
  let status ← Children.awaitBatch batch
  modify fun s => { s with outputStatus := status }
  return t

end Sh

end BuildMender.Host
