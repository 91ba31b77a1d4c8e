import BuildMender.Host.Interrupt
import BuildMender.Host.Shell.Variable

/-!
# The children of a shell

A shell starts processes in batches: the commands of a pipeline are one batch. It waits for a batch, or
lets it run; and what becomes of its processes is noted when the machine tells of it. The status of a
batch is that of its last process. A batch has a number as long as somebody may ask for it.
-/

namespace BuildMender.Host.Children

/-! ### Batches -/

/-- The batch with a number. -/
def batch? (s : Shell) (n : Nat) : Option Batch := s.batches.find? fun b => b.number = n

/-- The first number that no batch has that somebody may ask for. -/
def free (s : Shell) : Nat :=
  let taken := (s.batches.filter fun b => b.running || !b.waited).map Batch.number
  ((List.range (taken.length + 1)).map (· + 1)).find? (fun n => !taken.contains n) |>.getD 1

/-- A new batch: its number. -/
def begin_ : Sh Nat := do
  let n := free (← get)
  modify fun s => { s with batches := { number := n } :: s.batches.filter fun b => b.number ≠ n }
  return n

/-- A batch changed. -/
def change (n : Nat) (f : Batch → Batch) : Sh Unit := modify fun s =>
  { s with batches := s.batches.map fun b => if b.number = n then f b else b }

/-- A process added to a batch. -/
def join (n process : Nat) : Sh Unit :=
  change n fun b => { b with processes := b.processes ++ [(process, none)] }

/-- A batch forgotten. -/
def forget (n : Nat) : Sh Unit := modify fun s =>
  { s with batches := s.batches.filter fun b => b.number ≠ n }

/-- The status of a batch. -/
def status (b : Batch) : Nat := ((b.processes.getLast?.bind Prod.snd).map Ending.status).getD 0

/-- The end of a process noted: the batch it was in. -/
def note (process : Nat) (how : Ending) : Sh (Option Nat) := do
  let s ← get
  match s.batches.find? fun b => b.running && b.processes.any fun p => p.1 = process with
  | none => return none
  | some b =>
    let processes := b.processes.map fun p => if p.1 = process then (process, some how) else p
    change b.number fun b =>
      { b with processes := processes, running := processes.any fun p => p.2.isNone }
    return some b.number

/-! ### What is said of a process that has ended -/

/-- What is said of a process that a signal has ended, unless that happens all the time. -/
def obituary : Ending → Option Raw
  | .signal n =>
    if n = Interrupt.interrupt ∨ n = Interrupt.pipe then none else some (Interrupt.description n)
  | _ => none

/-- What is said of the end of a process. -/
def account : Ending → Raw
  | .signal n => Interrupt.description n
  | .code 0 => "Done"
  | .code n => "Done(" ++ Text.decimal n ++ ")"
  | .late => "Running"

/-! ### Waiting -/

/-- Whether a batch is running. -/
def isRunning (n : Nat) : Sh Bool := look fun s => (batch? s n).any Batch.running
where
  /-- Something asked of the state. -/
  look (f : Shell → Bool) : Sh Bool := Sh.look f

/-- What the machine tells of children noted: whether no signal came in between. It is waited for as
patience says, until a batch has ended; all that is told without waiting is noted as well. -/
def hear (batch : Option Nat) : Nat → Patience → Sh Bool
  | 0, _ => pure true
  | n + 1, patience => do
    match ← Sh.ask (.wait patience) with
    | .childless => return true
    | .nothing =>
      if patience = .none then return true
      let _ ← hear batch n .none
      return false
    | .ended process how =>
      let b ← note process how
      if b.isSome ∧ b = batch then
        match obituary how with
        | some t => Sh.act (Act.complain (t ++ ['\n']))
        | none => pure ()
      let ended ← match batch with
        | none => pure true
        | some b => do pure !(← isRunning b)
      hear batch n (if ended then .none else patience)

/-- Children waited for: whether no signal came in between. -/
def await (patience : Patience) (batch : Option Nat) : Sh Bool := do
  let ended ← match batch with
    | none => pure false
    | some b => do pure !(← isRunning b)
  hear batch Act.forever (if ended then .none else patience)

/-- **A batch waited for**: its status. -/
def awaitBatch (n : Nat) : Sh Nat := do
  let _ ← await .child (some n)
  let s := ((batch? (← get) n).map status).getD 0
  forget n
  return s

/-! ### Naming batches -/

/-- The batch that a name stands for; a name that stands for none is a fault. -/
def named (name : Option Raw) : Sh Batch := do
  let s ← get
  let current := s.batches.head?
  match name with
  | none => found current "No current job"
  | some name =>
    match name with
    | ['%'] | ['%', '+'] | ['%', '%'] => found current "No current job"
    | ['%', '-'] => found s.batches.tail.head? "No previous job"
    | '%' :: p =>
      let missing := "No such job: " ++ name
      if !p.isEmpty && p.all Raw.isDigit then
        found ((Numeral.whole? false p).bind fun n => batch? s n.toNat) missing
      else if p = ['?'] ∧ 1 < s.batches.length then Sh.fail (name ++ ": ambiguous")
      else found (if p = ['?'] then current else none) missing
    | _ => Sh.fail ("No such job: " ++ name)
where
  /-- A batch that may not be there. -/
  found (b : Option Batch) (message : Raw) : Sh Batch :=
    match b with
    | some b => pure b
    | none => Sh.fail message

/-- A batch as it is shown: its number, whether it is the last or the one before, and its state. -/
def shown (s : Shell) (withProcess : Bool) (b : Batch) : Raw :=
  let sign := if s.batches.head?.any fun c => c.number = b.number then '+'
    else if s.batches.tail.head?.any fun c => c.number = b.number then '-'
    else ' '
  let process := fun (p : Nat × Option Ending) => Text.decimal p.1 ++ [' ']
  let number := '[' :: Text.decimal b.number ++ "] ".toList
  let first := number ++ sign :: ' ' :: if withProcess then (b.processes.head?.map process).getD [] else []
  let state := if b.running then "Running".toList
    else ((b.processes.getLast?.bind Prod.snd).map account).getD []
  let column := number.length + 2
  let padded := fun t : Raw => t ++ List.replicate (max (33 - t.length) 1) ' '
  let others := if withProcess then
      b.processes.tail.flatMap fun p =>
        let start := " |\n".toList ++ List.replicate (column - 1) ' ' ++ ' ' :: process p
        start ++ List.replicate (max (36 - start.length) 1) ' '
    else b.processes.tail.flatMap fun _ => " | ".toList
  padded (first ++ state) ++ others ++ ['\n']

end BuildMender.Host.Children
