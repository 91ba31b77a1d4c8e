import BuildMender.Host.Options
import BuildMender.Host.Task

/-!
# Jobs of programs

A program that is not a shell does one job: it reads its options, works, and ends with a status. What it
prints is gathered and written when enough of it has come together, before a complaint, and at the end.
-/

namespace BuildMender.Host

/-- What a job has gathered. -/
structure Bench where
  /-- The name it was called by. -/
  name : Raw
  /-- What was printed and not yet written, the last first. -/
  pending : List Raw := []
  /-- How many bytes that is. -/
  size : Nat := 0
  /-- The status so far. -/
  status : Nat := 0
  /-- The status of failure. -/
  failure : Nat := 1
deriving Inhabited

/-- An action of a program at a bench. -/
def Job (α : Type) : Type := Bench → (α → Bench → Task) → Task

namespace Job

variable {α β : Type}

instance : Monad Job where
  pure a := fun d next => next a d
  bind x f := fun d next => x d fun a d => f a d next

/-- The bench. -/
def bench : Job Bench := fun d next => next d d

/-- The bench changed. -/
def change (f : Bench → Bench) : Job Unit := fun d next => next () (f d)

/-- An action done. -/
def act (x : Act α) : Job α := fun d next => x fun a => next a d

/-- A call. -/
def ask (c : Call) : Job c.Answer := act (Act.ask c)

/-- The end, with nothing more written. -/
def stop (status : Nat) : Job α := fun _ _ => .exit status

/-- A status that is kept unless a greater one comes. -/
def note (status : Nat) : Job Unit := change fun d => { d with status := max d.status status }

/-- A text on the stream of errors that begins with the program's name. -/
def say (t : Raw) : Job Unit := do
  let d ← bench
  act (Act.complain (d.name ++ ": " ++ t))

/-- How much is gathered before it is written. -/
def enough : Nat := 4096

/-- What was printed written. -/
def flush : Job Unit := do
  let d ← bench
  if d.size = 0 then pure ()
  else
    change fun d => { d with pending := [], size := 0 }
    match ← act (Act.writeAll 1 d.pending.reverse.flatten) with
    | .ok _ => pure ()
    | .error e => do
      say ("write error: " ++ e.message ++ "\n")
      stop d.failure

/-- A line on the stream of errors that begins with the program's name. -/
def complain (t : Raw) : Job Unit := do
  flush
  say (t ++ ['\n'])

/-- Something printed. -/
def print (t : Raw) : Job Unit := do
  change fun d => { d with pending := t :: d.pending, size := d.size + t.length }
  let d ← bench
  if enough ≤ d.size then flush

/-- The end with the status so far. -/
def finish : Job α := do
  flush
  let d ← bench
  stop d.status

/-- The advice after words that are wrong. -/
def advice (name : Raw) : Raw := "Try '" ++ name ++ " --help' for more information.\n"

/-- The end after words that are wrong. -/
def refuse : Job α := do
  let d ← bench
  act (Act.complain (advice d.name))
  stop d.failure

/-- Each option in turn. The first that is wrong is complained of, and ends the job. -/
def options (gs : List Given) (f : Text → Option Raw → Job Unit) : Job Unit :=
  gs.forM fun
    | .option key value => f key value
    | .wrong message => do
      complain message
      refuse

/-- **The task of a program** with a status of failure. -/
def task (failure : Nat) (f : List Raw → Job Unit) : Image := fun words _ =>
  let job : Job Unit := do
    f words.tail
    finish
  job { name := words.headD [], failure := failure } fun _ d => .exit d.status

/-! ### Reading -/

/-- How much is read in one go. -/
def portion : Nat := 131072

/-- A descriptor read to its end, piece by piece, for as long as `f` says; the fault if there is one. -/
def readPieces (descriptor : Nat) (f : Raw → Job Bool) : Job (Option Fault) := go Act.forever
where
  /-- At most so many pieces. -/
  go : Nat → Job (Option Fault)
    | 0 => pure none
    | n + 1 => do
      match ← ask (.read descriptor portion) with
      | .error e => pure (some e)
      | .ok r =>
        if r.isEmpty then pure none
        else if ← f r then go n
        else pure none

end Job

end BuildMender.Host
