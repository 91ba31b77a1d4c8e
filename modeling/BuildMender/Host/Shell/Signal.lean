import BuildMender.Host.Shell.Children
import BuildMender.Host.Shell.Options

/-!
# Signals and traps

A script says what is to be done when a signal comes, or at the end of the shell (`trap`), and sends
signals (`kill`). A signal that was ignored when the shell began stays ignored, whatever the script says.
-/

namespace BuildMender.Host.Sh

/-- The signal that a text names, by its number or by a name from a number on. -/
def signal? (least : Nat) (t : Raw) : Option Nat :=
  if !t.isEmpty && t.all Raw.isDigit then
    (Numeral.whole? false t).bind fun n => if n < Interrupt.bound then some n.toNat else none
  else (Interrupt.number? (t.map Raw.capital)).filter (least ≤ ·)

/-- A signal treated as the traps say. -/
def treat (signal : Nat) : Sh Unit := do
  let s ← get
  let treatment : Treatment := match s.traps.lookup signal with
    | none => .standard
    | some [] => .ignored
    | some _ => .caught
  if s.deaf.contains signal then pure ()
  else
    let before : Treatment ← ask (.treat signal treatment)
    if !s.treated.contains signal then
      modify fun s => { s with treated := signal :: s.treated }
      if before == .ignored then
        let _ ← ask (.treat signal .ignored)
        modify fun s => { s with deaf := signal :: s.deaf }

/-- A signal ignored for good. -/
def ignore (signal : Nat) : Sh Unit := do
  let _ ← ask (.treat signal .ignored)
  modify fun s => { s with treated := signal :: s.treated, deaf := signal :: s.deaf }

/-- What is to be done when a signal comes, set. -/
def setTrap (signal : Nat) (action : Option Raw) : Sh Unit := do
  modify fun s =>
    let others := s.traps.filter fun e => e.1 ≠ signal
    { s with traps := match action with
        | none => others
        | some t => (signal, t) :: others }
  if signal ≠ Interrupt.exit then treat signal

/-- The traps forgotten of a shell of which this one is a copy. Ignored signals stay ignored. -/
def clearTraps : Sh Unit := do
  let caught := (← get).traps.filter fun e => !e.2.isEmpty
  caught.forM fun e => setTrap e.1 none

/-- Whether something is to be done when a signal comes. -/
def hasTraps : Sh Bool := look fun s => s.traps.any fun e => !e.2.isEmpty

/-- The traps shown. -/
def showTraps : Sh Unit := do
  let traps := (← get).traps
  (List.range Interrupt.bound).forM fun n => do
    match traps.lookup n with
    | some t => print ("trap -- " ++ Shell.quoted t ++ ' ' :: Interrupt.name n ++ ['\n'])
    | none => pure ()

/-- Traps set one after the other: the status. -/
def setTraps (action : Option Raw) : List Raw → Sh Nat
  | [] => pure 0
  | w :: ws => do
    match signal? 0 w with
    | some n =>
      setTrap n action
      setTraps action ws
    | none =>
      mutter ("trap: " ++ w ++ ": bad trap")
      return 1

/-- **Traps set or shown.** -/
def trap (ws : List Raw) : Sh Nat := do
  match ← operands ws with
  | [] => do
    showTraps
    return 0
  | [w] => setTraps none [w]
  | w :: more =>
    if w.all Raw.isDigit && (signal? 0 w).isSome then setTraps none (w :: more)
    else setTraps (if w = ['-'] then none else some w) more

/-! ### Sending signals -/

/-- How `kill` is used. -/
def usage : Raw :=
  ("Usage: kill [-s sigspec | -signum | -sigspec] [pid | job]... or\nkill -l [exitstatus]" : String).toList

/-- The names of signals shown. -/
def listSignals (ws : List Raw) : Sh Nat := do
  match ws with
  | [] => do
    print ['0', '\n']
    (List.range Interrupt.bound).tail.forM fun n => print (Interrupt.name n ++ ['\n'])
    return 0
  | w :: _ => do
    let n ← count w
    let n := if 128 < n then n - 128 else n
    if 0 < n ∧ n < Interrupt.bound then
      print (Interrupt.name n ++ ['\n'])
      return 0
    else fail ("invalid signal number or exit status: " ++ w)

/-- The process or processes that a word names. -/
def target (w : Raw) : Sh Int := do
  match w with
  | '%' :: _ =>
    let b ← Children.named (some w)
    return -(((b.processes.head?.map Prod.fst).getD 0 : Nat) : Int)
  | '-' :: w => return -((← count w : Nat) : Int)
  | w => return ((← count w : Nat) : Int)

/-- A signal sent to processes: the status. -/
def sendTo (signal : Nat) : List Raw → Nat → Sh Nat
  | [], status => pure status
  | w :: ws, status => do
    match ← ask (.kill (← target w) signal) with
    | .ok _ => sendTo signal ws status
    | .error e =>
      warn (e.message ++ ['\n'])
      sendTo signal ws 1

/-- What the options of `kill` say: whether signals are listed, and which one is sent. -/
def readKill (os : List (Char × Raw)) : Sh (Bool × Option Nat) :=
  os.foldlM (fun r o => do
    if o.1 = 'l' then return (true, r.2)
    else
      match signal? 1 o.2 with
      | some n => return (r.1, some n)
      | none => fail ("invalid signal number or name: " ++ o.2)) (false, none)

/-- **A signal sent**, or signals listed. -/
def kill (ws : List Raw) : Sh Nat := do
  let (listing, signal, ws) ← match ws with
    | [] => fail usage
    | ('-' :: t) :: more =>
      match signal? 1 t with
      | some n => pure (false, some n, more)
      | none => do
        let (os, more) ← options "ls:" ws
        let (listing, signal) ← readKill os
        pure (listing, signal, more)
    | ws => pure (false, none, ws)
  if listing then
    if signal.isSome && !ws.isEmpty then fail usage else listSignals ws
  else if ws.isEmpty then fail usage
  else sendTo (signal.getD Interrupt.terminate) ws 0

end BuildMender.Host.Sh
