import BuildMender.Host.Script.Reader
import BuildMender.Host.Task

/-!
# The state of a shell, and its actions

A shell carries out the commands of a script. What it knows from one command to the next is its state: how
it is called, its settings, its variables, functions and aliases, the processes it has started, and what is
to be done when a signal comes.

The one thing to know of its actions (`Sh`) is that they go on in one of two ways. An action yields a
value, or it is raised out of: by a fault, by a command that ends the shell, or by the end of what it had
to do. Whoever wants to know of that catches it (`Sh.attempt`); what was changed before stays changed.
-/

namespace BuildMender.Host

/-- A setting of a shell. -/
inductive Setting where
  | exitOnFailure
  | noPatterns
  | ignoreEnd
  | interactive
  | monitor
  | noCommands
  | standardInput
  | trace
  | verbose
  | viKeys
  | emacsKeys
  | keepFiles
  | exportAll
  | notify
  | noUnset
  | privileged
  | noLog
  | debug
deriving DecidableEq, Inhabited

namespace Setting

/-- The settings with their names and letters, in the order in which they are shown. -/
def table : List (Setting × Text × Option Char) :=
  [(.exitOnFailure, "errexit", some 'e'), (.noPatterns, "noglob", some 'f'),
    (.ignoreEnd, "ignoreeof", some 'I'), (.interactive, "interactive", some 'i'),
    (.monitor, "monitor", some 'm'), (.noCommands, "noexec", some 'n'),
    (.standardInput, "stdin", some 's'), (.trace, "xtrace", some 'x'), (.verbose, "verbose", some 'v'),
    (.viKeys, "vi", some 'V'), (.emacsKeys, "emacs", some 'E'), (.keepFiles, "noclobber", some 'C'),
    (.exportAll, "allexport", some 'a'), (.notify, "notify", some 'b'), (.noUnset, "nounset", some 'u'),
    (.privileged, "privileged", some 'p'), (.noLog, "nolog", none), (.debug, "debug", none)]

/-- The setting with a name. -/
def ofName? (name : Raw) : Option Setting := (table.find? fun e => e.2.1 == name).map Prod.fst

/-- The setting with a letter. -/
def ofLetter? (c : Char) : Option Setting := (table.find? fun e => e.2.2 == some c).map Prod.fst

end Setting

/-- Why an action is left. -/
inductive Raise where
  /-- Something was wrong. -/
  | error
  /-- A command ends the shell. -/
  | exit
  /-- There is nothing more to do. -/
  | finish
deriving DecidableEq, Inhabited

/-- What is passed over. -/
inductive Skip where
  /-- The rest of a loop. -/
  | loop
  /-- The rest of a round of a loop. -/
  | round
  /-- The rest of a function, which has a status of its own. -/
  | function
  /-- The rest of a function. -/
  | rest
deriving DecidableEq, Inhabited

/-- A variable. -/
structure Variable where
  /-- Its value, if it has one. -/
  value : Option Raw
  exported : Bool := false
  fixed : Bool := false
  /-- Whether it stays known without a value. -/
  lasting : Bool := false
deriving DecidableEq, Inhabited

/-- What a command changed that is to be as it was before. -/
inductive Saved where
  | variable_ (name : Raw) (before : Option Variable)
  | settings (before : List Setting)
deriving DecidableEq, Inhabited

/-- Processes that were started together. -/
structure Batch where
  number : Nat
  /-- The processes, and how those ended that did. -/
  processes : List (Nat × Option Ending) := []
  running : Bool := true
  /-- Whether it was asked how they ended. -/
  waited : Bool := false
deriving DecidableEq, Inhabited

/-- A function. -/
structure Function where
  line : Nat
  body : Node
deriving Inhabited

/-- The program found for a name. -/
structure Found where
  /-- The number of the directory among those that are searched. -/
  index : Nat
  /-- Whether it has to be looked for again. -/
  stale : Bool := false
deriving DecidableEq, Inhabited

/-- Where the descriptors led that a command has redirected: to a copy, or nowhere. -/
abbrev Kept := List (Nat × Option Nat)

/-- The state of a shell. -/
structure Shell where
  /-- What the shell is called. -/
  name : Raw
  /-- How many commands it has carried out. -/
  work : Nat := 0
  /-- The number of its process. -/
  process : Nat := 0
  /-- Whether it was split from another shell. -/
  isPart : Bool := false
  settings : List Setting := []
  parameters : List Raw := []
  /-- The parameter whose options are read next, and the letter in it. -/
  optionIndex : Nat := 1
  optionLetter : Option Nat := none
  bindings : List (Raw × Variable) := []
  /-- What is put back at the ends of commands, innermost first. -/
  saved : List (List Saved) := []
  functions : List (Raw × Function) := []
  aliases : List (Raw × Raw) := []
  found : List (Raw × Found) := []
  /-- The texts behind `<<`. -/
  documents : List (Nat × Document) := []
  nextDocument : Nat := 0
  /-- The status of the last command. -/
  status : Nat := 0
  /-- The status from before the commands of a trap. -/
  savedStatus : Option Nat := none
  /-- The status of the last command whose output was used. -/
  outputStatus : Nat := 0
  skip : Option Skip := none
  skipCount : Nat := 0
  /-- How many loops are around the command. -/
  loops : Nat := 0
  /-- How many functions are being carried out. -/
  depth : Nat := 0
  /-- The line of the command, for complaints. -/
  line : Nat := 0
  /-- The command of the shell itself that is being carried out, for complaints. -/
  command : Option Raw := none
  /-- What to do when a signal comes, and under zero at the end. -/
  traps : List (Nat × Raw) := []
  /-- The signals whose treatment the shell knows, and those of them that are ignored for good. -/
  treated : List Nat := []
  deaf : List Nat := []
  /-- The signals that have come. -/
  pending : List Nat := []
  /-- The processes that were started, the last first. -/
  batches : List Batch := []
  /-- The process that was last started in the background. -/
  background : Option Nat := none
  kept : List Kept := []
  /-- Whether a trace is being written. -/
  tracing : Bool := false
  /-- What was printed and not yet written, the last first, and its length. -/
  printed : List Raw := []
  printedSize : Nat := 0
  /-- Whether something printed could not be written. -/
  unwritten : Bool := false
  /-- The directory the shell takes itself to be in. -/
  directory : Option Raw := none
  physical : Option Raw := none
deriving Inhabited

/-- An action of a shell: it goes on with a value, or it is left. -/
def Sh (α : Type) : Type := Shell → (α → Shell → Task) → (Raise → Shell → Task) → Task

namespace Sh

variable {α β : Type}

instance : Monad Sh where
  pure a := fun s next _ => next a s
  bind x f := fun s next left => x s (fun a s => f a s next left) left

instance : MonadStateOf Shell Sh where
  get := fun s next _ => next s s
  set s := fun _ next _ => next () s
  modifyGet f := fun s next _ => let r := f s; next r.1 r.2

/-- An action done. -/
def act (x : Act α) : Sh α := fun s next _ => x fun a => next a s

/-- A call. -/
def ask (c : Call) : Sh c.Answer := fun s next _ => .call c fun a => next a s

/-- The end, with nothing more written. -/
def stop (status : Nat) : Sh α := fun _ _ _ => .exit (status % 256)

/-- An action left. -/
def raise (r : Raise) : Sh α := fun s _ left => left r s

/-- An action that may be left, and whether it was. -/
def attempt (x : Sh α) : Sh (Except Raise α) := fun s next _ =>
  x s (fun a s => next (.ok a) s) fun r s => next (.error r) s

/-- A child that does one thing: its number. -/
def fork (child : Sh Unit) : Sh Nat := fun s next _ =>
  .fork (child s (fun _ s => .exit (s.status % 256)) fun _ s => .exit (s.status % 256)) fun n => next n s

/-- Something asked of the state. -/
def look (f : Shell → α) : Sh α := fun s next _ => next (f s) s

/-! ### Printing and complaining -/

/-- How much is gathered before it is written. -/
def enough : Nat := 8192

/-- What was printed written. -/
def flush : Sh Unit := do
  let s ← get
  if s.printedSize = 0 then pure ()
  else
    set { s with printed := [], printedSize := 0 }
    match ← act (Act.writeAll 1 s.printed.reverse.flatten) with
    | .ok _ => pure ()
    | .error _ => modify fun s => { s with unwritten := true }

/-- Something printed. -/
def print (t : Raw) : Sh Unit := do
  modify fun s => { s with printed := t :: s.printed, printedSize := s.printedSize + t.length }
  if enough ≤ (← get).printedSize then flush

/-- A line on the stream of errors that says where something is wrong. -/
def warn (t : Raw) : Sh Unit := do
  let s ← get
  let about := s.name ++ ": " ++ Text.decimal s.line ++ ": " ++ match s.command with
    | some c => c ++ ": ".toList
    | none => []
  act (Act.complain (about ++ t ++ ['\n']))

/-- The status after a fault. -/
def faulty : Nat := 2

/-- **A fault**: it is complained of, what was printed is written, and what is being done is left. -/
def fail (t : Raw) : Sh α := do
  modify fun s => { s with status := faulty }
  warn t
  flush
  raise .error

/-- The text of a fault where something was to be opened, created or run. -/
def faultText (f : Fault) (missing : Text) : Text := if f.isMissing then missing else f.message

/-! ### Settings -/

/-- Whether a setting is on. -/
def isOn (x : Setting) : Sh Bool := look fun s => s.settings.contains x

/-- A setting set. -/
def setSetting (x : Setting) (on : Bool) : Sh Unit := modify fun s =>
  { s with settings := if on then (if s.settings.contains x then s.settings else x :: s.settings)
      else s.settings.filter (· != x) }

end Sh

end BuildMender.Host
