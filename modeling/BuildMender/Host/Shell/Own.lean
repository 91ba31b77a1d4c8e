import BuildMender.Host.Shell.Ending
import BuildMender.Host.Shell.Redirection
import BuildMender.Host.Shell.Utility

/-!
# Commands of the shell itself that change its course

Some commands carry out others: a text (`eval`), a file (`.`), or a program in place of the shell
(`exec`). Others end something: the shell, a function or a loop. `Sh.own` finds the command of a name
among all commands of the shell itself.
-/

namespace BuildMender.Host.Sh

/-! ### Files -/

/-- How much of a file is read at once. -/
def filePortion : Nat := 8192

/-- A script that is being read from a file. -/
structure Scroll where
  source : Source := { rest := [], complete := false }
  /-- What was read of the file behind the lines that were shown. -/
  hidden : Raw := []
  /-- How many characters are in front of that. -/
  passed : Nat := 0
deriving Inhabited

/-- The next portion of a file. -/
def unroll (descriptor : Nat) (x : Scroll) : Sh Scroll := do
  match ← ask (.read descriptor filePortion) with
  | .error _ | .ok [] => return { x with source := { x.source with complete := true } }
  | .ok t =>
    let t := t.filter fun c => c.toNat ≠ 0
    return { x with source := x.source.extend t, hidden := x.hidden ++ t }

/-- The lines up to those that have been begun, and what is behind them. -/
def begun (count : Nat) (t : Raw) : Raw × Raw :=
  let (there, more) := t.splitAt count
  if there.isEmpty || there.getLast? = some '\n' then (there, more)
  else
    let line := more.takeWhile (· ≠ '\n')
    (there ++ line ++ (more.drop line.length).take 1, more.drop (line.length + 1))

/-- The lines shown that have been begun, if a setting says so. -/
def showBegun (x : Scroll) (taken : Nat) : Sh Scroll := do
  let (lines, hidden) := begun (taken - x.passed) x.hidden
  if ← isOn .verbose then act (Act.complain lines)
  return { x with hidden := hidden, passed := x.passed + lines.length }

/-- What is said at the end of a text that is not to end the shell. -/
def staying : Raw := "\nUse \"exit\" to leave shell.\n".toList

/-- How often that is said. -/
def stayings : Nat := 50

/-- **A file carried out** line by line: its status. -/
def carryOutFile (ev : Evaluator) (descriptor : Nat) (top : Bool) : Sh Nat := go Act.forever {} 0
where
  /-- What is left of a file carried out, at most so many lines or portions, after a status. -/
  go : Nat → Scroll → Nat → Sh Nat
    | 0, _, status => pure status
    | k + 1, x, status => do
      let shown := fun (rest : Source) => do
        let _ ← showBegun x rest.taken
      match ← nextLine x.source shown with
      | .more => go k (← unroll descriptor x) status
      | .finish _ =>
        if top && (← isOn .ignoreEnd) then (List.range stayings).forM fun _ => act (Act.complain staying)
        return status
      | .command n _ rest =>
        let (lines, hidden) := begun (rest.taken - x.passed) x.hidden
        let x := { source := rest, hidden := hidden, passed := x.passed + lines.length }
        let new ← ev {} n
        let status := if n.isSome then new else status
        match (← get).skip with
        | none => go k x status
        | some skip =>
          if skip = .function ∨ skip = .rest then modify fun s => { s with skip := none }
          return status

/-- The path of a file that is carried out by its name. -/
def fileNamed (name : Raw) : Sh Raw := do
  if name.contains '/' then return name
  else
    match ← lookIn (Locate.directories ((← get).valueOf "PATH".toList)) with
    | some path => return path
    | none => fail (name ++ ": not found")
where
  /-- The path of the file in the first of some directories that has it. -/
  lookIn : List Raw → Sh (Option Raw)
    | [] => pure none
    | d :: ds => do
      let path := Locate.pathIn d name
      match ← ask (.status path) with
      | .ok s => if s.kind == .file then return some path else lookIn ds
      | .error _ => lookIn ds

/-- A file opened to be carried out, at a descriptor that is out of the way. -/
def openScript (path : Raw) : Sh Nat := do
  let n ← Redirecting.openFile path { reading := true }
  match ← ask (.copy n Redirecting.aside true) with
  | .error _ => return n
  | .ok copy =>
    let _ ← ask (.close n)
    return copy

/-- A file carried out by the shell itself: the status. -/
def source (ev : Evaluator) (ws : List Raw) : Sh Nat := do
  match ← operands ws with
  | [] => return 0
  | name :: _ =>
    let path ← fileNamed name
    let n ← openScript path
    modify fun s => { s with command := some path }
    let status ← carryOutFile ev n false
    let _ ← ask (.close n)
    return status

/-! ### Texts and programs -/

/-- Words carried out as a text. -/
def eval (ev : Evaluator) (m : Manner) (ws : List Raw) : Sh Nat :=
  if ws.isEmpty then pure 0 else carryOut ev { m with last := false } (Text.join [' '] ws)

/-- A program in place of the shell. -/
def exec (ws : List Raw) : Sh Nat := do
  match ← operands ws with
  | [] => return 0
  | name :: more =>
    Locate.become (name :: more) ((← get).valueOf "PATH".toList) (if name.contains '/' then none else some 0)

/-! ### The end of something -/

/-- The end of the shell. -/
def exit (ws : List Raw) : Sh Nat := do
  match ws with
  | [] => pure ()
  | w :: _ => do
    let n ← count w
    modify fun s => { s with savedStatus := some n }
  raise .exit

/-- The end of a function or file. -/
def return_ (ws : List Raw) : Sh Nat := do
  match ws with
  | [] => do
    modify fun s => { s with skip := some .rest }
    return (← get).status
  | w :: _ => do
    let n ← count w
    modify fun s => { s with skip := some .function }
    return n

/-- The end of a loop, or of a round of it. -/
def leaveLoop (skip : Skip) (ws : List Raw) : Sh Nat := do
  let n ← match ws with
    | [] => pure 1
    | w :: _ => do
      let n ← count w
      if n = 0 then fail ("Illegal number: " ++ w)
      pure n
  modify fun s =>
    let n := min n s.loops
    if n = 0 then s else { s with skip := some skip, skipCount := n }
  return 0

/-! ### All commands -/

/-- A command that needs nothing but the words behind its name. -/
abbrev PlainCommand := List Raw → Sh Nat

/-- The commands that print or answer something. -/
def answering : List (Text × PlainCommand) :=
  [(":", fun _ => pure 0), ("true", fun _ => pure 0), ("false", fun _ => pure 1), ("echo", echo),
    ("printf", printf), ("pwd", showDirectory), ("type", type), ("command", command)]

/-- The commands that are about variables and parameters. -/
def naming : List (Text × PlainCommand) :=
  [("local", setLocals), ("set", set), ("shift", shift), ("unset", unset), ("getopts", getopts),
    ("read", read), ("export", mark "export".toList { exported := true }),
    ("readonly", mark "readonly".toList { fixed := true })]

/-- The commands that end something. -/
def ending : List (Text × PlainCommand) :=
  [("break", leaveLoop .loop), ("continue", leaveLoop .round), ("return", return_), ("exit", exit),
    ("exec", exec)]

/-- The commands that are about processes. -/
def managing : List (Text × PlainCommand) :=
  [("bg", resume), ("fg", resume), ("jobs", jobs), ("kill", kill), ("trap", trap), ("wait", wait),
    ("times", fun _ => times)]

/-- The commands that are about other things the shell knows. -/
def knowing : List (Text × PlainCommand) :=
  [("alias", aliasing), ("unalias", unalias), ("hash", hash), ("cd", changeDirectory),
    ("chdir", changeDirectory), ("umask", umask), ("ulimit", ulimit)]

/-- The commands that need nothing but words. -/
def plainCommands : List (Text × PlainCommand) := answering ++ naming ++ ending ++ managing ++ knowing

/-- **A command of the shell itself**, with the words behind its name: its status. -/
def own (ev : Evaluator) (m : Manner) (name : Raw) (called : Raw) (ws : List Raw) : Sh Nat :=
  if name = "eval".toList then eval ev m ws
  else if name = ['.'] then source ev ws
  else if name = "test".toList ∨ name = ['['] then test called ws
  else
    match plainCommands.lookup name with
    | some f => f ws
    | none => pure 0

end BuildMender.Host.Sh
