import BuildMender.Host.Shell.Own

/-!
# Simple commands

A simple command has words, redirections and assignments, and is carried out in this order. Its words are
expanded and its first word is looked up; its redirections are made; its assignments are made, and belong
to the command alone if it has a name and that name is not of the language itself; it is shown, if commands
are traced; and then a function, a command of the shell itself or a program is called.

What goes wrong in a command of the shell itself is the end of the shell only if the command belongs to the
language.
-/

namespace BuildMender.Host.Simple

/-! ### The name -/

/-- What is known of a command once its name is. -/
structure Call where
  /-- Words in front of the name. -/
  before : List Raw := []
  /-- The name and the words behind it that are expanded. -/
  words : List Raw := []
  /-- The words that are not expanded yet. -/
  rest : List Word := []
  /-- The directories to search, if they are not those of `PATH`. -/
  path : Option Raw := none
  /-- Whether it may be a function. -/
  functions : Bool := true
  target : Locate.Target := .own []
  /-- Whether it is a command of the language itself, if it is one of the shell. -/
  special : Option Bool := none
  /-- Whether its assignments belong to it alone. -/
  alone : Bool := false
  /-- Whether its words may be assignments. -/
  assigning : Bool := false
deriving Inhabited

/-- Words expanded until there are fields, and the words after those. -/
def fill (output : Node → Sh Raw) : List Word → Sh (List Raw × List Word)
  | [] => pure ([], [])
  | w :: ws => do
    let fs ← Expansion.fields output w
    if fs.isEmpty then fill output ws else return (fs, ws)

/-- The options of `command` passed over, at most so many, up to the name behind them; nothing if there is
no name or there are other options. -/
def passOptions (output : Node → Sh Raw) : Nat → Call → Sh (Bool × Call)
  | 0, c => pure (false, c)
  | n + 1, c => do
    match c.words with
    | [] => return (false, c)
    | current :: more =>
      let (more, rest) ← if more.isEmpty then fill output c.rest else pure (more, c.rest)
      let c := { c with words := current :: more, rest := rest }
      let next := { c with before := c.before ++ [current], words := more, functions := false }
      match more with
      | [] => return (false, c)
      | ['-', '-'] :: ws =>
        let (ws, rest) ← if ws.isEmpty then fill output rest else pure (ws, rest)
        if ws.isEmpty then return (false, { c with rest := rest })
        else return (true, { next with before := next.before ++ [['-', '-']], words := ws, rest := rest })
      | ('-' :: l :: ls) :: _ =>
        if (l :: ls).all (· = 'p') then
          passOptions output n { next with functions := c.functions, path := some Locate.standardPath }
        else return (false, { c with path := if l = 'p' then some Locate.standardPath else c.path })
      | _ => return (true, next)

/-- The name of a command looked up, behind at most so many others. -/
def lookUp (output : Node → Sh Raw) : Nat → Call → Sh Call
  | 0, c => pure c
  | n + 1, c => do
    let target ← Locate.findHere c.functions (c.words.headD [])
    match target with
    | .own name =>
      let c := { c with
        target := target, assigning := Locate.takesAssignments name
        alone := c.special.isSome || !Locate.isSpecial name
        special := some (c.special.getD (Locate.isSpecial name)) }
      if name ≠ "command".toList then return c
      else
        match ← passOptions output Act.forever c with
        | (true, c) => lookUp output n c
        | (false, d) =>
          return { c with words := d.before.drop c.before.length ++ d.words, rest := d.rest, path := d.path }
    | _ => return { c with target := target, alone := true }

/-- **The words of a command expanded and its name looked up.** -/
def call (output : Node → Sh Raw) (ws : List Word) : Sh Call := do
  let (words, rest) ← fill output ws
  if words.isEmpty then return {}
  else
    let c ← lookUp output Act.forever { words := words, rest := rest }
    let more ← c.rest.mapM fun w =>
      if c.assigning && Word.isAssignment w then
        return [← Expansion.text output { assignment := true } w]
      else Expansion.fields output w
    return { c with words := c.words ++ more.flatten, rest := [] }

/-- Whether a call is that of a program in place of the shell. -/
def Call.isExec (c : Call) : Bool :=
  match c.target with
  | .own name => name == "exec".toList
  | _ => false

/-! ### Assignments -/

/-- Assignments made: their texts. -/
def assign (output : Node → Sh Raw) (alone exported : Bool) (ws : List Word) : Sh (List Raw) :=
  ws.mapM fun w => do
    let t ← Expansion.text output { assignment := true } w
    if alone then Sh.setLocal t true
    else
      let (name, value) := Sh.splitAssignment t
      Sh.setVariable name value { exported := exported }
    return t

/-! ### Traces -/

/-- What stands in front of a trace. -/
def traceStart (output : Node → Sh Raw) : Sh Raw := do
  let s ← get
  let t := (s.value? "PS4".toList).getD []
  match Source.readText { rest := t } s.aliases with
  | .ok w => Expansion.text output { quoted := true } w
  | .error _ => return t

/-- A command shown at a descriptor. -/
def trace (output : Node → Sh Raw) (descriptor : Nat) (ws : List Raw) : Sh Unit := do
  let s ← get
  if s.settings.contains .trace && !s.tracing then
    modify fun s => { s with tracing := true }
    let start ← traceStart output
    modify fun s => { s with tracing := false }
    let _ ← Sh.act (Act.writeAll descriptor (start ++ Text.join [' '] ws ++ ['\n']))

/-! ### Calling -/

/-- A command of the shell itself called, and whether it was left before its end. What it printed and did
not write is lost then. -/
def callOwn (ev : Evaluator) (m : Manner) (name : Raw) (words : List Raw) : Sh (Except Raise Unit) := do
  let before := (← get).command
  modify fun s => { s with command := words.head? }
  let r ← Sh.attempt do
    let status ← if words.isEmpty then Sh.look Shell.outputStatus
      else Sh.own ev m name (words.headD []) words.tail
    Sh.flush
    let s ← get
    if s.unwritten then Sh.warn (s.command.getD [] ++ ": I/O error")
    modify fun t => { t with status := if s.unwritten then status ||| 1 else status }
  modify fun s => { s with command := before, printed := [], printedSize := 0, unwritten := false }
  return r

/-- How many functions may be carried out inside each other. -/
def deepest : Nat := 1000

/-- A function called. -/
def callFunction (ev : Evaluator) (m : Manner) (f : Function) (words : List Raw) : Sh Unit := do
  let before ← get
  let r ← Sh.attempt do
    if deepest ≤ before.depth then
      Sh.fail ("Maximum function recursion depth (" ++ Text.decimal deepest ++ ") reached".toList)
    modify fun s => { s with loops := 0, depth := s.depth + 1 }
    Sh.setParameters words.tail
    let _ ← ev { tested := m.tested } (some f.body)
  modify fun s => { s with
    loops := before.loops, depth := before.depth
    parameters := before.parameters, optionIndex := before.optionIndex, optionLetter := before.optionLetter
    skip := if s.skip = some .function ∨ s.skip = some .rest then none else s.skip }
  match r with
  | .ok _ => pure ()
  | .error why => Sh.raise why

/-- A program called: its status. -/
def callProgram (m : Manner) (words : List Raw) (path : Raw) (index : Option Nat) : Sh Nat := do
  if m.last && !(← Sh.hasTraps) then Locate.become words path index
  else
    let batch ← Children.begin_
    Children.join batch (← Sh.fork (Locate.become words path index))
    Children.awaitBatch batch

/-- What became of children in the meantime noted. -/
def listen : Sh Unit := do
  if !(← get).batches.isEmpty then
    let _ ← Children.await .none none

/-- What a command comes to that was looked up, redirected and shown: its status. -/
def carryOut (ev : Evaluator) (m : Manner) (c : Call) : Sh Nat := do
  let path := c.path.getD ((← get).valueOf "PATH".toList)
  let target ← match c.target with
    | .own name => pure (Locate.Target.own name)
    | _ => Locate.find { path := c.path, functions := c.functions, complaining := true } (c.words.headD [])
  match target with
  | .unknown =>
    modify fun s => { s with status := 127 }
    if c.special = some true then Sh.raise .error
    return 127
  | .program index => callProgram m c.words path index
  | .own name => do
    match ← callOwn ev m name c.words with
    | .ok _ => pure ()
    | .error why => if why ≠ .error ∨ c.special = some true then Sh.raise why
    listen
    Sh.look Shell.status
  | .function f => do
    callFunction ev m f c.words
    listen
    Sh.look Shell.status

/-- **A simple command**: its status. -/
def evaluate (ev : Evaluator) (m : Manner) (line : Nat) (assignments words : List Word)
    (redirections : List Redirection) : Sh Nat := do
  let output := Sh.output ev
  modify fun s => { s with line := line, outputStatus := 0 }
  let c ← call output words
  let scopes := (← get).saved.length
  if c.alone then Sh.enterScope
  let aims ← Redirecting.expand output redirections
  let kept := (← get).kept.length
  if !aims.isEmpty then Redirecting.enter
  let failed ← Redirecting.redirectSafely output aims
  let status ← if failed ≠ 0 then do
      modify fun s => { s with status := failed }
      if c.special = some true then Sh.raise .error
      pure failed
    else do
      let made ← assign output c.alone (c.isExec && 1 < c.words.length) assignments
      let errors ← Sh.look fun s => if aims.isEmpty then none else s.kept.head?.bind fun k => k.lookup 2
      trace output ((errors.bind id).getD 2) (made ++ c.before ++ c.words)
      carryOut ev m c
  if !aims.isEmpty then Redirecting.leave c.isExec
  Redirecting.leaveTo kept
  Sh.leaveScopes scopes
  return status

end BuildMender.Host.Simple
