import BuildMender.Host.Shell.Evaluation

/-!
# A shell from beginning to end

A shell is called with settings, and with a script: a word, a file, or what it can read. It takes over the
variables it is given, adds those of its own, and carries the script out.
-/

namespace BuildMender.Host.Session

/-! ### Variables -/

/-- The variables that every shell sets, whatever it is given. -/
def ownVariables : List (Text × Text) :=
  [("IFS", [' ', '\t', '\n']), ("OPTIND", ['1']), ("PS1", ['#', ' ']), ("PS2", ['>', ' ']),
    ("PS4", ['+', ' '])]

/-- Variables taken over from whoever has started the shell. -/
def inherit (environment : Environment) : Sh Unit := do
  modify fun s => s.putVariable "PATH".toList (some { value := Locate.standardPath })
  environment.forM fun (name, value) => do
    if Raw.isName name then
      modify fun s => s.putVariable name (some { value := some value, exported := true })
  let given (name : Raw) := environment.any fun e => e.1 == name
  ownVariables.forM fun (name, value) => do
    let kept := given name && name.head? = some 'P'
    if !kept then
      modify fun s => s.putVariable name (some { value := some value, exported := given name })

/-- The directory that the shell was told it is in, if that is true. -/
def toldDirectory : Sh (Option Raw) := do
  match ← Sh.value? "PWD".toList with
  | some ('/' :: t) =>
    match ← Sh.ask (.status ('/' :: t)), ← Sh.ask (.status ['.']) with
    | .ok a, .ok b => return if a.identity == b.identity then some ('/' :: t) else none
    | _, _ => return none
  | _ => return none

/-! ### Words -/

/-- What a shell carries out. -/
inductive Matter where
  | text (t : Raw)
  | file (path : Raw)
  /-- What it can read. -/
  | input
deriving DecidableEq, Inhabited

/-- The settings of the words a shell is called with. As long as they are being read, a setting that was not
mentioned counts as on. -/
def readSettings (ws : List Raw) : Sh (Option (List Raw) × Sh.Calling) := do
  modify fun s => { s with settings := Setting.table.map Prod.fst }
  let _ ← Sh.setSettings true ws
  let shown ← get
  modify fun s => { s with settings := [] }
  let r ← Sh.setSettings true ws
  modify fun s => { s with printed := shown.printed, printedSize := shown.printedSize }
  return r

/-- **What the words say that a shell is called with.** -/
def readWords (ws : List Raw) : Sh Matter := do
  let (ws, calling) ← readSettings ws
  let ws := ws.getD []
  if ws.isEmpty then
    if calling.script then Sh.fail "-c requires an argument"
    Sh.setSetting .standardInput true
  match ws with
  | t :: more =>
    if calling.script then
      match more with
      | name :: ps => do
        modify fun s => { s with name := name, parameters := ps }
      | [] => pure ()
      return .text t
    else if ← Sh.isOn .standardInput then
      modify fun s => { s with parameters := ws }
      return .input
    else
      modify fun s => { s with parameters := more }
      return .file t
  | [] => return .input

/-! ### The whole -/

/-- Settings that a shell without a keyboard cannot keep. -/
def dropKeyboard : Sh Unit := do
  if ← Sh.isOn .interactive then Sh.setSetting .monitor true
  Sh.dropMonitor

/-- A shell that does what it is called for. -/
def carryOut (ws : List Raw) (environment : Environment) : Sh Unit := do
  let (process, parent) ← Sh.ask .identity
  modify fun s => { s with process := process }
  inherit environment
  modify fun s => s.putVariable "PPID".toList (some { value := some (Text.decimal parent) })
  Sh.setPath (← toldDirectory) false
  let matter ← readWords ws
  match matter with
  | .file path => do
    let n ← Sh.openScript path
    modify fun s => { s with name := path }
    dropKeyboard
    let _ ← Sh.carryOutFile Evaluation.evaluator n true
  | .text t => do
    dropKeyboard
    Sh.flush
    let reads ← Sh.isOn .standardInput
    let _ ← Sh.carryOut Evaluation.evaluator { last := !reads } t
    if reads then
      let _ ← Sh.carryOutFile Evaluation.evaluator 0 true
  | .input => do
    dropKeyboard
    Sh.flush
    let _ ← Sh.carryOutFile Evaluation.evaluator 0 true

/-- **A shell.** -/
def image : Image := fun words environment =>
  let session : Sh Unit := do
    match ← Sh.attempt (carryOut words.tail environment) with
    | .ok _ => Sh.close Evaluation.evaluator none
    | .error why => Sh.close Evaluation.evaluator (some why)
  session { name := words.headD [] } (fun _ _ => .exit 0) (fun _ _ => .exit 0)

end BuildMender.Host.Session
