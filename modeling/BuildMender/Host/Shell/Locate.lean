import BuildMender.Host.Shell.Variable

/-!
# Finding commands

A command that is called by a name is a function, a command of the shell itself, or a program. Programs are
looked for in the directories of `PATH`, and where one was found is remembered: until `PATH` changes, or
until the shell goes to another directory, after which it has to be looked for again.
-/

namespace BuildMender.Host.Locate

/-- The commands of the shell itself that do not belong to the language. -/
def utilities : List Text :=
  Text.split (· = ' ') ("[ alias bg cd chdir command echo false fg getopts hash jobs kill printf pwd read " ++
    "test true type ulimit umask unalias wait" : String).toList

/-- Whether a name is that of a command that belongs to the language. -/
def isSpecial (name : Raw) : Bool := Reader.ownNames.contains name

/-- Whether a name is that of a command of the shell itself. -/
def isOwn (name : Raw) : Bool := isSpecial name || utilities.contains name

/-- Whether the words of a command may be assignments. -/
def takesAssignments (name : Raw) : Bool :=
  name = "export".toList || name = "readonly".toList || name = "local".toList || name = "alias".toList

/-- What a name stands for. -/
inductive Target where
  | unknown
  /-- The command of the shell itself with a name. -/
  | own (name : Raw)
  | function (f : Function)
  /-- A program in one of the directories that are searched, or at the path that the name is. -/
  | program (index : Option Nat)
deriving Inhabited

/-- The directories that are searched if nothing else is said. -/
def standardPath : Raw := "/usr/local/sbin:/usr/local/bin:/usr/sbin:/usr/bin:/sbin:/bin".toList

/-- The directories that a value of `PATH` names. -/
def directories (path : Raw) : List Raw := Text.split (· = ':') path

/-- The path of a name in a directory. -/
def pathIn (directory name : Raw) : Raw := if directory.isEmpty then name else directory ++ '/' :: name

/-- How a name is looked for. -/
structure Request where
  /-- The directories searched, if they are not those of `PATH`. -/
  path : Option Raw := none
  functions : Bool := true
  /-- Whether it is said if nothing is found. -/
  complaining : Bool := false
  /-- Whether a path is looked at. -/
  checked : Bool := false
deriving Inhabited

/-- What searching has come to: the number of a directory, or why there is none. -/
abbrev Search := Except Fault Nat

/-- The directories searched from a number on. A program that was found in one of the first `known` is
still there. -/
def search (name : Raw) (known : Option Nat) : Nat → Fault → List Raw → Sh Search
  | _, e, [] => pure (.error e)
  | n, e, d :: ds => do
    let path := pathIn d name
    let absolute := path.head? = some '/'
    if absolute && known.any (n < ·) then search name known (n + 1) e ds
    else if absolute && known = some n then return .ok n
    else
      match ← Sh.ask (.status path) with
      | .error e' => search name known (n + 1) (if e'.isMissing then e else e') ds
      | .ok s =>
        if s.kind == .file && s.executable then return .ok n
        else search name known (n + 1) (.file .permissionDenied) ds

/-- What was found for a name remembered. -/
def remember (name : Raw) (n : Nat) : Sh Unit := modify fun s =>
  { s with found :=
      if (s.found.lookup name).isSome then s.found.map fun e => if e.1 == name then (name, ⟨n, false⟩) else e
      else s.found ++ [(name, ⟨n, false⟩)] }

/-- What was found for a name forgotten. -/
def forget (name : Raw) : Sh Unit := modify fun s =>
  { s with found := s.found.filter fun e => e.1 != name }

/-- The program that a name stands for. -/
def program (r : Request) (name : Raw) : Sh Target := do
  let s ← get
  let old := if r.path.isNone then s.found.lookup name else none
  match old.filter fun f => !f.stale with
  | some f => return .program (some f.index)
  | none =>
    let path := r.path.getD (s.valueOf "PATH".toList)
    match ← search name (old.map Found.index) 0 (.file .notFound) (directories path) with
    | .ok n =>
      if r.path.isNone then remember name n
      return .program (some n)
    | .error e =>
      if r.path.isNone then forget name
      if r.complaining then Sh.warn (name ++ ": " ++ Sh.faultText e "not found")
      return .unknown

/-- **What a name stands for.** -/
def find (r : Request) (name : Raw) : Sh Target := do
  if name.contains '/' then
    if r.checked then
      match ← Sh.ask (.status name) with
      | .ok _ => return .program none
      | .error _ => return .unknown
    else return .program none
  else
    let s ← get
    match if r.functions then s.functions.lookup name else none with
    | some f => return .function f
    | none => if isOwn name then return .own name else program r name

/-- What a name stands for without looking for programs. -/
def findHere (functions : Bool) (name : Raw) : Sh Target := do
  if name.contains '/' then return .program none
  else
    let s ← get
    match if functions then s.functions.lookup name else none with
    | some f => return .function f
    | none => return if isOwn name then .own name else .unknown

/-- A process becomes a program. It ends if there is none. -/
def become {α : Type} (words : List Raw) (path : Raw) (index : Option Nat) : Sh α := do
  let s ← get
  let name := words.headD []
  let paths := match index with
    | some n => ((directories path).drop n).map fun d => pathIn d name
    | none => [name]
  let e ← attempts words s.environment (.file .notFound) paths
  let status := if e.isMissing || e = .file .nameTooLong then 127 else 126
  modify fun s => { s with status := status }
  Sh.warn (name ++ ": " ++ Sh.faultText e "not found")
  Sh.flush
  Sh.raise .finish
where
  /-- The paths tried one after the other; why none was right. -/
  attempts (words : List Raw) (environment : Environment) : Fault → List Raw → Sh Fault
    | e, [] => pure e
    | e, p :: ps => do
      let e' ← fun s next _ => .become p words environment fun e => next e s
      attempts words environment (if e'.isMissing then e else e') ps

/-- The place of a name in the table of programs that were found. -/
def bucket (size : Nat) (name : Raw) : Nat :=
  (16 * ((name.head?.map Char.toNat).getD 0) + (name.map Char.toNat).foldl (· + ·) 0) % 32768 % size

end BuildMender.Host.Locate
