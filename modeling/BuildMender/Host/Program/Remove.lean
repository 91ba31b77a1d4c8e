import BuildMender.Host.Choice

/-!
# Removing files

`rm` removes files, and directories with all below them if it is told to. It can ask before it removes
something; a directory in which something was kept is kept as well.
-/

namespace BuildMender.Host.Remove

/-- The options. -/
def table : OptionTable := .make "dfirvIR"
  [("force", .nothing, "f"), ("interactive", .inside, "interactive"),
    ("one-file-system", .nothing, "one-file-system"), ("no-preserve-root", .nothing, "no-preserve-root"),
    ("preserve-root", .inside, "preserve-root"), ("presume-input-tty", .nothing, "presume-input-tty"),
    ("recursive", .nothing, "r"), ("dir", .nothing, "d"), ("verbose", .nothing, "v"),
    ("help", .nothing, "help"), ("version", .nothing, "version")]

/-- When to ask. -/
inductive Asking where
  | never
  | once
  | always
deriving DecidableEq, Inhabited

/-- What is to be done. -/
structure Order where
  force : Bool := false
  asking : Asking := .never
  recursive : Bool := false
  /-- Whether empty directories are removed. -/
  empty : Bool := false
  verbose : Bool := false
  /-- Whether the root may be removed. -/
  root : Bool := false
deriving DecidableEq, Inhabited

/-- The words that say when to ask. -/
def askingChoice : Choice Asking :=
  Choice.ofWords "never no none" .never ++ Choice.ofWords "once" .once ++ Choice.ofWords "always yes" .always

/-- One option. -/
def Order.set (o : Order) : Text → Option Raw → Order
  | ['f'], _ => { o with force := true, asking := .never }
  | ['i'], _ => { o with force := false, asking := .always }
  | ['I'], _ => { o with force := false, asking := .once }
  | ['r'], _ | ['R'], _ => { o with recursive := true }
  | ['d'], _ => { o with empty := true }
  | ['v'], _ => { o with verbose := true }
  | key, value =>
    if key = "interactive".toList then
      match value with
      | none => { o with force := false, asking := .always }
      | some w =>
        match askingChoice.find w with
        | .ok .never => { o with asking := .never }
        | .ok a => { o with force := false, asking := a }
        | .error _ => o
    else if key = "no-preserve-root".toList then { o with root := true }
    else if key = "preserve-root".toList then { o with root := false }
    else o

/-- What was kept, and the answers that were read and not yet used. -/
structure Standing where
  kept : List Raw := []
  answers : Raw := []
deriving DecidableEq, Inhabited

/-- What is still to be done: go to a path, or come back from a directory. -/
inductive Step where
  | visit (path : Raw) (atTop : Bool)
  | leave (path : Raw)
deriving DecidableEq, Inhabited

/-! ### Asking -/

/-- A line of the answers, which are read as they are needed. -/
def answer (answers : Raw) : Job (Raw × Raw) := go answers Act.forever
where
  /-- At most so many pieces. -/
  go (answers : Raw) : Nat → Job (Raw × Raw)
    | 0 => pure ([], [])
    | n + 1 => do
      if answers.contains '\n' then
        return (answers.takeWhile (· ≠ '\n'), (answers.dropWhile (· ≠ '\n')).drop 1)
      else
        match ← Job.ask (.read 0 4096) with
        | .ok (c :: cs) => go (answers ++ c :: cs) n
        | _ => return (answers, [])

/-- A question; whether the answer is yes. -/
def ask (s : Standing) (question : Raw) : Job (Bool × Standing) := do
  Job.act (Act.complain ((← Job.bench).name ++ ": " ++ question ++ "? "))
  let (a, rest) ← answer s.answers
  return (a.head?.any fun c => c = 'y' || c = 'Y', { s with answers := rest })

/-- What a file is called in a question. -/
def kindText (f : FileStatus) : Raw :=
  match f.kind with
  | .directory => "directory"
  | .file => if f.size = 0 then "regular empty file" else "regular file"
  | .device => "character special file"
  | .pipe => "fifo"

/-! ### Removing -/

/-- Something is kept. -/
def keep (s : Standing) (path : Raw) : Standing := { s with kept := path :: s.kept }

/-- A complaint about a path, which is kept. -/
def failed (s : Standing) (path : Raw) (e : Fault) : Job Standing := do
  Job.complain ("cannot remove " ++ Quotation.shellAlways path ++ ": " ++ e.message)
  Job.note 1
  return keep s path

/-- Whether a fault is passed over because nothing is there. -/
def isPassed (o : Order) (e : Fault) : Bool := o.force && (e.isMissing || e = .invalid)

/-- A path taken away. -/
def takeAway (path : Raw) (directory : Bool) : Job (Except Fault Unit) :=
  if directory then Job.ask (.removeDirectory path) else Job.ask (.removeFile path)

/-- A path removed, with nothing more asked. -/
def excise (o : Order) (s : Standing) (path : Raw) (directory : Bool) : Job Standing := do
  match ← takeAway path directory with
  | .ok () =>
    if o.verbose then
      Job.print ((if directory then "removed directory " else "removed " : Text) ++
        Quotation.shellAlways path ++ "\n")
    return s
  | .error e => if isPassed o e then return s else failed s path e

/-- A path removed if nobody objects. -/
def removeOne (o : Order) (s : Standing) (path : Raw) (f : FileStatus) : Job Standing := do
  if o.asking = .always then
    let (yes, s) ← ask s ("remove " ++ kindText f ++ " " ++ Quotation.shellAlways path)
    if yes then excise o s path (f.kind == .directory) else return keep s path
  else excise o s path (f.kind == .directory)

/-- The path of a name in a directory. -/
def inside (path name : Raw) : Raw := if path.getLast? = some '/' then path ++ name else path ++ '/' :: name

/-- A path that was called for without the slashes at its end, but for one. -/
def trimmed (path : Raw) : Raw :=
  let bare := Text.dropEnd (· = '/') path
  if bare.length + 1 < path.length then bare ++ ['/'] else path

/-- The last piece of a path between slashes. -/
def lastPiece (path : Raw) : Raw :=
  ((Text.dropEnd (· = '/') path).reverse.takeWhile (· ≠ '/')).reverse

/-- A directory visited, and what is to be done after that. -/
def visitDirectory (o : Order) (s : Standing) (path : Raw) (atTop : Bool) (f : FileStatus) :
    Job (List Step × Standing) := do
  let names ← match ← Job.ask (.list path) with
    | .ok ns => pure ns
    | .error _ => pure []
  if !o.recursive && !(o.empty && names.isEmpty) then
    let s ← failed s path (.file (if o.empty then .notEmpty else .isDirectory))
    return ([], s)
  else if atTop && [['.'], ['.', '.']].contains (lastPiece path) then
    Job.complain ("refusing to remove '.' or '..' directory: skipping " ++ Quotation.shellAlways path)
    Job.note 1
    return ([], s)
  else if atTop && !o.root && f.identity.isEmpty then
    Job.complain "it is dangerous to operate recursively on '/'"
    Job.complain "use --no-preserve-root to override this failsafe"
    Job.note 1
    return ([], s)
  else if o.asking = .always && !names.isEmpty then
    let (yes, s) ← ask s ("descend into directory " ++ Quotation.shellAlways path)
    if yes then return (names.map (fun n => .visit (inside path n) false) ++ [.leave path], s)
    else return ([], keep s path)
  else if o.asking = .always then
    let s ← removeOne o s path f
    return ([], s)
  else return (names.map (fun n => .visit (inside path n) false) ++ [.leave path], s)

/-- Whether something in a directory was kept. -/
def holdsKept (s : Standing) (path : Raw) : Bool := s.kept.any fun k => Text.startsWith (inside path []) k

/-- One step done, and what is to be done after that. -/
def step (o : Order) (s : Standing) : Step → Job (List Step × Standing)
  | .visit path atTop => do
    match ← Job.ask (.status path) with
    | .error e =>
      if isPassed o e then return ([], s)
      else
        let s ← failed s path e
        return ([], s)
    | .ok f =>
      if f.kind = .directory then visitDirectory o s path atTop f
      else
        let s ← removeOne o s path f
        return ([], s)
  | .leave path => do
    if holdsKept s path then return ([], s)
    else
      let s ← removeOne o s path { kind := .directory }
      return ([], s)

/-- Steps done one after the other, with all that comes of them. -/
def work (o : Order) : Nat → Standing → List Step → Job Unit
  | 0, _, _ => pure ()
  | _, _, [] => pure ()
  | n + 1, s, st :: more => do
    let (new, s) ← step o s st
    work o n s (new ++ more)

/-! ### The program -/

/-- What may be wrong with an option. -/
def checkOption (words : List Raw) (key : Text) (value : Option Raw) : Job Unit := do
  if key = "interactive".toList then
    match value with
    | some w =>
      let _ ← askingChoice.read "--interactive".toList w Job.refuse
    | none => pure ()
  else if key = "no-preserve-root".toList ∧ !words.contains "--no-preserve-root" then
    Job.complain "you may not abbreviate the --no-preserve-root option"
    Job.stop 1
  else if key = "help".toList ∨ key = "version".toList then Job.stop 0
  else pure ()

/-- Whether the one question that covers everything is answered with yes. -/
def askOnce (o : Order) (operands : List Raw) : Job Bool := do
  let n := operands.length
  if o.asking = .once ∧ (o.recursive ∨ 3 < n) then
    let (yes, _) ← ask {} ("remove " ++ Text.decimal n ++ (if n = 1 then " argument" else " arguments").toList ++
      (if o.recursive then " recursively".toList else []))
    return yes
  else return true

/-- **The program.** -/
def image : Image := Job.task 1 fun words => do
  let (gs, operands) := table.read words
  Job.options gs (checkOption words)
  let o := gs.foldl (fun (o : Order) g => match g with
    | .option key value => o.set key value
    | .wrong _ => o) {}
  if operands.isEmpty then
    if o.force then Job.stop 0
    Job.complain "missing operand"
    Job.refuse
  if ← askOnce o operands then
    work o Act.forever {} (operands.map fun p => .visit (trimmed p) true)

end BuildMender.Host.Remove
