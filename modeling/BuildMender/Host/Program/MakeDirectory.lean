import BuildMender.Host.Job
import BuildMender.Host.Quotation

/-!
# Making directories

`mkdir` makes the directories it is called with, and those above them if it is told to. The mode it can
be given has to be well formed.
-/

namespace BuildMender.Host.MakeDirectory

/-- The options. -/
def table : OptionTable := .make "pm:vZ"
  [("context", .inside, "context"), ("mode", .value, "m"), ("parents", .nothing, "p"),
    ("verbose", .nothing, "v"), ("help", .nothing, "help"), ("version", .nothing, "version")]

/-- What is to be done. -/
structure Order where
  parents : Bool := false
  verbose : Bool := false
  mode : Option Raw := none
deriving DecidableEq, Inhabited

/-! ### Modes -/

/-- What a mode gives after its sign: letters of permissions, or one letter of those who have them. -/
def afterPermissions (t : Raw) : Raw :=
  match t with
  | c :: cs =>
    if ['u', 'g', 'o'].contains c then cs else t.dropWhile fun c => ['r', 'w', 'x', 'X', 's', 't'].contains c
  | [] => []

/-- The signs and permissions of a clause, and the text after them. -/
def afterActions : Nat → Raw → Option Raw
  | n + 1, c :: cs =>
    if ['-', '+', '='].contains c then
      match afterPermissions cs with
      | d :: ds => if ['-', '+', '='].contains d then afterActions n (d :: ds) else some (d :: ds)
      | [] => some []
    else none
  | _, _ => none

/-- Whether a text is a list of clauses. -/
def areClauses : Nat → Raw → Bool
  | 0, _ => false
  | n + 1, t =>
    match afterActions t.length (t.dropWhile fun c => ['u', 'g', 'o', 'a'].contains c) with
    | some [] => true
    | some (',' :: more) => areClauses n more
    | _ => false

/-- Whether a mode is well formed. -/
def isMode (t : Raw) : Bool :=
  match t with
  | c :: _ =>
    if Raw.isDigit c then
      t.all (fun c => '0' ≤ c && c ≤ '7') && (t.dropWhile (· = '0')).length ≤ 4
    else areClauses (t.length + 1) t
  | [] => false

/-! ### Directories -/

/-- The beginnings of a path that end before a slash behind a name, the shortest first. The path itself
is not among them. -/
def ancestors (path : Raw) : List Raw :=
  (List.range path.length).filterMap fun n =>
    match path.drop n, (path.take n).getLast? with
    | '/' :: more, some c => if c ≠ '/' ∧ more.any (· ≠ '/') then some (path.take n) else none
    | _, _ => none

/-- A complaint about a directory. -/
def failed (path : Raw) (e : Fault) : Job Unit := do
  Job.complain ("cannot create directory " ++ Quotation.shellAlways path ++ ": " ++ e.message)
  Job.note 1

/-- A directory that was made shown. -/
def tell (o : Order) (path : Raw) : Job Unit :=
  if o.verbose then do
    Job.print ((← Job.bench).name ++ ": created directory " ++ Quotation.shellAlways path ++ "\n")
  else pure ()

/-- What stands at a path, if something does. -/
def kind? (path : Raw) : Job (Option FileKind) := do
  match ← Job.ask (.status path) with
  | .ok s => return some s.kind
  | .error _ => return none

/-- The directories above made; whether they are all there then. -/
def makeAbove (o : Order) : List Raw → Job Bool
  | [] => pure true
  | path :: more => do
    match ← kind? path with
    | some .directory => makeAbove o more
    | some _ =>
      failed path (.file .notDirectory)
      return false
    | none =>
      match ← Job.ask (.makeDirectory path) with
      | .ok () =>
        tell o path
        makeAbove o more
      | .error e =>
        failed path e
        return false

/-- One directory made. -/
def make (o : Order) (path : Raw) : Job Unit := do
  if o.parents then
    if !(← makeAbove o (ancestors path)) then return
  match ← Job.ask (.makeDirectory path) with
  | .ok () => tell o path
  | .error e =>
    if o.parents && e = .file .fileExists && (← kind? path) = some .directory then return
    failed path e

/-- **The program.** -/
def image : Image := Job.task 1 fun words => do
  let (gs, operands) := table.read words
  Job.options gs fun key _ =>
    if ["help", "version"].any fun k => k.toList = key then Job.stop 0 else pure ()
  let o := gs.foldl (fun (o : Order) g => match g with
    | .option ['p'] _ => { o with parents := true }
    | .option ['v'] _ => { o with verbose := true }
    | .option ['m'] v => { o with mode := v }
    | _ => o) {}
  if operands.isEmpty then
    Job.complain "missing operand"
    Job.refuse
  match o.mode with
  | some t =>
    if !isMode t then
      Job.complain ("invalid mode " ++ Quotation.single t)
      Job.stop 1
  | none => pure ()
  operands.forM (make o)

end BuildMender.Host.MakeDirectory
