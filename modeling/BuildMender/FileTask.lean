import BuildMender.Disk.Copy

/-!
# Tasks on files

A task is a piece of work with the files of a disk, written down as the calls it makes: it is done, or
it makes a call and goes on with the answer. It knows nothing of the disk but these answers. So a task
can be run on a disk (`FileTask.run`), and it can be asked which paths it reaches there
(`FileTask.reached`), and the two cannot disagree.
-/

namespace BuildMender

/-- What a task may ask of a disk. -/
inductive FileCall where
  /-- Whether a file stands at a path. -/
  | isFile (p : Path)
  /-- The text of a file. -/
  | read (p : Path)
  /-- A new empty file in a directory. -/
  | create (dir : Path)
  /-- A file given its content. -/
  | fill (p : Path) (content : Text)
  /-- The rights of a file looked up. -/
  | rights (p : Path)
  /-- A file moved over another. -/
  | rename (p target : Path)
  /-- A file removed. -/
  | remove (p : Path)
deriving DecidableEq, Inhabited

namespace FileCall

/-- What a call is answered with. -/
abbrev Answer : FileCall → Type
  | .isFile _ => Bool
  | .read _ => Except FileError Text
  | .create _ => Except FileError Path
  | .fill _ _ => Except FileError Unit
  | .rights _ => Except FileError Unit
  | .rename _ _ => Except FileError Unit
  | .remove _ => Unit

/-- The paths that a call reaches. A new file is reached under its own path and in its directory. -/
def paths (d : Disk) : FileCall → List Path
  | .isFile p => [p]
  | .read p => [p]
  | .create dir => [dir, d.freshPath dir]
  | .fill p _ => [p]
  | .rights p => [p]
  | .rename p target => [p, target]
  | .remove p => [p]

end FileCall

/-- A change that may fail: its outcome, and the disk after it. -/
def Disk.changed (d : Disk) : Except FileError Disk → Except FileError Unit × Disk
  | .ok d => (.ok (), d)
  | .error e => (.error e, d)

/-- **A call answered**, with the disk after it. -/
def Disk.answer (d : Disk) : (c : FileCall) → c.Answer × Disk
  | .isFile p => (d.hasFile p, d)
  | .read p => (d.readText p, d)
  | .create dir =>
    match d.create dir with
    | .ok (p, d) => (.ok p, d)
    | .error e => (.error e, d)
  | .fill p content => d.changed (d.fill p content)
  | .rights p =>
    match d.find [] p with
    | .ok _ => (.ok (), d)
    | .error e => (.error e, d)
  | .rename p target => d.changed (d.rename p target)
  | .remove p => ((), d.remove p)

/-- **A task**: a result or a failure, or a call and what comes after its answer. -/
inductive FileTask (ε α : Type) where
  | done (result : Except ε α)
  | call (c : FileCall) (next : c.Answer → FileTask ε α)

namespace FileTask

variable {ε α β : Type}

/-- A task carried on with its result; a failure ends it. -/
def bind (t : FileTask ε α) (f : α → FileTask ε β) : FileTask ε β :=
  match t with
  | .done (.ok a) => f a
  | .done (.error e) => .done (.error e)
  | .call c next => .call c fun answer => (next answer).bind f

instance : Monad (FileTask ε) where
  pure a := .done (.ok a)
  bind := bind

/-- What needs no files. -/
instance : MonadLift (Except ε) (FileTask ε) where
  monadLift := .done

/-- A task that fails. -/
def fail (e : ε) : FileTask ε α := .done (.error e)

/-- One call. -/
def ask (c : FileCall) : FileTask ε c.Answer := .call c fun answer => .done (.ok answer)

/-- **The task run on a disk**: its result, and the disk it leaves. -/
def run : FileTask ε α → Disk → Except ε α × Disk
  | .done result, d => (result, d)
  | .call c next, d => (next (d.answer c).1).run (d.answer c).2

/-- **The paths that the task reaches** when it is run on a disk, in order. -/
def reached : FileTask ε α → Disk → List Path
  | .done _, _ => []
  | .call c next, d => c.paths d ++ (next (d.answer c).1).reached (d.answer c).2

end FileTask

end BuildMender
