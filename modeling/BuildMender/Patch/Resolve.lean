import BuildMender.FileTask
import BuildMender.Patch

/-!
# Edit steps against a tree

Before anything is written, the steps of a patch are worked out in memory: each file is read once, when
the first step for it comes, and every step is applied to what the steps before it left. So a step may
look for text that an earlier step put in, and a failure anywhere leaves the tree as it was.

The new contents are written in two rounds. In the first a copy of each file is staged beside it
(`Drafts.stageAll`); if one cannot be, the copies made so far are removed again. In the second the copies
take the places of their files (`Drafts.replaceAll`).

Two spellings of one path are one file (`Drafts.find?` looks a path up by its components).
-/

namespace BuildMender

namespace Patch

/-- A target of a patch as a path below the root. A target that is absolute or goes up is outside. -/
def targetPath (root : Path) (target : Text) : Except PatchError Path :=
  let p : Path := ⟨target⟩
  if p.escapes then .error (.outsideRoot target)
  else .ok (root.join p)

/-- A path below the root as it is named in a patch. -/
def relativeName (root p : Path) : Text := Text.replace '\\' '/' ((root.relativeTo? p).getD p).text

end Patch

/-- New contents of files, worked out and not yet written. -/
abbrev Drafts := List (Path × Text)

namespace Drafts

/-- The new content of a file. -/
def find? (ds : Drafts) (p : Path) : Option Text := (List.find? (fun d => d.1.same p) ds).map Prod.snd

/-- A new content noted; a file that has one keeps its spelling. -/
def put (ds : Drafts) (p : Path) (content : Text) : Drafts :=
  if ds.any fun d => d.1.same p then ds.map fun d => if d.1.same p then (d.1, content) else d
  else ds ++ [(p, content)]

/-- The content of a file so far: its draft, or what the disk holds. -/
def current (ds : Drafts) (p : Path) (name : Text) : FileTask PatchError Text :=
  match ds.find? p with
  | some content => return content
  | none => do
    match ← FileTask.ask (.read p) with
    | .ok content => return content
    | .error .notFound => FileTask.fail (.missingTarget name)
    | .error e => FileTask.fail (.files p e)

/-- One step worked out. -/
def addStep (root : Path) (ds : Drafts) (step : EditStep) : FileTask PatchError Drafts := do
  let p ← Patch.targetPath root step.file
  let content ← ds.current p step.file
  match step.apply content with
  | some updated => return ds.put p updated
  | none => FileTask.fail (.searchTextNotFound step.file ((Text.lines step.search).head?.getD []))

/-- Steps worked out one after another, upon the drafts that there are. -/
def addSteps (root : Path) (ds : Drafts) : List EditStep → FileTask PatchError Drafts
  | [] => return ds
  | step :: more => do
    let ds ← addStep root ds step
    addSteps root ds more

/-- The files in the order of their paths. -/
def sorted (ds : Drafts) : Drafts := ds.mergeSort fun a b => a.1.compare b.1 != .gt

/-- **All steps worked out**, in the order of the files' paths. -/
def ofSteps (root : Path) (steps : List EditStep) : FileTask PatchError Drafts := do
  let ds ← addSteps root [] steps
  return ds.sorted

/-! ### Writing -/

/-- A copy with the new content of a file, and the file that it is for. -/
structure Staged where
  copy : Path
  file : Path
deriving DecidableEq, Inhabited

/-- Copies removed. -/
def discard : List Path → FileTask PatchError Unit
  | [] => return ()
  | copy :: more => do
    FileTask.ask (.remove copy)
    discard more

/-- A copy that was made given its content and the rights of its file. -/
def finish (s : Staged) (content : Text) : FileTask PatchError (Except FileError Unit) := do
  match ← FileTask.ask (.fill s.copy content) with
  | .error e => return .error e
  | .ok () => FileTask.ask (.rights s.file)

/-- The copies of all files made, after those made already. If one cannot be made, none is left. -/
def stageAll (root : Path) (staged : List Staged) : Drafts → FileTask PatchError (List Staged)
  | [] => return staged
  | (p, content) :: more => do
    match ← FileTask.ask (.create (p.parent?.getD root)) with
    | .error e => do
      discard (staged.map Staged.copy)
      FileTask.fail (.files p e)
    | .ok copy => do
      match ← finish ⟨copy, p⟩ content with
      | .error e => do
        discard (copy :: staged.map Staged.copy)
        FileTask.fail (.files p e)
      | .ok () => stageAll root (staged ++ [⟨copy, p⟩]) more

/-- The copies moved over their files. -/
def replaceAll : List Staged → FileTask PatchError Unit
  | [] => return ()
  | s :: more => do
    match ← FileTask.ask (.rename s.copy s.file) with
    | .error e => do
      discard (s.copy :: more.map Staged.copy)
      FileTask.fail (.files s.file e)
    | .ok () => replaceAll more

/-- **The new contents written**: all of them are put beside their files before the first file is
replaced. -/
def write (root : Path) (ds : Drafts) : FileTask PatchError Unit := do
  let staged ← stageAll root [] ds
  replaceAll staged

end Drafts

end BuildMender
