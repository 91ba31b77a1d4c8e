import BuildMender.Host.Shell.Locate
import BuildMender.Host.Shell.Options

/-!
# The directory of a shell

A shell remembers by which path it came to the directory it is in, and finds the way back up by that path.
It tells other programs of it by `PWD`, and of the directory before by `OLDPWD`.
-/

namespace BuildMender.Host.Sh

/-- The pieces of a path followed from the pieces of a directory, the last first. -/
def follow : List Raw → List Raw → List Raw
  | at_, [] => at_
  | at_, p :: ps =>
    if p.isEmpty ∨ p = ['.'] then follow at_ ps
    else if p = ['.', '.'] then follow at_.tail ps
    else follow (p :: at_) ps

/-- The path that another one leads to from a directory. Two slashes in front are kept. -/
def pathFrom (directory path : Raw) : Raw :=
  let absolute := path.head? = some '/'
  let double := startsDouble (if absolute then path else directory)
  let pieces := fun t : Raw => Text.split (· = '/') t
  let start := if absolute then [] else follow [] (pieces directory)
  let all := (follow start (pieces path)).reverse
  (if double then ['/'] else []) ++ '/' :: Text.join ['/'] all
where
  /-- Whether a path begins with two slashes and no more. -/
  startsDouble : Raw → Bool
    | '/' :: '/' :: t => t.head? ≠ some '/'
    | _ => false

/-- The path of the directory as the machine knows it. -/
def physicalPath : Sh Raw := do
  match ← ask .directory with
  | .ok t => return t
  | .error e =>
    warn ("getcwd() failed: " ++ e.message)
    return []

/-- The path of the directory remembered, and that of the one before. -/
def setPath (path : Option Raw) (tellOld : Bool) : Sh Unit := do
  if tellOld then setVariable "OLDPWD".toList (some ((← get).directory.getD [])) { exported := true }
  let physical ← physicalPath
  let path := path.getD physical
  modify fun s => { s with directory := some path, physical := some physical }
  setVariable "PWD".toList (some path) { exported := true }

/-- Whether a directory was entered. -/
def enter (path : Raw) (physical : Bool) : Sh Bool := do
  let here := (← get).directory.getD []
  let logical := if physical || (here.isEmpty && path.head? ≠ some '/') then none
    else some (pathFrom here path)
  match ← ask (.enter (logical.getD path)) with
  | .error _ => return false
  | .ok _ =>
    setPath logical true
    modify fun s => { s with found := s.found.map fun e => (e.1, { e.2 with stale := true }) }
    return true

/-- Whether paths are those of the machine, by the last of some options. -/
def isPhysical (os : List (Char × Raw)) : Bool := (os.getLast?.map Prod.fst) == some 'P'

/-- Whether a path is not looked for in other directories. -/
def isFixed (path : Raw) : Bool :=
  match path with
  | '/' :: _ | ['.'] | '.' :: '/' :: _ | ['.', '.'] | '.' :: '.' :: '/' :: _ => true
  | _ => false

/-- The first of some directories in which a path leads to a directory: that path, and whether it is
shown. -/
def lookFor (path : Raw) : List Raw → Sh (Option (Raw × Bool))
  | [] => pure none
  | d :: ds => do
    let candidate := Locate.pathIn d path
    match ← ask (.status candidate) with
    | .ok s =>
      if s.kind == .directory then return some (candidate, !d.isEmpty)
      else lookFor path ds
    | .error _ => lookFor path ds

/-- **Another directory entered.** -/
def changeDirectory (ws : List Raw) : Sh Nat := do
  let (os, ws) ← options "LP" ws
  let s ← get
  let back := ws.head? = some ['-']
  let wanted := match ws.head? with
    | none => s.valueOf "HOME".toList
    | some w => if back then s.valueOf "OLDPWD".toList else w
  let physical := isPhysical os
  let path := if wanted.isEmpty then ['.'] else wanted
  let found ← if isFixed wanted then pure none
    else
      match s.value? "CDPATH".toList with
      | none => pure none
      | some t => lookFor path (Locate.directories t)
  let (target, shown) := found.getD (path, false)
  if ← enter target physical then
    if shown || back then print ((← get).directory.getD [] ++ ['\n'])
    return 0
  else fail ("can't cd to " ++ path)

/-- The directory shown. -/
def showDirectory (ws : List Raw) : Sh Nat := do
  let (os, _) ← options "LP" ws
  let s ← get
  print ((if isPhysical os then s.physical.getD [] else s.directory.getD []) ++ ['\n'])
  return 0

end BuildMender.Host.Sh
