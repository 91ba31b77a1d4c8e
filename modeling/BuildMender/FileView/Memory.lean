import BuildMender.FileView

/-!
# Files held in memory

Files and directories kept as a list of paths with their contents. A path counts by its components,
and a relative one is taken from the root of the files. Adding a file makes the directories above it.
-/

namespace BuildMender

/-- Files and directories in memory; an entry without content is a directory. -/
structure MemoryFiles where
  /-- Where relative paths start. -/
  root : Path
  entries : List (Path × Option Text)
deriving Inhabited

namespace MemoryFiles

/-- No files, with a given root. -/
def empty (root : Path) : MemoryFiles := ⟨root, []⟩

/-- A path taken from the root. -/
def anchor (m : MemoryFiles) (p : Path) : Path := if p.isAbsolute then p else m.root.join p

/-- What stands at a path that has been taken from the root. -/
def find? (m : MemoryFiles) (p : Path) : Option (Option Text) :=
  (m.entries.find? fun e => e.1.same p).map Prod.snd

/-- What stands at a path. -/
def lookup (m : MemoryFiles) (p : Path) : Option (Option Text) := m.find? (m.anchor p)

/-- Something put at a path; an entry that is there keeps its spelling. -/
def put (m : MemoryFiles) (p : Path) (content : Option Text) : MemoryFiles :=
  if m.entries.any fun e => e.1.same p then
    { m with entries := m.entries.map fun e => if e.1.same p then (e.1, content) else e }
  else { m with entries := m.entries ++ [(p, content)] }

/-- The path made of some components. -/
def ofComponents (cs : List Path.Component) : Path :=
  cs.foldl (fun p c => p.join ⟨c.text⟩) ⟨[]⟩

/-- The directories above and including a path made, where nothing is there yet. -/
def makeDirectories (m : MemoryFiles) (p : Path) : MemoryFiles :=
  let cs := p.components
  (List.range cs.length).foldl (fun m n =>
    let q := ofComponents (cs.take (n + 1))
    if (m.find? q).isSome then m else m.put q none) m

/-- A file added, with the directories above it. -/
def addFile (m : MemoryFiles) (p : Path) (content : Text) : MemoryFiles :=
  let p := m.anchor p
  let m := match p.parent? with
    | some dir => m.makeDirectories dir
    | none => m
  m.put p (some content)

/-- A directory added, with the directories above it. -/
def addDirectory (m : MemoryFiles) (p : Path) : MemoryFiles := m.makeDirectories (m.anchor p)

/-- The content of a file. -/
def read (m : MemoryFiles) (p : Path) : Except Text Text :=
  match m.lookup p with
  | some (some content) => .ok content
  | some none => .error ("Not a file: " ++ p.text)
  | none => .error ("File not found: " ++ p.text)

/-- The entries directly below a path. -/
def children (m : MemoryFiles) (p : Path) : List DirectoryEntry :=
  ((m.entries.filter fun e => e.1.parent?.any (·.same p)).mergeSort
      fun a b => a.1.compare b.1 != .gt).map fun e =>
    ⟨e.1, e.1.fileName?.getD [], if e.2.isSome then .file else .directory⟩

/-- The entries of a directory, sorted by name. -/
def list (m : MemoryFiles) (p : Path) : Except Text (List DirectoryEntry) :=
  let p := m.anchor p
  match m.find? p with
  | some none => .ok ((m.children p).mergeSort DirectoryEntry.precedes)
  | some (some _) => .error ("Not a directory: " ++ p.text)
  | none => .error ("Directory not found: " ++ p.text)

/-- The files as a view. -/
def view (m : MemoryFiles) : FileView where
  exists? p := (m.lookup p).isSome
  isDirectory p := m.lookup p == some none
  isFile p := (m.lookup p).any Option.isSome
  read := m.read
  list := m.list

end MemoryFiles

end BuildMender
