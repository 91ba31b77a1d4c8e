import BuildMender.Path

/-!
# Looking at files

Reading a project's files needs four questions about a path: is something there, is it a directory, a
file, and what does it hold. A `FileView` answers them. Where the answers come from, a tree on disk or
files held in memory, is nothing its users know.
-/

namespace BuildMender

/-- What a directory entry is. -/
inductive EntryKind where
  | file
  | directory
  | other
deriving DecidableEq, Inhabited

/-- An entry of a directory. -/
structure DirectoryEntry where
  path : Path
  name : Text
  kind : EntryKind
deriving DecidableEq, Inhabited

/-- Answers to questions about files; a failure is the text that explains it. -/
structure FileView where
  exists? : Path → Bool
  isDirectory : Path → Bool
  isFile : Path → Bool
  read : Path → Except Text Text
  /-- The entries of a directory, sorted by name. -/
  list : Path → Except Text (List DirectoryEntry)

namespace DirectoryEntry

/-- The order of entries in a listing. -/
def precedes (a b : DirectoryEntry) : Bool := Path.compareText a.name b.name != .gt

end DirectoryEntry

end BuildMender
