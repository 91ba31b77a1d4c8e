import BuildMender.Disk

/-!
# Copies beside files

A file is replaced in two moves: a copy with the new content is made beside it, under a name that
nothing there has, and the copy is then moved over it. So the file has its old content until the moment
it has its new one. A copy that is not needed after all is removed.

Making a copy and giving it its content can be refused (`Disk.refuses`); moving a copy that is there
over a file that is there cannot.
-/

namespace BuildMender.Disk

/-! ### Names for a while -/

/-- The name that is tried `n`-th for a file that stays for a while only. -/
def passingName (n : Nat) : Text :=
  let digits := Text.decimal n
  ".tmp" ++ Text.repeated (6 - digits.length) "0" ++ digits

/-- The first such name that nothing in a directory has. -/
def freshName (d : Disk) (at_ : Place) : Text :=
  passingName (((List.range d.nodes.length).find? fun n =>
    (d.node? (at_ ++ [passingName n])).isNone).getD d.nodes.length)

/-- The path that a copy in a directory gets. -/
def freshPath (d : Disk) (dir : Path) : Path :=
  dir.join ⟨d.freshName ((d.locate [] dir).toOption.getD [])⟩

/-! ### Changing one file -/

/-- A place emptied. -/
def erase (d : Disk) (at_ : Place) : Disk :=
  { d with nodes := d.nodes.filter fun e => e.1 != at_ }

/-- **A new empty file in a directory**, under a name of its own. -/
def create (d : Disk) (dir : Path) : Except FileError (Path × Disk) :=
  match d.locate [] (d.freshPath dir) with
  | .error e => .error e
  | .ok at_ =>
    if (d.node? at_).isSome then .error .fileExists
    else match d.refuses (.create at_) with
      | some e => .error e
      | none => .ok (d.freshPath dir, d.put at_ (.file ⟨#[]⟩))

/-- A file that is there given another content. -/
def fill (d : Disk) (p : Path) (content : Text) : Except FileError Disk :=
  match d.find [] p with
  | .error e => .error e
  | .ok (_, .directory) => .error .isDirectory
  | .ok (at_, .file _) =>
    match d.refuses (.fill at_) with
    | some e => .error e
    | none => .ok (d.put at_ (.file (Text.toBytes content)))

/-- **A file moved** to another path, over the file that stands there. -/
def rename (d : Disk) (p target : Path) : Except FileError Disk :=
  match d.find [] p with
  | .error e => .error e
  | .ok (_, .directory) => .error .isDirectory
  | .ok (from_, .file content) =>
    match d.locate [] target with
    | .error e => .error e
    | .ok at_ =>
      match d.node? at_ with
      | some .directory => .error .isDirectory
      | _ => .ok ((d.erase from_).put at_ (.file content))

/-- A file removed, if it is there. -/
def remove (d : Disk) (p : Path) : Disk :=
  match d.find [] p with
  | .ok (at_, .file _) => d.erase at_
  | _ => d

end BuildMender.Disk
