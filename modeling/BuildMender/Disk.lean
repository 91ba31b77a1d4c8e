import BuildMender.FileView
import BuildMender.Text.Utf8

/-!
# Files on disk

A disk is a tree of directories and files, and a file holds bytes. A place on it is the list of names
from the root. A path is followed component by component: each directory on the way has to be there,
`..` leads to the directory above, and a slash at the end asks for a directory.

Every operation that can fail says why with a `FileError`. What fails leaves the disk as it was, with one
exception: a file is emptied before it is written over, so a write that breaks off leaves it with the
beginning of its new content (`Disk.overwrite`).
-/

namespace BuildMender

/-- Why a file operation failed. -/
inductive FileError where
  | notFound
  | permissionDenied
  | fileExists
  | notDirectory
  | isDirectory
  | notEmpty
  | nameTooLong
  /-- A path held the character that ends names. -/
  | badName
  /-- The bytes of a file are no text. -/
  | notText
deriving DecidableEq, Inhabited

namespace FileError

/-- What went wrong, in words. -/
def message : FileError → Text
  | .notFound => "No such file or directory (os error 2)"
  | .permissionDenied => "Permission denied (os error 13)"
  | .fileExists => "File exists (os error 17)"
  | .notDirectory => "Not a directory (os error 20)"
  | .isDirectory => "Is a directory (os error 21)"
  | .notEmpty => "Directory not empty (os error 39)"
  | .nameTooLong => "File name too long (os error 36)"
  | .badName => "file name contained an unexpected NUL byte"
  | .notText => "stream did not contain valid UTF-8"

/-- What went wrong, in few words. -/
def brief : FileError → Text
  | .notFound => "No such file or directory"
  | .permissionDenied => "Permission denied"
  | .fileExists => "File exists"
  | .notDirectory => "Not a directory"
  | .isDirectory => "Is a directory"
  | .notEmpty => "Directory not empty"
  | .nameTooLong => "File name too long"
  | .badName => "Invalid argument"
  | .notText => "Invalid argument"

end FileError

/-- What stands at a place. -/
inductive Node where
  | file (content : ByteArray)
  | directory
deriving Inhabited

instance : DecidableEq Node
  | .file a, .file b =>
    match ByteArray.decEq a b with
    | .isTrue h => .isTrue (congrArg Node.file h)
    | .isFalse h => .isFalse fun e => h (Node.file.inj e)
  | .file _, .directory => .isFalse nofun
  | .directory, .file _ => .isFalse nofun
  | .directory, .directory => .isTrue rfl

/-- A place: the names from the root. -/
abbrev Place := List Text

/-- What can fail for reasons that a tree does not show, such as rights or a lack of space. -/
inductive FileDeed where
  /-- The file at a place is read. -/
  | read (at_ : Place)
  /-- A file is made at a place. -/
  | create (at_ : Place)
  /-- The file at a place is opened to be written over, or one is made there for that. -/
  | overwrite (at_ : Place)
  /-- The file just made or opened at a place is given its content. -/
  | fill (at_ : Place)
  /-- A scratch file is made, which is in no project. -/
  | createScratch
  /-- The scratch file just made is given its content. -/
  | fillScratch
deriving DecidableEq, Inhabited

/-- A tree of directories and files. -/
structure Disk where
  nodes : List (Place × Node)
  /-- What is refused, and with which error. -/
  refuses : FileDeed → Option FileError := fun _ => none
  /-- How many bytes a file that is written over has been given when the rest is refused. -/
  begun : Place → Nat := fun _ => 0
deriving Inhabited

namespace Disk

/-! ### Places -/

/-- What stands at a place; at the root there is always a directory. -/
def node? (d : Disk) (at_ : Place) : Option Node :=
  if at_.isEmpty then some .directory else d.nodes.lookup at_

/-- The longest name, in bytes. -/
def maxName : Nat := 255

/-- The shortest path that is too long, in bytes. -/
def pathBound : Nat := 4096

/-- **Following components** from a place. Every step starts from a directory. -/
def follow (d : Disk) : Place → List Path.Component → Except FileError Place
  | at_, [] => .ok at_
  | _, .root :: more => follow d [] more
  | at_, .here :: more => follow d at_ more
  | at_, c :: more =>
    match d.node? at_ with
    | none => .error .notFound
    | some (.file _) => .error .notDirectory
    | some .directory =>
      match c with
      | .name n =>
        if maxName < (Text.toBytes n).size then .error .nameTooLong
        else follow d (at_ ++ [n]) more
      | _ => follow d at_.dropLast more

/-- Whether a path asks for a directory by the way it ends. -/
def asksDirectory (p : Path) : Bool := Text.endsWith "/" p.text || Text.endsWith "/." p.text

/-- The place of a path, taken from a directory if it is relative, whether or not something is
there. -/
def locate (d : Disk) (from_ : Place) (p : Path) : Except FileError Place :=
  if p.text.contains (Char.ofNat 0) then .error .badName
  else if p.text.isEmpty then .error .notFound
  else if pathBound ≤ (Text.toBytes p.text).size then .error .nameTooLong
  else
    match d.follow from_ p.components with
    | .error e => .error e
    | .ok at_ =>
      match d.node? at_ with
      | some (.file _) => if asksDirectory p then .error .notDirectory else .ok at_
      | _ => .ok at_

/-! ### Looking -/

/-- What stands at a path. -/
def find (d : Disk) (from_ : Place) (p : Path) : Except FileError (Place × Node) :=
  match d.locate from_ p with
  | .error e => .error e
  | .ok at_ =>
    match d.node? at_ with
    | none => .error .notFound
    | some n => .ok (at_, n)

/-- Whether something stands at an absolute path. -/
def has (d : Disk) (p : Path) : Bool :=
  match d.find [] p with
  | .ok _ => true
  | .error _ => false

/-- Whether a directory stands at an absolute path. -/
def hasDirectory (d : Disk) (p : Path) : Bool :=
  match d.find [] p with
  | .ok (_, .directory) => true
  | _ => false

/-- Whether a file stands at an absolute path. -/
def hasFile (d : Disk) (p : Path) : Bool :=
  match d.find [] p with
  | .ok (_, .file _) => true
  | _ => false

/-- The bytes of a file. -/
def readBytes (d : Disk) (from_ : Place) (p : Path) : Except FileError ByteArray :=
  match d.find from_ p with
  | .error e => .error e
  | .ok (_, .directory) => .error .isDirectory
  | .ok (at_, .file content) =>
    match d.refuses (.read at_) with
    | some e => .error e
    | none => .ok content

/-- **The text of a file** at an absolute path. -/
def readText (d : Disk) (p : Path) : Except FileError Text :=
  match d.readBytes [] p with
  | .error e => .error e
  | .ok content =>
    match Text.ofBytes? content with
    | some t => .ok t
    | none => .error .notText

/-- The names and nodes directly below a place. -/
def below (d : Disk) (at_ : Place) : List (Text × Node) :=
  d.nodes.filterMap fun (q, n) =>
    if q.dropLast = at_ then q.getLast?.map fun name => (name, n) else none

/-- The names in a directory, sorted. -/
def names (d : Disk) (from_ : Place) (p : Path) : Except FileError (List (Text × Node)) :=
  match d.find from_ p with
  | .error e => .error e
  | .ok (_, .file _) => .error .notDirectory
  | .ok (at_, .directory) =>
    .ok ((d.below at_).mergeSort fun a b => Path.compareText a.1 b.1 != .gt)

/-! ### Changing -/

/-- A node put at a place. -/
def put (d : Disk) (at_ : Place) (n : Node) : Disk :=
  if d.nodes.any fun e => e.1 == at_ then
    { d with nodes := d.nodes.map fun e => if e.1 == at_ then (e.1, n) else e }
  else { d with nodes := d.nodes ++ [(at_, n)] }

/-- **A file written over**, or made with some content. It is opened, which empties it, and then given the
content; if that is refused it is left with the beginning. -/
def overwrite (d : Disk) (at_ : Place) (content : ByteArray) : Except FileError Unit × Disk :=
  match d.refuses (.overwrite at_) with
  | some e => (.error e, d)
  | none =>
    match d.refuses (.fill at_) with
    | some e => (.error e, d.put at_ (.file (content.extract 0 (d.begun at_))))
    | none => (.ok (), d.put at_ (.file content))

/-- A file written: a new one in a directory that is there, or an old one with new content. -/
def writeBytes (d : Disk) (from_ : Place) (p : Path) (content : ByteArray) :
    Except FileError Unit × Disk :=
  match d.locate from_ p with
  | .error e => (.error e, d)
  | .ok at_ =>
    match d.node? at_ with
    | some .directory => (.error .isDirectory, d)
    | some (.file _) => d.overwrite at_ content
    | none =>
      match d.node? at_.dropLast with
      | some .directory =>
        if asksDirectory p then (.error .isDirectory, d) else d.overwrite at_ content
      | some (.file _) => (.error .notDirectory, d)
      | none => (.error .notFound, d)

/-- A text written to an absolute path. -/
def writeText (d : Disk) (p : Path) (t : Text) : Except FileError Unit × Disk :=
  d.writeBytes [] p (Text.toBytes t)

/-- A directory made in a directory that is there. -/
def makeDirectory (d : Disk) (from_ : Place) (p : Path) : Except FileError Disk :=
  match d.locate from_ p with
  | .error e => .error e
  | .ok at_ =>
    match d.node? at_ with
    | some _ => .error .fileExists
    | none =>
      match d.node? at_.dropLast with
      | some .directory => .ok (d.put at_ .directory)
      | some (.file _) => .error .notDirectory
      | none => .error .notFound

/-- The directories above and including a place made, where nothing is there. -/
def makePlaces (d : Disk) (at_ : Place) : Disk :=
  (List.range at_.length).foldl (fun d n =>
    let q := at_.take (n + 1)
    if (d.node? q).isSome then d else d.put q .directory) d

/-- A place and all below it removed. -/
def clear (d : Disk) (at_ : Place) : Disk :=
  { d with nodes := d.nodes.filter fun e => !at_.isPrefixOf e.1 }

/-! ### The disk as a view -/

/-- The entries of a directory. -/
def list (d : Disk) (p : Path) : Except Text (List DirectoryEntry) :=
  match d.names [] p with
  | .error _ => .error ("Failed to read directory " ++ p.text)
  | .ok ns => .ok (ns.map fun (name, n) =>
      ⟨p.join ⟨name⟩, name, match n with
        | .file _ => .file
        | .directory => .directory⟩)

/-- The disk as a view of absolute paths. -/
def view (d : Disk) : FileView where
  exists? := d.has
  isDirectory := d.hasDirectory
  isFile := d.hasFile
  read p := match d.readText p with
    | .ok t => .ok t
    | .error _ => .error ("Failed to read file " ++ p.text)
  list := d.list

/-! ### Projects on disk -/

/-- The place of an absolute path without `..`. -/
def placeOf (p : Path) : Place :=
  p.components.filterMap fun
    | .name n => some n
    | _ => none

/-- The directories in which programs are found. -/
def programPlaces : List Place := [["usr", "bin"], ["bin"]]

/-- The names of the programs of a machine. -/
def programNames : List Text :=
  Text.split (· = ' ') ("sh dash true false echo sleep cat ls mkdir rm grep" : String).toList

/-- Whether a program stands at a place. -/
def isProgram (at_ : Place) : Bool :=
  programPlaces.contains at_.dropLast && at_.getLast?.any programNames.contains

/-- What the file of a program begins with, which is no text. -/
def programHead : ByteArray := ⟨#[0x7f, 0x45, 0x4c, 0x46, 0x2, 0x1, 0x1, 0x0, 0xff]⟩

/-- The programs of a machine. -/
def programs : List (Place × Node) :=
  programPlaces.flatMap fun at_ => programNames.map fun n => (at_ ++ [n], .file programHead)

/-- The directories of a machine besides projects. -/
def systemDirectories : List Place :=
  [["dev"], ["dev", "fd"], ["proc"], ["proc", "self"], ["proc", "self", "fd"], ["etc"], ["tmp"], ["usr"],
    ["usr", "bin"], ["usr", "lib"], ["usr", "include"], ["bin"], ["lib"], ["home"], ["root"], ["opt"],
    ["var"]]

/-- The files of a machine besides projects and programs. -/
def systemFiles : List Place :=
  [["dev", "null"], ["dev", "zero"], ["dev", "full"], ["dev", "stdin"], ["dev", "stdout"],
    ["dev", "stderr"], ["etc", "passwd"], ["etc", "hosts"]]

/-- What a machine has besides projects. -/
def system : List (Place × Node) :=
  systemDirectories.map (fun at_ => (at_, .directory)) ++
    systemFiles.map (fun at_ => (at_, .file ⟨#[]⟩)) ++ programs

/-- A machine with an empty project at a root. -/
def ofRoot (root : Path) : Disk := makePlaces { nodes := system } (placeOf root)

/-- A file put at a place, with the directories above it. -/
def addFile (d : Disk) (at_ : Place) (content : ByteArray) : Disk :=
  (d.makePlaces at_.dropLast).put at_ (.file content)

/-- What lies below a place: the names from there on, and the node. -/
def contents (d : Disk) (at_ : Place) : List (Place × Node) :=
  d.nodes.filterMap fun (q, n) =>
    match at_.isPrefixOf? q with
    | some (name :: more) => some (name :: more, n)
    | _ => none

end Disk

end BuildMender
