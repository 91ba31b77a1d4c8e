import BuildMender.Text.Class

/-!
# Paths

A path is text, and what it means is the list of its components: the root if it starts with a slash,
then the names between slashes. Repeated slashes do not count, nor does a dot between slashes; only a
leading dot and `..` are components of their own. Two paths that differ in spelling only are the same
path (`Path.same`).

Operations that give a path back keep the spelling of what they keep: the parent of `a//b/c` is
`a//b`. So a path is taken apart into its lead and the pieces between slashes (`Path.lead`,
`Path.pieces`), cut there, and put together again (`Path.assemble`).
-/

namespace BuildMender

/-- A path, as it is spelled. -/
structure Path where
  /-- The spelling. -/
  text : Text
deriving DecidableEq, Inhabited

instance : Coe String Path := ⟨fun s => ⟨s.toList⟩⟩

namespace Path

/-- One step of the meaning of a path. -/
inductive Component where
  /-- The root of the file system. -/
  | root
  /-- The directory the path starts from, when it is written out. -/
  | here
  /-- The parent directory. -/
  | up
  /-- A name inside the directory reached so far. -/
  | name (text : Text)
deriving DecidableEq

/-- How a path begins: at the root, with a written-out dot, or with a name. -/
inductive Lead where
  | root
  | here
  | bare
deriving DecidableEq

/-! ### Taking apart and putting together -/

/-- The pieces of a text between slashes. -/
def slashed (t : Text) : List Text := Text.split (· = '/') t

/-- How a path begins. -/
def lead (p : Path) : Lead :=
  match p.text with
  | '/' :: _ => .root
  | ['.'] => .here
  | '.' :: '/' :: _ => .here
  | _ => .bare

/-- The pieces between slashes that follow the lead, empty ones and dots included. -/
def pieces (p : Path) : List Text :=
  match p.text with
  | '/' :: rest => slashed rest
  | ['.'] => []
  | '.' :: '/' :: rest => slashed rest
  | t => slashed t

/-- A piece that names nothing: an empty one, or a dot. -/
def idle (piece : Text) : Bool := piece.isEmpty || piece == ['.']

/-- The path with a given lead and given pieces. -/
def assemble : Lead → List Text → Path
  | .root, ps => ⟨'/' :: Text.join "/" ps⟩
  | .here, ps => ⟨'.' :: (ps.map ('/' :: ·)).flatten⟩
  | .bare, ps => ⟨Text.join "/" ps⟩

/-- The pieces without the idle ones at the end. -/
def settled (ps : List Text) : List Text := (ps.reverse.dropWhile idle).reverse

/-- The component that a piece stands for. -/
def component (piece : Text) : Component := if piece = ['.', '.'] then .up else .name piece

/-- **The meaning of a path**: its components from left to right. -/
def components (p : Path) : List Component :=
  (match p.lead with
    | .root => [.root]
    | .here => [.here]
    | .bare => []) ++ (p.pieces.filter fun piece => !idle piece).map component

/-- The spelling of a component. -/
def Component.text : Component → Text
  | .root => "/"
  | .here => "."
  | .up => ".."
  | .name t => t

/-- Two spellings of one path. -/
def same (a b : Path) : Bool := a.components == b.components

/-- A path that starts at the root. -/
def isAbsolute (p : Path) : Bool := p.lead == .root

/-- A path that can lead out of the directory it is taken from: one that starts at the root, or goes
up. -/
def escapes (p : Path) : Bool := p.isAbsolute || p.components.contains .up

/-! ### Parts of a path -/

/-- The path without its last component. A root and an empty path have no parent. -/
def parent? (p : Path) : Option Path :=
  match settled p.pieces with
  | [] => if p.lead = .here then some ⟨[]⟩ else none
  | piece :: more => some (assemble p.lead (settled (piece :: more).dropLast))

/-- The last component, when it is a name. -/
def fileName? (p : Path) : Option Text :=
  match (settled p.pieces).getLast? with
  | some piece => if piece = ['.', '.'] then none else some piece
  | none => none

/-- A file name's stem and extension, cut at its last dot. A name without a dot, or with its only dot
in front, is all stem. -/
def stemAndExtension (name : Text) : Text × Option Text :=
  match Text.cutLast "." name with
  | some ([], _) => (name, none)
  | some (stem, ext) => (stem, some ext)
  | none => (name, none)

/-- The part of the file name before its last dot. -/
def stem? (p : Path) : Option Text := p.fileName?.map fun n => (stemAndExtension n).1

/-- The part of the file name after its last dot. -/
def extension? (p : Path) : Option Text := p.fileName?.bind fun n => (stemAndExtension n).2

/-- The path up to the end of its file name's stem, with an extension put after it. A path without a
file name stays as it is. The extension is not looked at: a slash in it is one in the path. -/
def replaceExtension (ext : Text) (p : Path) : Path :=
  match p.stem? with
  | none => p
  | some stem =>
    let spelled := (assemble p.lead ((settled p.pieces).dropLast ++ [stem])).text
    ⟨if ext.isEmpty then spelled else spelled ++ "." ++ ext⟩

/-- **The path with another extension.** As many characters as the old extension has are taken off
the end of the spelling before the new one is put after the stem; so `..h`, whose stem is a single
dot, loses its file name and stays `..`. -/
def withExtension (ext : Text) (p : Path) : Path :=
  match p.extension? with
  | none => p.replaceExtension ext
  | some old => replaceExtension ext ⟨p.text.take (p.text.length - old.length)⟩

/-! ### Combining paths -/

/-- A path taken from a directory: an absolute path stands alone, and a relative one follows the
directory after a slash. -/
def join (dir p : Path) : Path :=
  if p.isAbsolute then p
  else if dir.text.isEmpty || Text.endsWith "/" dir.text then ⟨dir.text ++ p.text⟩
  else ⟨dir.text ++ "/" ++ p.text⟩

/-- The pieces after the first `n` that are not idle. -/
def dropActive : Nat → List Text → List Text
  | 0, ps => ps
  | _ + 1, [] => []
  | n + 1, piece :: more => if idle piece then dropActive (n + 1) more else dropActive n more

/-- The path as seen from a directory above it, when the directory's components are the first of the
path's. -/
def relativeTo? (base p : Path) : Option Path :=
  if base.components.isPrefixOf p.components then
    if base.components.isEmpty then some (assemble p.lead (settled p.pieces))
    else
      let taken := base.components.length - (if p.lead = .bare then 0 else 1)
      some (assemble .bare (settled ((dropActive taken p.pieces).dropWhile idle)))
  else none

/-! ### Order -/

/-- Lexicographic comparison of lists by a comparison of their members: the first members that differ
decide, and a list comes before those that it begins. -/
def compareLists {α : Type} (cmp : α → α → Ordering) : List α → List α → Ordering
  | a :: as, b :: bs => (cmp a b).then (compareLists cmp as bs)
  | as, [] => if as.isEmpty then .eq else .gt
  | [], _ => .lt

/-- Texts in the order of their characters' code points. -/
def compareText (a b : Text) : Ordering := compareLists (fun c d => compare c.toNat d.toNat) a b

/-- The rank of a component among components of other kinds. -/
def Component.rank : Component → Nat
  | .root => 0
  | .here => 1
  | .up => 2
  | .name _ => 3

/-- The root before a dot before `..` before names, and names in text order. -/
def Component.compare : Component → Component → Ordering
  | .name a, .name b => compareText a b
  | a, b => Ord.compare a.rank b.rank

/-- Paths in the order of their components. -/
def compare (a b : Path) : Ordering := compareLists Component.compare a.components b.components

end Path

end BuildMender
