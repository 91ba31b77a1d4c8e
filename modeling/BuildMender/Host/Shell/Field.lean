import BuildMender.Host.Raw

/-!
# Fields

A word that has been expanded is a row of cells: characters, each with whether it was quoted, and the
marks of quotes. It becomes fields. Only what came from somewhere else is split, at the blanks and signs
that the shell has been told of; so the row comes in parts that say how they are split (`Part`). The parts
of `"$@"` are split between the parameters and nowhere else.

A blank ends a field together with the blanks around it, and with one sign among them; each other sign
ends a field of its own, even of no characters.
-/

namespace BuildMender.Host

/-- A cell of an expanded word. -/
inductive Cell where
  | char (c : Char) (quoted : Bool)
  | quote
  /-- What is between two parameters. -/
  | gap
deriving DecidableEq, Inhabited

/-- How a part of an expanded word is split. -/
inductive Splitting where
  | never
  /-- At blanks and signs. -/
  | blanks
  /-- Between parameters. -/
  | gaps
deriving DecidableEq, Inhabited

/-- A part of an expanded word. -/
structure Part where
  splitting : Splitting
  cells : List Cell
deriving DecidableEq, Inhabited

/-- An expanded word. -/
abbrev Expanded := List Part

namespace Cell

/-- The characters of some cells. -/
def text (cs : List Cell) : Raw := cs.filterMap fun
  | .char c _ => some c
  | _ => none

/-- A text as cells. -/
def ofText (t : Raw) : List Cell := t.map fun c => .char c false

/-- Whether there is a sign of a pattern among some cells, quoted or not. -/
def hasSign (cs : List Cell) : Bool := cs.any fun
  | .char c _ => c = '*' || c = '?' || c = '['
  | _ => false

/-- **The pattern that some cells are**: a quoted character stands behind a backslash, unless one stands
there already. -/
def pattern (cs : List Cell) : Raw := go true cs
where
  /-- The pattern; `free` says that no backslash stands before it. -/
  go : Bool → List Cell → Raw
    | _, [] => []
    | free, c :: cs =>
      match c with
      | .quote => go true cs
      | .gap => go true cs
      | .char '\\' false => '\\' :: go false cs
      | .char c quoted => (if quoted && free then ['\\', c] else [c]) ++ go true cs

end Cell

namespace Expanded

/-- All cells of an expanded word. -/
def cells (e : Expanded) : List Cell := e.flatMap Part.cells

/-- The text of an expanded word. -/
def text (e : Expanded) : Raw := Cell.text e.cells

end Expanded

/-! ### Splitting -/

namespace Field

/-- Where splitting stands. -/
structure Standing where
  /-- The fields so far, the last first. -/
  fields : List (List Cell) := []
  /-- The cells of the current field, the last first. -/
  current : List Cell := []
  /-- Whether a blank has ended the last field and nothing came after it but blanks. -/
  blank : Bool := false
  /-- How the last part was split. -/
  gapsOnly : Bool := false
  /-- How many fields there may be, if that is limited. -/
  left : Option Nat := none
  /-- Where the current field, which takes all that is left, may have to end. -/
  cut : Option Nat := none
deriving Inhabited

/-- Whether a cell is one of the blanks that are ignored between fields. -/
def isBlank : Cell → Bool
  | .char c _ => c = ' ' || c = '\t' || c = '\n'
  | .gap => true
  | .quote => false

/-- Whether a cell ends a field. -/
def isEnd (signs : Raw) : Cell → Bool
  | .char c _ => signs.contains c
  | .gap => true
  | .quote => false

/-- One cell of the last field. -/
def stepLast (signs : Raw) (s : Standing) (c : Cell) : Standing :=
  let ends := isEnd signs c
  let s' := { s with current := c :: s.current }
  if ends && isBlank c then { s' with cut := some (s.cut.getD s.current.length) }
  else { s' with cut := if ends && s.blank then s.cut else none, blank := false }

/-- A field ended before a cell that is not a part of it. -/
def finish (afterGaps gapsOnly : Bool) (s : Standing) (c : Cell) : Standing :=
  let blank := if afterGaps || gapsOnly then s.blank else isBlank c
  if s.current.isEmpty && blank then { s with blank := false }
  else
    match s.left with
    | some 1 =>
      { s with blank := blank, left := some 0, cut := some s.current.length, current := c :: s.current }
    | left =>
      { s with blank := blank, left := left.map (· - 1), fields := s.current.reverse :: s.fields, current := [] }

/-- One cell of a part. -/
def step (signs : Raw) (afterGaps gapsOnly : Bool) (s : Standing) (c : Cell) : Standing :=
  let ends := isEnd signs c
  if s.left = some 0 then stepLast signs s c
  else if s.blank then
    if ends && isBlank c then s
    else if ends then { s with blank := false }
    else { s with current := [c], blank := false }
  else if ends then finish afterGaps gapsOnly s c
  else { s with current := c :: s.current }

/-- One part. -/
def stepPart (signs : Raw) (s : Standing) (p : Part) : Standing :=
  match p.splitting with
  | .never => { s with current := p.cells.reverse ++ s.current }
  | kind =>
    let gapsOnly := kind == .gaps
    p.cells.foldl (step (if gapsOnly then [] else signs) s.gapsOnly gapsOnly)
      { s with blank := false, gapsOnly := gapsOnly }

/-- **The fields of an expanded word**, at most so many. -/
def split (signs : Raw) (limit : Option Nat) (e : Expanded) : List (List Cell) :=
  let s := e.foldl (stepPart signs) { left := limit }
  let current := match s.cut with
    | some n => s.current.drop (s.current.length - n)
    | none => s.current
  if s.gapsOnly || !current.isEmpty then (current.reverse :: s.fields).reverse else s.fields.reverse

end Field

end BuildMender.Host
