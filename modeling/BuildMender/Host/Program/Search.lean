import BuildMender.Host.Pattern
import BuildMender.Host.Program.Search.Matcher

/-!
# The program that searches lines

The program looks for patterns in the lines of files, and prints the lines that match, parts of them, their
number, or the names of the files. Lines around a line that matches can be printed with it; then a
separator stands between lines that were not next to each other.

In a file that is not text, since there are zeros in it, lines end at zeros too; no lines are printed, but it
is said that there are some.
-/

namespace BuildMender.Host.Search

/-- What the search has come to. -/
structure Standing where
  /-- Whether something was found. -/
  found : Bool := false
  /-- Whether something went wrong. -/
  failed : Bool := false
  /-- Whether a line was printed. -/
  used : Bool := false
  /-- Whether names are printed in front of lines. -/
  named : Bool := false
deriving Inhabited

/-- A search. -/
structure Search where
  order : Order
  matcher : Matcher
  /-- What the output leads to, if that is known. -/
  output : Option FileStatus
deriving Inhabited

namespace Search

/-- Whether what is written goes nowhere. -/
def isUnseen (s : Search) : Bool := s.output.any fun f => f.identity == ["dev".toList, "null".toList]

/-- Whether the first line that matches is enough. -/
def stopsAtFirst (s : Search) : Bool := s.order.quiet || s.isUnseen || s.order.naming != .nothing

/-- Whether lines are counted. -/
def counts (s : Search) : Bool := s.order.counting && !s.stopsAtFirst

/-- Whether no lines are printed. -/
def isQuiet (s : Search) : Bool := s.stopsAtFirst || s.order.counting

/-- The sign at the end of a line. -/
def lineEnd (s : Search) : Char := if s.order.zeros then Char.ofNat 0 else '\n'

/-! ### Printing -/

/-- A text in a color. -/
def colored (s : Search) (color : String) (t : Raw) : Raw :=
  if s.order.colored then
    '\x1b' :: '[' :: color.toList ++ "m\x1b[K".toList ++ t ++ "\x1b[m\x1b[K".toList
  else t

/-- A sign between the parts of a line. -/
def sign (s : Search) (c : Char) : Raw := s.colored "36" [c]

/-- A name. -/
def nameText (s : Search) (name : Raw) : Raw := s.colored "35" name

/-- A number of at least some width. -/
def number (s : Search) (width n : Nat) : Raw :=
  let t := Text.decimal n
  s.colored "32" (List.replicate (width - t.length) ' ' ++ t)

/-- A line of a file. -/
structure FileLine where
  number : Nat
  /-- How many bytes are in front of it. -/
  offset : Nat
  text : Raw
  /-- Whether it is selected. -/
  selected : Bool
deriving Inhabited

/-- A file that is searched. -/
structure Subject where
  name : Raw
  /-- Whether its name is printed in front of lines. -/
  named : Bool
  /-- How wide numbers are. -/
  width : Nat
deriving Inhabited

/-- What stands in front of a line, or of a part of it with an offset. -/
def head (s : Search) (x : Subject) (c : Char) (number offset length : Nat) : Raw :=
  let o := s.order
  (if x.named then s.nameText x.name ++ (if o.zeroAfterName then [Char.ofNat 0] else s.sign c) else []) ++
    (if o.numbered then s.number x.width number ++ s.sign c else []) ++
    (if o.offsets then s.number x.width offset ++ s.sign c else []) ++
    (if o.tabs && (x.named || o.numbered || o.offsets) && 0 < length then ['\t'] else [])

/-- A text with some parts of it colored. -/
def painted (s : Search) (t : Raw) : Nat → List (Nat × Nat) → Raw
  | at_, [] => t.drop at_
  | at_, (a, b) :: ps =>
    (t.drop at_).take (a - at_) ++ s.colored "01;31" ((t.drop a).take (b - a)) ++ painted s t b ps

/-- A line as it is printed behind a sign. -/
def lineText (s : Search) (x : Subject) (c : Char) (l : FileLine) : Raw :=
  let o := s.order
  let showsParts := (c = ':') != o.inverted
  if o.only then
    if showsParts then
      (s.matcher.parts l.text).flatMap fun (a, b) =>
        s.head x c l.number (l.offset + a) (b - a) ++ s.colored "01;31" ((l.text.drop a).take (b - a)) ++
          [s.lineEnd]
    else []
  else
    let body := if o.colored && showsParts then s.painted l.text 0 (s.matcher.parts l.text) else l.text
    s.head x c l.number l.offset l.text.length ++ body ++ [s.lineEnd]

/-! ### The lines of a file -/

/-- Whether a content is text. -/
def isText (s : Search) (t : Raw) : Bool :=
  s.order.zeros || s.order.binary == .text || !t.contains (Char.ofNat 0)

/-- The lines of a content. -/
def linesOf (s : Search) (t : Raw) : List FileLine :=
  let t := if s.isText t then t else t.map fun c => if c.toNat = 0 then '\n' else c
  let pieces := Text.split (· = s.lineEnd) t
  let pieces := if pieces.getLast? = some [] then pieces.dropLast else pieces
  (pieces.foldl (fun (ls, n, offset) p =>
    (⟨n, offset, p, s.matcher.fits p != s.order.inverted⟩ :: ls, n + 1, offset + p.length + 1))
    (([], 1, 0) : List FileLine × Nat × Nat)).1.reverse

/-- What printing the lines of a file has come to. -/
structure Progress where
  /-- The lines that were not printed, the last first, as far as they may be printed with the next. -/
  before : List FileLine := []
  /-- How many lines are printed with the last one. -/
  after : Nat := 0
  /-- How many lines may still be selected. -/
  left : Option Nat
  selected : Nat := 0
  /-- Whether the line before was printed. -/
  adjacent : Bool := false
  /-- Whether the last line selected is the last there may be. -/
  ended : Bool := false
  /-- Where reading has come to. -/
  position : Nat := 0
deriving Inhabited

/-- Lines gone through one after the other: what is printed, and whether anything was printed before. -/
def goThrough (s : Search) (x : Subject) : List FileLine → Progress → Bool → Job (Progress × Bool)
  | [], p, used => pure (p, used)
  | l :: ls, p, used => do
    let full := p.left = some 0
    if l.selected && !full then
      let p := { p with
        selected := p.selected + 1, left := p.left.map (· - 1), position := l.offset + l.text.length + 1 }
      if s.stopsAtFirst then return (p, used)
      else if s.order.counting then goThrough s x ls { p with before := [] } used
      else
        let leading := p.before.take (s.order.linesBefore.getD 0)
        let gap := !p.adjacent || leading.length < p.before.length
        if (s.order.linesBefore.isSome || s.order.linesAfter.isSome) && used && gap then
          match s.order.separator with
          | some t => Job.print (s.colored "36" t ++ ['\n'])
          | none => pure ()
        leading.reverse.forM fun l => Job.print (s.lineText x '-' l)
        Job.print (s.lineText x ':' l)
        goThrough s x ls { p with before := [], after := s.order.linesAfter.getD 0, adjacent := true } true
    else if full && p.after = 0 then return (p, used)
    else if 0 < p.after then
      Job.print (s.lineText x '-' l)
      goThrough s x ls { p with after := p.after - 1 } used
    else goThrough s x ls { p with before := l :: p.before } used

/-! ### Files -/

/-- A complaint about a file, unless the search is silent. -/
def complain (s : Search) (t : Raw) : Job Unit := if s.order.silent then pure () else Job.complain t

/-- How wide the numbers of a file are. -/
def width (s : Search) (f : FileStatus) : Nat :=
  if !s.order.tabs then 0
  else if f.kind == .file then (Text.decimal (f.size + if s.order.numbered then 1 else 0)).length
  else 20

/-- The content of a file, or the fault of reading it. -/
def contentOf (descriptor : Nat) : Nat → List Raw → Job (Except Fault Raw)
  | 0, ps => pure (.ok ps.reverse.flatten)
  | n + 1, ps => do
    match ← Job.ask (.read descriptor Job.portion) with
    | .error e => return .error e
    | .ok [] => return .ok ps.reverse.flatten
    | .ok t => contentOf descriptor n (t :: ps)

/-- What is printed of a file after its lines. -/
def conclude (s : Search) (x : Subject) (selected : Nat) : Job Unit := do
  let o := s.order
  if s.counts then
    Job.print ((if x.named then s.nameText x.name ++ (if o.zeroAfterName then [Char.ofNat 0] else s.sign ':')
      else []) ++ Text.decimal selected ++ ['\n'])
  if !o.quiet && (o.naming == .matching && 0 < selected || o.naming == .others && selected = 0) then
    Job.print (s.nameText x.name ++ [if o.zeroAfterName then Char.ofNat 0 else '\n'])

/-- **An open file searched.** -/
def searchOpen (s : Search) (z : Standing) (name : Raw) (descriptor : Nat) (f : FileStatus) : Job Standing := do
  let own := !s.isQuiet && s.order.most != some 1 && f.kind == .file &&
    s.output.any fun out => out.kind == .file && out.identity == f.identity
  if own then
    s.complain (name ++ ": input file is also the output".toList)
    return { z with failed := true }
  else
    match ← contentOf descriptor Act.forever [] with
    | .error e =>
      s.complain (name ++ ": " ++ e.message)
      return { z with failed := true }
    | .ok t =>
      let text := s.isText t
      if !text && s.order.binary == .none then
        conclude s ⟨name, z.named, 0⟩ 0
        return z
      else
        let x : Subject := ⟨name, z.named, s.width f⟩
        let told := !text && !s.isQuiet
        let start := if descriptor = 0 then f.position else 0
        let reader := if told then { s with order := { s.order with quiet := true } } else s
        let (p, used) ← goThrough reader x (s.linesOf t) { left := s.order.most } z.used
        if descriptor = 0 && p.left = some 0 then
          let _ ← Job.ask (.seek 0 (start + p.position))
        conclude s x p.selected
        if told && 0 < p.selected then Job.complain (name ++ ": binary file matches".toList)
        if s.order.quiet && 0 < p.selected then
          Job.flush
          Job.stop 0
        return { z with used := used, found := z.found || 0 < p.selected }

/-- Whether a pattern fits a name or the end of a path behind a slash. -/
def fitsName (pattern name : Raw) : Bool :=
  (name :: ends name).any fun t => Pattern.isFit pattern t
where
  /-- The ends of a path behind slashes. -/
  ends : Raw → List Raw
    | [] => []
    | '/' :: t => if t.isEmpty ∨ t.head? = some '/' then ends t else t :: ends t
    | _ :: t => ends t

/-- Whether a name is passed over by some patterns: the last that fits says so, or else the first says the
opposite. -/
def isPassedBy (ps : List NamePattern) (name : Raw) : Bool :=
  match ps.reverse.find? fun p => fitsName p.pattern name with
  | some p => !p.included
  | none => (ps.head?.map NamePattern.included).getD false

/-- The name of something in a directory. -/
def inside (path name : Raw) : Raw := if path.getLast? = some '/' then path ++ name else path ++ '/' :: name

/-- Something that is still to be searched. -/
structure Goal where
  path : Raw
  /-- What it is called. -/
  name : Raw
  /-- Whether it was named by a word of the program. -/
  given : Bool := true
  /-- Whether it is passed over if it is a directory without a name of its own. -/
  bare : Bool := false
deriving Inhabited

/-- A goal searched: what is inside of it if it is a directory. -/
def visit (s : Search) (z : Standing) (g : Goal) : Job (Standing × List Goal) := do
  match ← Job.ask (.status g.path) with
  | .error e =>
    s.complain (g.name ++ ": " ++ e.message)
    return ({ z with failed := true }, [])
  | .ok f =>
    let isDirectory := f.kind == .directory
    let patterns := if isDirectory then s.order.directoryNames else s.order.names
    if isDirectory && s.order.directories == .skip then return (z, [])
    else if !(isDirectory && g.bare) && isPassedBy patterns g.name then return (z, [])
    else if isDirectory && s.order.directories == .recurse then
      match ← Job.ask (.list g.path) with
      | .error e =>
        s.complain (g.name ++ ": " ++ e.message)
        return ({ z with failed := true }, [])
      | .ok names =>
        let goal := fun n : Raw => { path := inside g.path n, name := if g.bare then n else inside g.name n,
                                     given := false : Goal }
        return ({ z with named := s.order.named.getD true }, names.map goal)
    else if !g.given && f.kind == .device then return (z, [])
    else
      match ← Job.ask (.openFile g.path { reading := true }) with
      | .error e =>
        s.complain (g.name ++ ": " ++ e.message)
        return ({ z with failed := true }, [])
      | .ok n =>
        let z ← s.searchOpen z g.name n f
        let _ ← Job.ask (.close n)
        return (z, [])

/-- Goals searched, at most so many. -/
def work (s : Search) : Nat → Standing → List Goal → Job Standing
  | 0, z, _ => pure z
  | _, z, [] => pure z
  | n + 1, z, g :: gs => do
    if g.path = ['-'] ∧ g.given then
      match ← Job.ask (.statusOf 0) with
      | .error e =>
        s.complain (s.order.label ++ ": " ++ e.message)
        work s n { z with failed := true } gs
      | .ok f => work s n (← s.searchOpen z s.order.label 0 f) gs
    else
      let (z, more) ← s.visit z g
      work s n z (more ++ gs)

end Search

/-- **The program.** -/
def image : Image := Job.task trouble fun words => do
  let (o, files) ← read words
  if o.most = some 0 then Job.stop 1
  let m ← Matcher.ofOrder o
  let output ← Job.ask (.statusOf 1)
  let s : Search := ⟨o, m, output.toOption⟩
  let recursing := o.directories == .recurse
  let goals : List Search.Goal := if files.isEmpty then
      [{ path := if recursing then ['.'] else ['-'], name := ['.'], bare := true }]
    else files.map fun f => { path := f, name := f }
  let z ← s.work Act.forever { named := o.named.getD (1 < files.length) } goals
  Job.flush
  Job.stop (if z.failed then trouble else if z.found then 0 else 1)

end BuildMender.Host.Search
