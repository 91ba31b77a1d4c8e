import BuildMender.Host.Job
import BuildMender.Host.Quotation

/-!
# Cat

`cat` prints files one after the other. It can number the lines, leave out blank lines after blank
lines, mark the ends of lines, and show what cannot be seen. A line that goes on from one file to the
next is one line.
-/

namespace BuildMender.Host.Cat

/-- The options. -/
def table : OptionTable := .make "benstuvAET"
  [("number-nonblank", .nothing, "b"), ("number", .nothing, "n"), ("squeeze-blank", .nothing, "s"),
    ("show-nonprinting", .nothing, "v"), ("show-ends", .nothing, "E"), ("show-tabs", .nothing, "T"),
    ("show-all", .nothing, "A"), ("help", .nothing, "help"), ("version", .nothing, "version")]

/-- How lines are shown. -/
structure Manner where
  number : Bool := false
  /-- Whether blank lines have no number. -/
  filledOnly : Bool := false
  squeeze : Bool := false
  /-- Whether characters that cannot be seen are shown. -/
  unseen : Bool := false
  ends : Bool := false
  tabs : Bool := false
deriving DecidableEq, Inhabited

/-- One option. -/
def Manner.set (m : Manner) (key : Text) : Manner :=
  match key with
  | ['b'] => { m with number := true, filledOnly := true }
  | ['n'] => { m with number := true }
  | ['s'] => { m with squeeze := true }
  | ['v'] => { m with unseen := true }
  | ['e'] => { m with unseen := true, ends := true }
  | ['E'] => { m with ends := true }
  | ['t'] => { m with unseen := true, tabs := true }
  | ['T'] => { m with tabs := true }
  | ['A'] => { m with unseen := true, ends := true, tabs := true }
  | _ => m

/-- Whether the bytes are passed on as they are. -/
def Manner.isPlain (m : Manner) : Bool :=
  !(m.number || m.squeeze || m.unseen || m.ends || m.tabs)

/-- Where the printing stands. -/
structure Standing where
  /-- The number of the last line that has one. -/
  line : Nat := 0
  /-- How many line feeds came last, less the one that ends a filled line. Nothing is known of it inside
  a line. -/
  feeds : Option Nat := some 0
  /-- Whether a carriage return came last that may belong to the end of the line. -/
  returned : Bool := false
deriving DecidableEq, Inhabited

/-- A number in front of a line. -/
def numeral (n : Nat) : Raw :=
  let t := Text.decimal n
  List.replicate (6 - t.length) ' ' ++ t ++ ['\t']

/-- A character shown so that it can be seen. -/
def visible (tabs : Bool) (c : Char) : Raw :=
  let low := fun n => if n = 127 then ['^', '?'] else if n < 32 then ['^', Char.ofNat (n + 64)]
    else [Char.ofNat n]
  if c = '\t' && !tabs then [c]
  else if c.toNat < 128 then low c.toNat
  else 'M' :: '-' :: low (c.toNat - 128)

/-- A line feed shown. -/
def showFeed (m : Manner) (s : Standing) : Raw × Standing :=
  let feeds := match s.feeds with
    | none => 0
    | some n => min (n + 1) 2
  if feeds = 2 && m.squeeze then ([], { s with feeds := some 2 })
  else
    let numbered := 0 < feeds && m.number && !m.filledOnly
    let line := if numbered then s.line + 1 else s.line
    ((if numbered then numeral line else []) ++
      (if m.ends then (if s.returned then ['^', 'M', '$'] else ['$']) else []) ++ ['\n'],
      ⟨line, some feeds, false⟩)

/-- Any other character shown. -/
def showChar (m : Manner) (s : Standing) (c : Char) : Raw × Standing :=
  let numbered := s.feeds.isSome && m.number
  let line := if numbered then s.line + 1 else s.line
  let before := (if s.returned then ['\r'] else []) ++ if numbered then numeral line else []
  if m.unseen then (before ++ visible m.tabs c, ⟨line, none, false⟩)
  else if c = '\t' && m.tabs then (before ++ ['^', 'I'], ⟨line, none, false⟩)
  else if c = '\r' && m.ends then (before, ⟨line, none, true⟩)
  else (before ++ [c], ⟨line, none, false⟩)

/-- **Some text shown.** -/
def showAll (m : Manner) (s : Standing) (t : Raw) : Raw × Standing :=
  let r := t.foldl (fun (r : List Raw × Standing) c =>
    let (shown, s) := if c = '\n' then showFeed m r.2 else showChar m r.2 c
    (shown :: r.1, s)) ([], s)
  (r.1.reverse.flatten, r.2)

/-- Whether a file is where the output goes, and would so be lengthened without end. -/
def isOutput (f out : FileStatus) : Bool :=
  f.kind == .file && out.kind == .file && f.identity == out.identity && f.position < out.position

/-- A file printed from a descriptor. -/
def printFile (m : Manner) (s : Standing) (name : Raw) (descriptor : Nat) : Job Standing := do
  let same := match ← Job.ask (.statusOf descriptor), ← Job.ask (.statusOf 1) with
    | .ok f, .ok out => isOutput f out
    | _, _ => false
  if same then
    Job.complain (Quotation.beforeColon name ++ ": input file is output file")
    Job.note 1
    return s
  go m s name descriptor Act.forever
where
  /-- At most so many pieces. -/
  go (m : Manner) (s : Standing) (name : Raw) (descriptor : Nat) : Nat → Job Standing
    | 0 => pure s
    | n + 1 => do
      match ← Job.ask (.read descriptor Job.portion) with
      | .error e =>
        Job.complain (Quotation.beforeColon name ++ ": " ++ e.message)
        Job.note 1
        return s
      | .ok [] => return s
      | .ok r =>
        let (shown, s) := if m.isPlain then (r, s) else showAll m s r
        Job.print shown
        Job.flush
        go m s name descriptor n

/-- **The program.** -/
def image : Image := Job.task 1 fun words => do
  let (gs, operands) := table.read words
  Job.options gs fun key _ => if key.length = 1 then pure () else Job.stop 0
  let m := gs.foldl (fun (m : Manner) g => match g with
    | .option key _ => m.set key
    | .wrong _ => m) {}
  match ← Job.ask (.statusOf 1) with
  | .error e =>
    Job.complain ("standard output: " ++ e.message)
    Job.stop 1
  | .ok _ => pure ()
  let operands := if operands.isEmpty then [['-']] else operands
  let s ← operands.foldlM (fun s name => do
    if name = ['-'] then printFile m s name 0
    else
      match ← Job.ask (.openFile name { reading := true }) with
      | .error e =>
        Job.complain (Quotation.beforeColon name ++ ": " ++ e.message)
        Job.note 1
        return s
      | .ok descriptor =>
        let s ← printFile m s name descriptor
        let _ ← Job.ask (.close descriptor)
        return s) ({} : Standing)
  if s.returned then Job.print ['\r']

end BuildMender.Host.Cat
