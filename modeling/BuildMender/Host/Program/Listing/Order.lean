import BuildMender.Host.Choice
import BuildMender.Host.Pattern
import BuildMender.Host.Program.Listing.Scale

/-!
# What a listing is to show

The options of a listing say which names are shown, in which order, in which form, and what is shown of each
file besides its name. They are read one after the other, and a later one can take back an earlier one.
-/

namespace BuildMender.Host.Listing

/-- Which names are passed over because of their dots. -/
inductive Dotted where
  | all
  /-- The directory itself and the one above. -/
  | implied
  | none
deriving DecidableEq, Inhabited

/-- How entries are put on lines. -/
inductive Format where
  | long
  | commas
  | across
  | columns
  | single
deriving DecidableEq, Inhabited

/-- What entries are ordered by. -/
inductive Key where
  | unordered
  | name
  | extension
  | width
  | size
  | version
  | time
deriving DecidableEq, Inhabited

/-- Which signs stand behind names. -/
inductive Signs where
  | none
  | directories
  | kinds
  | all
deriving DecidableEq, Inhabited

/-- What a listing is to show. -/
structure Order where
  passing : Dotted := .all
  /-- Patterns of names that are passed over unless names with dots are shown. -/
  hidden : List Raw := []
  /-- Patterns of names that are passed over. -/
  ignored : List Raw := []
  format : Format := .single
  key : Option Key := none
  /-- Whether a time to be shown was chosen. -/
  timed : Bool := false
  reversed : Bool := false
  directoriesFirst : Bool := false
  /-- Whether directories are shown as entries. -/
  asEntries : Bool := false
  recursive : Bool := false
  blocks : Bool := false
  context : Bool := false
  owner : Bool := true
  group : Bool := true
  author : Bool := false
  numeric : Bool := false
  signs : Signs := .none
  /-- Whether question marks stand for what cannot be seen. -/
  masked : Bool := false
  style : Quotation.Style := .literal
  /-- How sizes on disk are written. -/
  blockScale : Scale := .units 1024 []
  /-- How lengths of files are written. -/
  sizeScale : Scale := .units 1 []
  width : Nat := 80
  tab : Nat := 8
  /-- Whether lines end in zeros. -/
  zeros : Bool := false
  /-- Whether places of names are to be listed too. -/
  located : Bool := false
  timeStyle : Raw := "locale".toList
deriving Inhabited

namespace Order

/-- What entries are ordered by; a time that is chosen and not shown orders them. -/
def order (o : Order) : Key := o.key.getD (if o.timed && o.format != .long then .time else .name)

/-- The sign at the end of a line. -/
def lineEnd (o : Order) : Char := if o.zeros then Char.ofNat 0 else '\n'

end Order

/-! ### Options -/

/-- The options with long names that come first. -/
def earlyOptions : List (String × Takes × String) :=
  [("all", .nothing, "a"), ("escape", .nothing, "b"), ("directory", .nothing, "d"), ("dired", .nothing, "D"),
    ("full-time", .nothing, "full-time"), ("group-directories-first", .nothing, "group-directories-first"),
    ("human-readable", .nothing, "h"), ("inode", .nothing, "i"), ("kibibytes", .nothing, "k"),
    ("numeric-uid-gid", .nothing, "n"), ("no-group", .nothing, "G"), ("hide-control-chars", .nothing, "q"),
    ("reverse", .nothing, "r"), ("size", .nothing, "s"), ("width", .value, "w"), ("almost-all", .nothing, "A"),
    ("ignore-backups", .nothing, "B"), ("classify", .inside, "F"), ("file-type", .nothing, "file-type"),
    ("si", .nothing, "si"), ("dereference-command-line", .nothing, "H"),
    ("dereference-command-line-symlink-to-dir", .nothing, "dereference-command-line-symlink-to-dir"),
    ("hide", .value, "hide"), ("ignore", .value, "I")]

/-- The other options with long names. -/
def lateOptions : List (String × Takes × String) :=
  [("indicator-style", .value, "indicator-style"), ("dereference", .nothing, "L"), ("literal", .nothing, "N"),
    ("quote-name", .nothing, "Q"), ("quoting-style", .value, "quoting-style"), ("recursive", .nothing, "R"),
    ("format", .value, "format"), ("show-control-chars", .nothing, "show-control-chars"),
    ("sort", .value, "sort"), ("tabsize", .value, "T"), ("time", .value, "time"),
    ("time-style", .value, "time-style"), ("zero", .nothing, "zero"), ("color", .inside, "color"),
    ("hyperlink", .inside, "hyperlink"), ("block-size", .value, "block-size"), ("context", .nothing, "Z"),
    ("author", .nothing, "author"), ("help", .nothing, "help"), ("version", .nothing, "version")]

/-- The options of a listing. -/
def table : OptionTable := .make "abcdfghiklmnopqrstuvw:xABCDFGHI:LNQRST:UXZ1" (earlyOptions ++ lateOptions)

/-! ### Choices -/

/-- When something is to be done. -/
def whenChoice : Choice Bool :=
  Choice.ofWords "always yes force" true ++ Choice.ofWords "never no none" false

/-- The words of `whenChoice`, and those that leave it to what the output leads to. -/
def outputChoice : Choice (Option Bool) :=
  whenChoice.map (fun e => (e.1, some e.2)) ++ Choice.ofWords "auto tty if-tty" none

/-- What entries are ordered by. -/
def keyChoice : Choice Key :=
  [("none", .unordered), ("time", .time), ("size", .size), ("extension", .extension), ("version", .version),
    ("width", .width)]

/-- How entries are put on lines. -/
def formatChoice : Choice Format :=
  Choice.ofWords "verbose long" .long ++ Choice.ofWords "commas" .commas ++
    Choice.ofWords "horizontal across" .across ++ Choice.ofWords "vertical" .columns ++
    Choice.ofWords "single-column" .single

/-- The times of a file. -/
def timeChoice : Choice Nat :=
  Choice.ofWords "atime access use" 0 ++ Choice.ofWords "ctime status" 1 ++
    Choice.ofWords "mtime modification" 2 ++ Choice.ofWords "birth creation" 3

/-- The signs behind names. -/
def signsChoice : Choice Signs :=
  [("none", .none), ("slash", .directories), ("file-type", .kinds), ("classify", .all)]

/-- The styles of names. -/
def styleChoice : Choice (Text × Quotation.Style) :=
  ([("literal", .literal), ("shell", .plain), ("shell-always", .plainAlways), ("shell-escape", .shell),
    ("shell-escape-always", .shellAlways), ("c", .double), ("c-maybe", .doubleIfNeeded),
    ("escape", .escapes), ("locale", .single), ("clocale", .double)] : List (Text × Quotation.Style)).map
      fun e => (e.1, e)

/-- The styles of times that have names. -/
def timeStyleChoice : Choice Text :=
  ["full-iso", "long-iso", "iso", "locale"].map fun w : String => (w.toList, w.toList)

/-! ### Values -/

/-- The status of trouble. -/
def trouble : Nat := 2

/-- The end of a listing that was called in a wrong way. -/
def refuse {α : Type} (status : Nat) : Job α := do
  let d ← Job.bench
  Job.act (Act.complain (Job.advice d.name))
  Job.stop status

/-- The meaning of a word behind an option. -/
def choose {α : Type} [DecidableEq α] (c : Choice α) (option : String) (w : Raw) : Job α :=
  c.read option.toList w (refuse 1)

/-- The end of a listing after a complaint. -/
def failed {α : Type} (message : Raw) : Job α := do
  Job.complain message
  Job.stop trouble

/-- A number of columns, which may be spelled in another base. -/
def columns? (t : Raw) : Option Nat :=
  match Numeral.integer? true t with
  | some (n, []) => if t.contains '-' then none else some n.toNat
  | _ => none

/-- The bound of numbers of columns. -/
def columnBound : Nat := 18446744073709551616

/-- A width of lines. A number that is too great stands for no limit, as zero does. -/
def readWidth (t : Raw) : Job Nat := do
  match columns? t with
  | some n => return if n < columnBound then n else 0
  | none => failed ("invalid line width: ".toList ++ Quotation.single t)

/-- A distance of tab stops. -/
def readTab (t : Raw) : Job Nat := do
  match columns? t with
  | some n =>
    if n < columnBound / 2 then return n
    else failed ("invalid tab size: ".toList ++ Quotation.single t ++
      ": Value too large for defined data type".toList)
  | none => failed ("invalid tab size: ".toList ++ Quotation.single t)

/-- A scale. -/
def readScale (t : Raw) : Job Scale := do
  match Scale.read t with
  | .ok s => return s
  | .error .invalid => failed ("invalid --block-size argument ".toList ++ Quotation.single t)
  | .error .badUnit => failed ("invalid suffix in --block-size argument ".toList ++ Quotation.single t)
  | .error .tooLarge => failed ("--block-size argument ".toList ++ Quotation.single t ++ " too large".toList)

/-! ### Reading -/

/-- An option that is a letter, other than those about forms. -/
def Order.setLetter (o : Order) : Char → Order
  | 'a' => { o with passing := .none }
  | 'A' => { o with passing := .implied }
  | 'B' => { o with ignored := o.ignored ++ [['*', '~'], ['.', '*', '~']] }
  | 'b' => { o with style := .escapes }
  | 'c' | 'u' => { o with timed := true }
  | 'd' => { o with asEntries := true }
  | 'D' => { o with located := true }
  | 'f' =>
    { o with passing := .none, key := some .unordered, blocks := false
             format := if o.format = .long then .single else o.format }
  | 'F' => { o with signs := .all }
  | 'G' => { o with group := false }
  | 'h' => { o with blockScale := .fitting 1024, sizeScale := .fitting 1024 }
  | 'N' => { o with style := .literal }
  | 'p' => { o with signs := .directories }
  | 'q' => { o with masked := true }
  | 'Q' => { o with style := .double }
  | 'r' => { o with reversed := true }
  | 'R' => { o with recursive := true }
  | 's' => { o with blocks := true }
  | 'S' => { o with key := some .size }
  | 't' => { o with key := some .time }
  | 'U' => { o with key := some .unordered }
  | 'v' => { o with key := some .version }
  | 'X' => { o with key := some .extension }
  | 'Z' => { o with context := true }
  | _ => o

/-- An option that is a letter. -/
def Order.set (o : Order) : Char → Order
  | 'C' => { o with format := .columns }
  | 'x' => { o with format := .across }
  | 'm' => { o with format := .commas }
  | '1' => { o with format := if o.format = .long then .long else .single }
  | 'l' => { o with format := .long }
  | 'g' => { o with format := .long, owner := false }
  | 'n' => { o with format := .long, numeric := true }
  | 'o' => { o with format := .long, group := false }
  | c => o.setLetter c

/-- An option with a long name only. -/
def setLong (o : Order) (key : Text) (v : Raw) : Job Order := do
  if key = "author" then return { o with author := true }
  else if key = "hide" then return { o with hidden := o.hidden ++ [v] }
  else if key = "sort" then return { o with key := some (← choose keyChoice "--sort" v) }
  else if key = "group-directories-first" then return { o with directoriesFirst := true }
  else if key = "time" then
    let _ ← choose timeChoice "--time" v
    return { o with timed := true }
  else if key = "format" then return { o with format := ← choose formatChoice "--format" v }
  else if key = "full-time" then return { o with format := .long, timeStyle := "full-iso".toList }
  else if key = "file-type" then return { o with signs := .kinds }
  else if key = "indicator-style" then return { o with signs := ← choose signsChoice "--indicator-style" v }
  else if key = "quoting-style" then return { o with style := (← choose styleChoice "--quoting-style" v).2 }
  else if key = "time-style" then return { o with timeStyle := v }
  else if key = "show-control-chars" then return { o with masked := false }
  else if key = "block-size" then
    let s ← readScale v
    return { o with blockScale := s, sizeScale := s }
  else if key = "si" then return { o with blockScale := .fitting 1000, sizeScale := .fitting 1000 }
  else if key = "zero" then
    return { o with zeros := true, masked := false, style := .literal
                    format := if o.format = .long then .long else .single }
  else if key = "help" ∨ key = "version" then Job.stop 0
  else return o

/-- An option. -/
def set (o : Order) (key : Text) (v : Option Raw) : Job Order := do
  match key, v with
  | ['F'], some w =>
    match ← choose outputChoice "--classify" w with
    | some true => return { o with signs := .all }
    | _ => return o
  | ['I'], some p => return { o with ignored := o.ignored ++ [p] }
  | ['w'], some w => return { o with width := ← readWidth w }
  | ['T'], some w => return { o with tab := ← readTab w }
  | [c], _ => return o.set c
  | key, some w =>
    if key = "color" ∨ key = "hyperlink" then
      let _ ← choose outputChoice (if key = "color" then "--color" else "--hyperlink") w
      return o
    else setLong o key w
  | key, none => setLong o key []

/-- What can be wrong with the options together. -/
def check (o : Order) : Job Unit := do
  if o.zeros ∧ o.located ∧ o.format = .long then failed "--dired and --zero are incompatible".toList
  let style := if Text.startsWith "posix-" o.timeStyle then o.timeStyle.drop 6 else o.timeStyle
  if o.format = .long ∧ style.head? ≠ some '+' then
    match timeStyleChoice.find style with
    | .ok _ => pure ()
    | .error problem =>
      Job.complain (problem ++ " argument ".toList ++ Quotation.single style ++ " for 'time style'".toList)
      Job.act (Act.complain timeStyleLines)
      refuse trouble
where
  /-- The lines that list the styles of times. -/
  timeStyleLines : Raw :=
    ("Valid arguments are:\n" : String).toList ++
      (["full-iso", "long-iso", "iso", "locale"].flatMap fun w : String => ("  - [posix-]" ++ w ++ "\n").toList) ++
      ("  - +FORMAT (e.g., +%H:%M) for a 'date'-style format\n" : String).toList

/-- **What the words of a listing say**, and the files to be listed. -/
def read (words : List Raw) : Job (Order × List Raw) := do
  let (gs, operands) := table.read words
  let o ← gs.foldlM (fun o g => do
    match g with
    | .option key v => set o key v
    | .wrong message => do
      Job.complain message
      Job.refuse) ({} : Order)
  check o
  return (o, operands)

end BuildMender.Host.Listing
