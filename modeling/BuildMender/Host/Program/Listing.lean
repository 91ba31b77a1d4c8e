import BuildMender.Host.Program.Listing.Layout
import BuildMender.Host.Program.Listing.Order
import BuildMender.Host.Version

/-!
# The program that lists directories

The program shows the files it is called with, and then the content of each directory among them, below its
name if there is more than one thing to show. It can go on with the directories inside, each of which comes
right behind the one that it is in.
-/

namespace BuildMender.Host.Listing

/-- Something to be shown. -/
structure Item where
  name : Raw
  path : Raw
  status : FileStatus
  /-- How many names lead to it. -/
  links : Nat := 1
deriving Inhabited

namespace Item

/-- Whether it is a directory. -/
def isDirectory (i : Item) : Bool := i.status.kind == .directory

/-- The size of the pieces that space on disk comes in. -/
def block : Nat := 4096

/-- How much space it takes on disk. -/
def space (i : Item) : Nat :=
  match i.status.kind with
  | .directory => block
  | .file => (i.status.size + block - 1) / block * block
  | _ => 0

/-- Its length. -/
def length (i : Item) : Nat := if i.isDirectory then block else i.status.size

/-- Its name from the last dot on. -/
def ending (i : Item) : Raw :=
  if i.name.contains '.' then '.' :: (i.name.reverse.takeWhile (· ≠ '.')).reverse else []

/-- What may be done with it by whom, behind the letter of its kind. -/
def mode (i : Item) : Text :=
  match i.status.kind with
  | .directory => "drwxr-xr-x".toList
  | .file => if i.status.executable then "-rwxr-xr-x".toList else "-rw-r--r--".toList
  | .device => "crw-rw-rw-".toList
  | .pipe => "prw-------".toList

/-- The sign behind its name. -/
def sign (i : Item) (s : Signs) : Text :=
  match i.status.kind with
  | .directory => if s = .none then [] else ['/']
  | .file => if s = .all && i.status.executable then ['*'] else []
  | .device => []
  | .pipe => if s = .all || s = .kinds then ['|'] else []

end Item

namespace Order

/-! ### Names -/

/-- The characters that count as special in names, since they are signs behind names. -/
def special (o : Order) : Raw :=
  (if o.style = .escapes then [' '] else []) ++
    (if o.signs = .kinds then ['*'] else []) ++
    (if o.signs = .kinds || o.signs = .all then ['=', '>', '@', '|'] else [])

/-- A name as it is shown, if it is not among others. -/
def nameText (o : Order) (name : Raw) : Raw := o.style.quote o.special name

/-- Whether names without quotes are moved by one column where others have quotes. -/
def isAligned (o : Order) : Bool :=
  (o.format = .long || ((o.format = .columns || o.format = .across) && o.width ≠ 0)) &&
    (o.style = .plain || o.style = .shell || o.style = .doubleIfNeeded)

/-- Whether a name is shown with quotes, where this matters. -/
def isQuoted (o : Order) (name : Raw) : Bool := o.isAligned && o.nameText name ≠ name

/-- A name as it is shown among others, of which some may have quotes. -/
def nameAmong (o : Order) (quoted : Bool) (name : Raw) : Raw :=
  let t := o.nameText name
  let masking := o.masked && (o.style = .literal || o.style = .plain || o.style = .plainAlways)
  (if quoted && !o.isQuoted name then [' '] else []) ++
    if masking then t.map fun c => if Quotation.isPrinted c then c else '?' else t

/-- How many columns a text takes. -/
def widthOf (t : Raw) : Nat := t.countP Quotation.isPrinted

/-! ### Sorting -/

/-- Whether one item comes before another by its name. -/
def compareNames (a b : Item) : Ordering :=
  if Raw.before a.name b.name then .lt else if Raw.before b.name a.name then .gt else .eq

/-- Raw texts in the order of their bytes. -/
def compareRaw (a b : Raw) : Ordering :=
  if Raw.before a b then .lt else if Raw.before b a then .gt else .eq

/-- The order of items among others, of which some may have quotes. -/
def compareItems (o : Order) (quoted : Bool) (a b : Item) : Ordering :=
  match o.order with
  | .unordered => .eq
  | .name => compareNames a b
  | .extension => (compareRaw a.ending b.ending).then (compareNames a b)
  | .width =>
    (compare (widthOf (o.nameAmong quoted a.name)) (widthOf (o.nameAmong quoted b.name))).then (compareNames a b)
  | .size => (compare b.length a.length).then (compareNames a b)
  | .version => Version.order a.name b.name
  | .time => (compare b.status.changed a.status.changed).then (compareNames a b)

/-- **Items in order.** -/
def sort (o : Order) (quoted : Bool) (is : List Item) : List Item :=
  if o.order = .unordered then is
  else
    is.mergeSort fun a b =>
      if o.directoriesFirst && a.isDirectory != b.isDirectory then a.isDirectory
      else if o.reversed then o.compareItems quoted b a != .gt
      else o.compareItems quoted a b != .gt

/-! ### Printing -/

/-- The lines that entries are put on. -/
def page (o : Order) : Page where
  width := if o.width = 0 then none else some o.width
  tab := if o.tab = 0 then none else some o.tab
  lineEnd := o.lineEnd

/-- A text of at least some width. -/
def padded (width : Nat) (t : Raw) : Raw := List.replicate (width - t.length) ' ' ++ t

/-- The greatest length of some texts. -/
def greatest (ts : List Raw) : Nat := ts.foldl (fun n t => max n t.length) 0

/-- An item as an entry, with numbers of blocks of some width. -/
def entry (o : Order) (quoted : Bool) (width : Nat) (i : Item) : Entry :=
  let blocks :=
    if o.blocks then padded (if o.format = .commas then 0 else width) (o.blockScale.write i.space) ++ [' '] else []
  let name := o.nameAmong quoted i.name ++ i.sign o.signs
  let text := blocks ++ (if o.context then ['?', ' '] else []) ++ name
  ⟨text, widthOf text⟩

/-- The time of an item. The clock of the machine begins with the year 1970, and nothing goes on for longer
than a day. -/
def timeText (o : Order) : Raw :=
  let style := if Text.startsWith "posix-" o.timeStyle then o.timeStyle.drop 6 else o.timeStyle
  match style, timeStyleChoice.find style with
  | '+' :: t, _ => t
  | _, .ok w =>
    if w = "full-iso" then "1970-01-01 00:00:00.000000000 +0000".toList
    else if w = "long-iso" then "1970-01-01 00:00".toList
    else if w = "iso" then "1970-01-01 ".toList
    else "Jan  1  1970".toList
  | _, .error _ => []

/-- The owner and the group of every file. -/
def ownerText (o : Order) : Raw := if o.numeric then ['0', ' '] else "root ".toList

/-- Items with everything about them, in columns that are wide enough for all of some items. -/
def longLines (o : Order) (quoted : Bool) (all is : List Item) : Raw :=
  let blocks := all.map fun i => o.blockScale.write i.space
  let links := all.map fun i => Text.decimal i.links
  let sizes := all.map fun i => o.sizeScale.write i.length
  is.flatMap fun i =>
    (if o.blocks then padded (greatest blocks) (o.blockScale.write i.space) ++ [' '] else []) ++
      i.mode ++ ' ' :: padded (greatest links) (Text.decimal i.links) ++ ' ' ::
      ((if o.owner then o.ownerText else []) ++ (if o.group then o.ownerText else []) ++
        (if o.author then o.ownerText else []) ++ (if o.context then ['?', ' '] else [])) ++
      padded (greatest sizes) (o.sizeScale.write i.length) ++ ' ' :: o.timeText ++ ' ' ::
      o.nameAmong quoted i.name ++ i.sign o.signs ++ [o.lineEnd]

/-- **Items as they are printed.** Numbers are as wide as they have to be for `all` that was found. -/
def print (o : Order) (quoted : Bool) (all is : List Item) : Raw :=
  if is.isEmpty then []
  else
    let es := is.map (o.entry quoted (greatest (all.map fun i => o.blockScale.write i.space)))
    match o.format with
    | .long => o.longLines quoted all is
    | .commas => o.page.joined ',' es
    | .across => o.page.inColumns false es
    | .columns => o.page.inColumns true es
    | .single => o.page.single es

/-- The line in front of the content of a directory that says how much space it takes. -/
def total (o : Order) (is : List Item) : Raw :=
  if o.blocks || o.format = .long then
    "total ".toList ++ o.blockScale.write ((is.map Item.space).foldl (· + ·) 0) ++ [o.lineEnd]
  else []

/-! ### Names in directories -/

/-- Whether a pattern fits a name; only a dot fits a dot in front. -/
def fitsName (name pattern : Raw) : Bool :=
  Pattern.isFit pattern name &&
    (name.head? ≠ some '.' || (Pattern.elements pattern).head? = some (.char '.'))

/-- Whether a name is shown. -/
def shows (o : Order) (name : Raw) : Bool :=
  let dotted := name.head? = some '.' && match o.passing with
    | .all => true
    | .implied => name = ['.'] || name = ['.', '.']
    | .none => false
  !dotted && !(o.passing = .all && o.hidden.any (fitsName name)) && !o.ignored.any (fitsName name)

end Order

/-! ### Looking -/

/-- The path of a name in a directory. -/
def inside (path name : Raw) : Raw := if path = ['/'] then path ++ name else path ++ '/' :: name

/-- How many names lead to something: those of a directory are its own, the one inside of it, and those in the
directories inside of it. -/
def linksOf (path : Raw) (f : FileStatus) : Job Nat := do
  if f.kind = .directory then
    match ← Job.ask (.list path) with
    | .error _ => return 2
    | .ok names =>
      let statuses ← names.mapM fun n => Job.ask (.status (inside path n))
      return 2 + statuses.countP fun
        | .ok s => s.kind == .directory
        | .error _ => false
  else return 1

/-- What is at a path; whether it was named by a word of the program. -/
def look (o : Order) (given : Bool) (path name : Raw) : Job (Option Item) := do
  match ← Job.ask (.status path) with
  | .ok f =>
    let links ← if o.format = .long then linksOf path f else pure 1
    return some ⟨name, path, f, links⟩
  | .error e =>
    Job.complain ("cannot access ".toList ++ Quotation.shellAlways path ++ ": ".toList ++ e.message)
    Job.note (if given then trouble else 1)
    return none

/-- A path without slashes at its end. -/
def bare (path : Raw) : Raw :=
  let t := Text.dropEnd (· = '/') path
  if t.isEmpty then path.take 1 else t

/-- The content of a directory printed, with its name above it or not: the directories in it. -/
def showDirectory (o : Order) (given titled first : Bool) (path : Raw) : Job (List Raw) := do
  match ← Job.ask (.list path) with
  | .error e =>
    Job.complain ("cannot open directory ".toList ++ Quotation.shellAlways path ++ ": ".toList ++ e.message)
    Job.note (if given then trouble else 1)
    return []
  | .ok names =>
    if titled then Job.print ((if first then [] else ['\n']) ++ o.style.quote [':'] path ++ [':', '\n'])
    let names := (['.'] :: ['.', '.'] :: names).filter o.shows
    let found ← names.mapM fun n => look o false (inside (bare path) n) n
    let is := found.filterMap id
    let quoted := names.any o.isQuoted
    let is := o.sort quoted is
    Job.print (o.total is ++ o.print quoted is is)
    return (is.filter fun i => i.isDirectory && i.name ≠ ['.'] && i.name ≠ ['.', '.']).map Item.path

/-- Directories shown one after the other, at most so many. -/
def showDirectories (o : Order) : Nat → Bool → Bool → List (Raw × Bool) → Job Unit
  | 0, _, _, _ => pure ()
  | _, _, _, [] => pure ()
  | n + 1, titled, first, (path, given) :: more => do
    let found ← showDirectory o given titled first path
    let next := if o.recursive then found.map fun p => (p, false) else []
    showDirectories o n true false (next ++ more)

/-- **The program.** -/
def image : Image := Job.task trouble fun words => do
  let (o, operands) ← read words
  let given := if operands.isEmpty then [['.']] else operands
  let found ← given.mapM fun p => look o true p p
  let quoted := given.any o.isQuoted
  let is := o.sort quoted (found.filterMap id)
  let files := is.filter fun i => o.asEntries || !i.isDirectory
  let directories := (is.filter fun i => !o.asEntries && i.isDirectory).map Item.path
  Job.print (o.print quoted is files)
  if !files.isEmpty && !directories.isEmpty then Job.print ['\n']
  let alone := files.isEmpty && given.length = 1 && directories.length = 1
  showDirectories o Act.forever (!alone || o.recursive) true (directories.map fun p => (p, true))

end BuildMender.Host.Listing
