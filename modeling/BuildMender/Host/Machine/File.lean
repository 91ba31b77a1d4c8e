import BuildMender.Host.Machine

/-!
# Files of a machine

What a path leads to, and what is read from and written to open files. Most paths lead to places on the
disk; a few lead to devices, or to whatever a descriptor of the process leads to.
-/

namespace BuildMender.Host.Machine

/-! ### Paths -/

/-- The devices. -/
def devices : List (Place × Channel) :=
  [(["dev", "null"], .null), (["dev", "zero"], .zero), (["dev", "full"], .full)]

/-- The descriptor that a place stands for. -/
def descriptorAt? : Place → Option Nat
  | [a, b] =>
    if a = "dev".toList then
      [("stdin".toList, 0), ("stdout".toList, 1), ("stderr".toList, 2)].lookup b
    else none
  | [a, b, n] => if a = "dev".toList ∧ b = "fd".toList then Text.unsigned? 1000 n else none
  | [a, b, c, n] =>
    if a = "proc".toList ∧ b = "self".toList ∧ c = "fd".toList then Text.unsigned? 1000 n else none
  | _ => none

/-- What a path leads to. -/
inductive Found where
  | place (at_ : Place) (node : Option BuildMender.Node)
  | device (at_ : Place) (channel : Channel)
  | descriptor (n : Nat)

/-- Whether a path goes nowhere. -/
def isHere (path : Raw) : Bool :=
  path.head? = some '.' && (Text.split (· = '/') path).all fun c => c.isEmpty || c = ['.']

/-- **What a path leads to**, whether or not something is there. The directory that a process is in is there
for it even if it was removed. -/
def find (m : Machine) (p : Process) (path : Raw) : Except Fault Found :=
  match m.disk.locate p.directory ⟨Raw.toText path⟩ with
  | .error e => .error (.file e)
  | .ok at_ =>
    match devices.lookup at_, descriptorAt? at_ with
    | some c, _ => .ok (.device at_ c)
    | _, some n => .ok (.descriptor n)
    | _, _ => .ok (.place at_ (m.disk.node? at_ <|> if isHere path then some .directory else none))

/-! ### Changes -/

/-- A place was changed now. -/
def touch (m : Machine) (at_ : Place) : Machine :=
  { m with changes := (at_, m.clock) :: m.changes.filter fun e => e.1 != at_ }

/-- A node put at a place. -/
def put (m : Machine) (at_ : Place) (n : BuildMender.Node) : Machine :=
  let made := (m.disk.node? at_).isNone
  let m := { m with disk := m.disk.put at_ n }.touch at_
  if made then m.touch at_.dropLast else m

/-- The content of a file that is on the disk or was. -/
def contentOf (m : Machine) : Channel → ByteArray
  | .file at_ =>
    match m.disk.node? at_ with
    | some (.file b) => b
    | _ => ⟨#[]⟩
  | .removed n => (m.removed.lookup n).getD ⟨#[]⟩
  | _ => ⟨#[]⟩

/-- The content of a file that is on the disk or was, changed. -/
def setContentOf (m : Machine) (c : Channel) (b : ByteArray) : Machine :=
  match c with
  | .file at_ => m.put at_ (.file b)
  | .removed n => { m with removed := (n, b) :: m.removed.filter fun e => e.1 ≠ n }
  | _ => m

/-- A file or an empty directory taken from the disk. What is open stays open. -/
def remove (m : Machine) (at_ : Place) : Machine :=
  let held := m.contentOf (.file at_)
  let number := m.next
  let leadsHere := fun f : OpenFile => f.channel == .file at_
  let m := { m with
    disk := m.disk.clear at_
    next := number + 1
    files := m.files.map fun f => if leadsHere f then { f with channel := .removed number } else f
    removed := if m.files.any leadsHere then (number, held) :: m.removed else m.removed }
  m.touch at_.dropLast

/-! ### Opening -/

/-- The open file of a channel, opened in a way. -/
def opened (c : Channel) (mode : OpenMode) : OpenFile :=
  { number := 0, channel := c, reading := mode.reading, writing := mode.writing, append := mode.append }

/-- **A path opened**: the open file, and the machine after that. -/
def openPath (m : Machine) (p : Process) (path : Raw) (mode : OpenMode) :
    Except Fault (OpenFile × Machine) :=
  match m.find p path with
  | .error e => .error e
  | .ok (.device _ c) => .ok (opened c mode, m)
  | .ok (.descriptor n) =>
    match m.open? p n with
    | none => .error (.file .notFound)
    | some f =>
      let m := if mode.empty then m.setContentOf f.channel ⟨#[]⟩ else m
      .ok (opened f.channel mode, m)
  | .ok (.place at_ none) =>
    if !mode.create then .error (.file .notFound)
    else if Disk.asksDirectory ⟨path⟩ then .error (.file .isDirectory)
    else .ok (opened (.file at_) mode, m.put at_ (.file ⟨#[]⟩))
  | .ok (.place at_ (some .directory)) =>
    if mode.new then .error (.file .fileExists)
    else if mode.writing || mode.create then .error (.file .isDirectory)
    else .ok (opened (.directory at_) mode, m)
  | .ok (.place at_ (some (.file b))) =>
    if mode.new then .error (.file .fileExists)
    else
      let m := if mode.empty && !b.isEmpty then m.put at_ (.file ⟨#[]⟩)
        else if mode.empty then m.touch at_ else m
      .ok (opened (.file at_) mode, m)

/-! ### Looking -/

/-- What there is to know about the end of a channel. -/
def statusOf (m : Machine) : Channel → FileStatus
  | .file at_ =>
    { kind := .file, size := (m.contentOf (.file at_)).size, changed := (m.changes.lookup at_).getD 0
      executable := Disk.isProgram at_, identity := at_ }
  | .removed n =>
    { kind := .file, size := (m.contentOf (.removed n)).size, identity := [[], Text.decimal n] }
  | .directory at_ =>
    { kind := .directory, size := 4096, changed := (m.changes.lookup at_).getD 0, executable := true
      identity := at_ }
  | .source n | .sink n => { kind := .pipe, identity := [[], [], Text.decimal n] }
  | .outside s => { kind := .pipe, identity := [[], [], if s == .stdout then ['1'] else ['2']] }
  | .null => { kind := .device, identity := ["dev", "null"] }
  | .zero => { kind := .device, identity := ["dev", "zero"] }
  | .full => { kind := .device, identity := ["dev", "full"] }

/-- **What there is to know about what a path leads to.** -/
def status (m : Machine) (p : Process) (path : Raw) : Except Fault FileStatus :=
  match m.find p path with
  | .error e => .error e
  | .ok (.device _ c) => .ok (m.statusOf c)
  | .ok (.descriptor n) =>
    match m.open? p n with
    | none => .error (.file .notFound)
    | some f => .ok (m.statusOf f.channel)
  | .ok (.place _ none) => .error (.file .notFound)
  | .ok (.place at_ (some .directory)) => .ok (m.statusOf (.directory at_))
  | .ok (.place at_ (some (.file _))) => .ok (m.statusOf (.file at_))

/-- The names in a directory. -/
def list (m : Machine) (p : Process) (path : Raw) : Except Fault (List Raw) :=
  match m.find p path with
  | .error e => .error e
  | .ok (.place _ none) => .error (.file .notFound)
  | .ok (.place at_ (some .directory)) =>
    .ok ((m.disk.below at_).map fun e => Raw.ofText e.1)
  | .ok _ => .error (.file .notDirectory)

/-! ### Changing directories -/

/-- A directory made. -/
def makeDirectory (m : Machine) (p : Process) (path : Raw) : Except Fault Machine :=
  match m.find p path with
  | .error e => .error e
  | .ok (.place at_ none) => .ok (m.put at_ .directory)
  | .ok _ => .error (.file .fileExists)

/-- A file taken out of its directory. -/
def removeFile (m : Machine) (p : Process) (path : Raw) : Except Fault Machine :=
  match m.find p path with
  | .error e => .error e
  | .ok (.place _ none) => .error (.file .notFound)
  | .ok (.place _ (some .directory)) => .error (.file .isDirectory)
  | .ok (.place at_ (some (.file _))) => .ok (m.remove at_)
  | .ok _ => .error .notPermitted

/-- The last piece of a path between slashes. -/
def lastPiece (path : Raw) : Raw :=
  ((Text.dropEnd (· = '/') path).reverse.takeWhile (· ≠ '/')).reverse

/-- An empty directory taken out of the one above it. -/
def removeDirectory (m : Machine) (p : Process) (path : Raw) : Except Fault Machine :=
  match m.find p path with
  | .error e => .error e
  | .ok (.place _ none) => .error (.file .notFound)
  | .ok (.place at_ (some .directory)) =>
    if lastPiece path = ['.'] then .error .invalid
    else if lastPiece path = ['.', '.'] then .error (.file .notEmpty)
    else if at_.isEmpty then .error .busy
    else if !(m.disk.below at_).isEmpty then .error (.file .notEmpty)
    else .ok (m.remove at_)
  | .ok _ => .error (.file .notDirectory)

/-- The path of a place. -/
def pathOf (at_ : Place) : Raw :=
  if at_.isEmpty then ['/'] else (at_.map fun n => '/' :: Raw.ofText n).flatten

end BuildMender.Host.Machine
