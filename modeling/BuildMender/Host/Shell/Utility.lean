import BuildMender.Host.Shell.Condition
import BuildMender.Host.Shell.Directory
import BuildMender.Host.Shell.Expansion
import BuildMender.Host.Shell.Format
import BuildMender.Host.Shell.Signal

/-!
# Commands of the shell itself

These commands need nothing but the state of the shell and the machine: they set and show what the shell
knows, read a line, ask a question, or print. Each takes the words behind its name and yields a status.
The commands that carry out others are elsewhere.
-/

namespace BuildMender.Host.Sh

/-! ### Printing -/

/-- Words printed with spaces between them, and whether escapes in them ended the printing. -/
def echoWords : List Raw → Sh Bool
  | [] => pure false
  | w :: ws => do
    let (t, ended) := Escape.expand w
    print t
    if ended then return true
    if !ws.isEmpty then print [' ']
    echoWords ws

/-- Words printed. -/
def echo (ws : List Raw) : Sh Nat := do
  let silent := ws.head? == some "-n".toList
  let ended ← echoWords (if silent then ws.tail else ws)
  if !ended && !silent then print ['\n']
  return 0

/-- Arguments printed as a format says. -/
def printf (ws : List Raw) : Sh Nat := do
  match ← operands ws with
  | [] => fail "usage: printf format [arg ...]"
  | format :: arguments => Format.print format arguments

/-! ### Conditions -/

/-- The status of a condition. -/
def test (name : Raw) (ws : List Raw) : Sh Nat := do
  let ws ← if name.head? == some '[' then do
      if (ws.getLast?.bind List.head?) ≠ some ']' then fail "missing ]"
      pure ws.dropLast
    else pure ws
  return if ← Condition.holds ws then 0 else 1

/-! ### Variables -/

/-- The variables shown for which a condition holds. -/
def showVariables (before : Raw) (p : Variable → Bool) : Sh Nat := do
  (← get).inOrder.forM fun (name, v) => if p v then print (Shell.shown before name v) else pure ()
  return 0

/-- Variables marked, and set if there are values. -/
def mark (name : Raw) (m : Marks) (ws : List Raw) : Sh Nat := do
  let (os, ws) ← options "p" ws
  if ws.isEmpty || !os.isEmpty then showVariables name fun v => (v.exported && m.exported) || (v.fixed && m.fixed)
  else
    ws.forM fun w => do
      let (name, value) := splitAssignment w
      match value, (← get).bindings.lookup name with
      | none, some v => modify fun s => s.putVariable name (some { v with
          exported := v.exported || m.exported, fixed := v.fixed || m.fixed })
      | value, _ => assign name value m
    return 0

/-- Variables that belong to the function. -/
def setLocals (ws : List Raw) : Sh Nat := do
  if (← get).saved.isEmpty then fail "not in a function"
  ws.forM fun w => setLocal w false
  return 0

/-- Variables or functions forgotten. -/
def unset (ws : List Raw) : Sh Nat := do
  let (os, ws) ← options "vf" ws
  let functions := (os.getLast?.map Prod.fst) == some 'f'
  ws.forM fun w =>
    if functions then modify fun s => { s with functions := s.functions.filter fun e => e.1 != w }
    else assign w none
  return 0

/-- Settings and parameters set, or variables shown. -/
def set (ws : List Raw) : Sh Nat := do
  if ws.isEmpty then showVariables [] fun v => v.value.isSome
  else
    let (parameters, _) ← setSettings false ws
    dropMonitor
    match parameters with
    | some ps => setParameters ps
    | none => pure ()
    return 0

/-- Parameters dropped. -/
def shift (ws : List Raw) : Sh Nat := do
  let n ← match ws with
    | [] => pure 1
    | w :: _ => count w
  let s ← get
  if s.parameters.length < n then fail "can't shift that many"
  setParameters (s.parameters.drop n)
  return 0

/-- The next option of the parameters, or of the words that are given. -/
def getopts (ws : List Raw) : Sh Nat := do
  match ws with
  | [letters, name] => getOption letters name (← get).parameters
  | letters :: name :: words => getOption letters name words
  | _ => fail "Usage: getopts optstring var [arg...]"

/-! ### Reading -/

/-- A line being read: its parts, the last first, and the cells of the last one. -/
structure Gathered where
  parts : List Part := []
  cells : List Cell := []
deriving Inhabited

/-- The cells gathered made a part. -/
def Gathered.close (g : Gathered) : Gathered := { parts := ⟨.blanks, g.cells.reverse⟩ :: g.parts }

/-- A line read character by character; whether it came to its end. Behind a backslash a character is
not split, and a line goes on in the next. -/
def readLine (plain : Bool) : Nat → Bool → Gathered → Sh (Bool × Gathered)
  | 0, _, g => pure (false, g)
  | n + 1, escaped, g => do
    match ← ask (.read 0 1) with
    | .error .interrupted => return (false, g)
    | .error _ | .ok [] => return (false, g)
    | .ok (c :: _) =>
      if c.toNat = 0 then readLine plain n escaped g
      else if escaped then
        if c = '\n' then readLine plain n false g.close
        else
          let g := g.close
          readLine plain n false { g with parts := ⟨.never, [.char c false]⟩ :: g.parts }
      else if c = '\\' ∧ !plain then readLine plain n true g
      else if c = '\n' then return (true, g)
      else readLine plain n false { g with cells := .char c false :: g.cells }

/-- Variables set to the fields of a line; those that have none become empty. -/
def setFields : List Raw → List (List Cell) → Sh Unit
  | [], _ => pure ()
  | name :: names, fs => do
    assign name (some (Cell.text (fs.headD [])))
    setFields names fs.tail

/-- **A line read into variables.** -/
def read (ws : List Raw) : Sh Nat := do
  let (os, names) ← options "p:r" ws
  if names.isEmpty then fail "arg count"
  let plain := os.any fun o => o.1 = 'r'
  let (whole, g) ← readLine plain Act.forever false {}
  let parts := g.close.parts.reverse
  setFields names (Field.split (Expansion.signs (← get)) (some names.length) parts)
  return if whole then 0 else 1

/-! ### Bits that new files lack -/

/-- A number as at least four octal digits. -/
def octal (n : Nat) : Raw :=
  let t := Nat.toDigits 8 n
  List.replicate (4 - t.length) '0' ++ t

/-- The bits that new files may have, in letters. -/
def maskLetters (mask : Nat) : Raw :=
  let group := fun (name : Char) (shift : Nat) =>
    name :: '=' :: ([('r', 4), ('w', 2), ('x', 1)].filterMap fun (c, bit) =>
      if (mask / Nat.pow 2 shift) &&& bit = 0 then some c else none)
  group 'u' 6 ++ ',' :: (group 'g' 3 ++ ',' :: group 'o' 0)

/-- The bits of an octal number. -/
def octalMask? (t : Raw) : Option Nat :=
  if t.all (Numeral.isDigitIn 8) then some (Numeral.valueIn 8 t % 512) else none

/-- The parties that letters name, as bits. -/
def parties (t : Raw) : Nat :=
  t.foldl (fun n c => n ||| (if c = 'u' then 64 else if c = 'g' then 8 else if c = 'o' then 1 else 73)) 0

/-- The rights that letters name, as bits; some stand for the rights of a party. -/
def rights (allowed : Nat) (t : Raw) : Nat :=
  (t.foldl (fun n c => n |||
    (if c = 'r' then 4 else if c = 'w' then 2 else if c = 'x' then 1
      else if c = 'u' then allowed / 64 else if c = 'g' then allowed / 8 else if c = 'o' then allowed
      else if c = 'X' then (if allowed &&& 73 = 0 then 0 else 1) else 0)) 0) &&& 7

/-- Rights changed as letters say, at most so many times; nothing if they say nothing. -/
def changeRights (allowed : Nat) : Nat → Nat → Nat → Raw → Option Nat
  | 0, _, new, _ => some new
  | _, _, new, [] => some new
  | n + 1, who, new, t =>
    let isParty := fun c => "augo".toList.contains c
    let who := who ||| parties (t.takeWhile isParty)
    let who := if who = 0 then 73 else who
    match t.dropWhile isParty with
    | [] => some new
    | operator :: t =>
      if operator ≠ '=' ∧ operator ≠ '+' ∧ operator ≠ '-' then none
      else
        let isRight := fun c => "rwxugoXs".toList.contains c
        let value := rights allowed (t.takeWhile isRight) * who
        let new := if operator = '+' then new ||| value
          else if operator = '-' then new &&& (511 - value)
          else value ||| (new &&& (511 - who * 7))
        match t.dropWhile isRight with
        | ',' :: t => changeRights allowed n 0 new t
        | c :: t => if c = '=' ∨ c = '+' ∨ c = '-' then changeRights allowed n who new (c :: t) else none
        | [] => some new

/-- **The bits that new files lack** shown or set. -/
def umask (ws : List Raw) : Sh Nat := do
  let (os, ws) ← options "S" ws
  let mask : Nat ← ask (.mask none)
  match ws with
  | [] =>
    print ((if os.isEmpty then octal mask else maskLetters mask) ++ ['\n'])
    return 0
  | w :: _ =>
    if w.head?.any Raw.isDigit then
      match octalMask? w with
      | none => fail ("Illegal number: " ++ w)
      | some n =>
        let _ ← ask (.mask (some n))
        return 0
    else
      match changeRights (511 - mask) (w.length + 1) 0 (511 - mask) w with
      | none => fail ("Illegal mode: " ++ w)
      | some n =>
        let _ ← ask (.mask (some (511 - n)))
        return 0

/-! ### Limits and times -/

/-- The limits of a process: what they are of, their letters, and what they are. -/
def limits : List (Text × Char × Text) :=
  [("time(seconds)", 't', "unlimited"), ("file(blocks)", 'f', "unlimited"), ("data(kbytes)", 'd', "unlimited"),
    ("stack(kbytes)", 's', "8192"), ("coredump(blocks)", 'c', "0"), ("memory(kbytes)", 'm', "unlimited"),
    ("locked memory(kbytes)", 'l', "8192"), ("process", 'p', "unlimited"), ("nofiles", 'n', "1048576"),
    ("vmemory(kbytes)", 'v', "unlimited"), ("locks", 'w', "unlimited"), ("rtprio", 'r', "0")]

/-- Limits shown. A new limit is taken as it comes. -/
def ulimit (ws : List Raw) : Sh Nat := do
  let (os, ws) ← options "HSatfdsmcnpvlwr" ws
  let letter := ((os.map Prod.fst).filter fun c => c ≠ 'H' ∧ c ≠ 'S').getLast?.getD 'f'
  if letter = 'a' then
    if !ws.isEmpty then fail "too many arguments"
    limits.forM fun (name, _, value) =>
      print (name ++ List.replicate (20 - name.length) ' ' ++ ' ' :: value ++ ['\n'])
  else
    match ws with
    | [] => limits.forM fun (_, c, value) => if c = letter then print (value ++ ['\n']) else pure ()
    | [w] => if w ≠ "unlimited".toList ∧ !w.all Raw.isDigit then fail "bad number"
    | _ => fail "too many arguments"
  return 0

/-- The times that the shell and its children have taken. -/
def times : Sh Nat := do
  let line := "0m0.000000s 0m0.000000s\n".toList
  print (line ++ line)
  return 0

/-! ### Aliases and programs that were found -/

/-- An alias as it is shown. -/
def shownAlias (a : Raw × Raw) : Raw := a.1 ++ '=' :: Shell.quoted a.2 ++ ['\n']

/-- The aliases in the order of the table they are kept in. -/
def aliasesInOrder (s : Shell) : List (Raw × Raw) :=
  s.aliases.mergeSort fun a b => Locate.bucket 39 a.1 ≤ Locate.bucket 39 b.1

/-- A word split behind its first character at an equals sign. -/
def splitAlias (w : Raw) : Raw × Option Raw :=
  match w with
  | [] => ([], none)
  | c :: cs =>
    let (name, value) := splitAssignment cs
    (c :: name, value)

/-- One alias set or shown: the status. -/
def setAlias (w : Raw) : Sh Nat := do
  let s ← get
  match splitAlias w with
  | (name, some value) =>
    let known := (s.aliases.lookup name).isSome
    modify fun s => { s with aliases :=
      if known then s.aliases.map fun a => if a.1 == name then (name, value) else a
      else s.aliases ++ [(name, value)] }
    return 0
  | (name, none) =>
    match s.aliases.lookup name with
    | some value =>
      print (shownAlias (name, value))
      return 0
    | none =>
      mutter ("alias: " ++ name ++ " not found".toList)
      return 1

/-- Aliases set or shown. -/
def aliasing (ws : List Raw) : Sh Nat := do
  if ws.isEmpty then
    (aliasesInOrder (← get)).forM fun a => print (shownAlias a)
    return 0
  else ws.foldlM (fun n w => do return max n (← setAlias w)) 0

/-- Aliases forgotten. -/
def unalias (ws : List Raw) : Sh Nat := do
  let (os, ws) ← options "a" ws
  if !os.isEmpty then
    modify fun s => { s with aliases := [] }
    return 0
  else ws.foldlM (fun n w => do
    if ((← get).aliases.lookup w).isSome then
      modify fun s => { s with aliases := s.aliases.filter fun a => a.1 != w }
      return n
    else
      mutter ("unalias: " ++ w ++ " not found".toList)
      return 1) 0

/-- Programs looked for, or those shown that were found. -/
def hash (ws : List Raw) : Sh Nat := do
  let (os, ws) ← options "r" ws
  if !os.isEmpty then
    modify fun s => { s with found := [] }
    return 0
  else if ws.isEmpty then
    let s ← get
    let directories := Locate.directories (s.valueOf "PATH".toList)
    let order := s.found.mergeSort fun a b => Locate.bucket 31 a.1 ≤ Locate.bucket 31 b.1
    order.forM fun (name, f) =>
      print (Locate.pathIn ((directories[f.index]?).getD []) name ++ (if f.stale then ['*'] else []) ++ ['\n'])
    return 0
  else ws.foldlM (fun n w => do
    Locate.forget w
    match ← Locate.find { complaining := true } w with
    | .unknown => return 1
    | _ => return n) 0

/-! ### What a name stands for -/

/-- What a name stands for is said, at length or not: the status. -/
def describe (name : Raw) (path : Option Raw) (long : Bool) : Sh Nat := do
  let s ← get
  let say := fun (t brief : Raw) => do
    print ((if long then name ++ t else brief) ++ ['\n'])
    pure 0
  if Lexeme.keywords.contains name then say " is a shell keyword" name
  else
    match s.aliases.lookup name with
    | some value =>
      if long then say (" is an alias for " ++ value) []
      else
        print ("alias ".toList ++ shownAlias (name, value))
        return 0
    | none =>
      let tracked := path.isNone && !name.contains '/' && (s.found.lookup name).isSome &&
        (s.functions.lookup name).isNone && !Locate.isOwn name
      let target ← if tracked then pure (Locate.Target.program ((s.found.lookup name).map Found.index))
        else Locate.find { path := path, checked := true } name
      match target with
      | .program index =>
        let directories := Locate.directories (path.getD (s.valueOf "PATH".toList))
        let full := match index with
          | some n => Locate.pathIn ((directories[n]?).getD []) name
          | none => name
        say ((if tracked then " is a tracked alias for ".toList else " is ".toList) ++ full) full
      | .function _ => say " is a shell function" name
      | .own _ =>
        say ((if Locate.isSpecial name then " is a special ".toList else " is a ".toList) ++
          "shell builtin".toList) name
      | .unknown =>
        if long then print (name ++ ": not found\n")
        return 127

/-- What names stand for. -/
def type (ws : List Raw) : Sh Nat := ws.foldlM (fun n w => do return n ||| (← describe w none true)) 0

/-- What the command in some words is. -/
def command (ws : List Raw) : Sh Nat := do
  let (os, ws) ← options "pvV" ws
  let has := fun c => os.any fun o => o.1 = c
  match ws with
  | w :: _ =>
    if has 'v' || has 'V' then
      describe w (if has 'p' then some Locate.standardPath else none) (has 'V')
    else return 0
  | [] => return 0

/-! ### Children -/

/-- Batches shown. -/
def jobs (ws : List Raw) : Sh Nat := do
  let (os, ws) ← options "lp" ws
  let mode := (os.getLast?.map Prod.fst)
  let show_ := fun (b : Batch) => do
    if mode == some 'p' then print (Text.decimal ((b.processes.head?.map Prod.fst).getD 0) ++ ['\n'])
    else
      print (Children.shown (← get) (mode == some 'l') b)
      if !b.running then Children.forget b.number
  if ws.isEmpty then
    let _ ← Children.await .none none
    (← get).batches.forM show_
  else ws.forM fun w => do show_ (← Children.named (some w))
  return 0

/-- A batch brought to the front or sent on: there is nothing to do it with. -/
def resume (ws : List Raw) : Sh Nat := do
  let ws ← operands ws
  let b ← Children.named ws.head?
  fail ("job " ++ (ws.headD (Text.decimal b.number)) ++ " not created under job control".toList)

/-- The batches waited for that are running. A signal ends the waiting. -/
def waitForAll : Nat → Sh Bool
  | 0 => pure true
  | n + 1 => do
    modify fun s => { s with batches := s.batches.map fun b => if b.running then b else { b with waited := true } }
    if !((← get).batches.any Batch.running) then return true
    if ← Children.await .signal none then waitForAll n else return false

/-- The batch that a word names by one of its processes or otherwise. -/
def waitedFor (w : Raw) : Sh (Option Batch) := do
  if w.head? == some '%' then return some (← Children.named (some w))
  else
    let n ← count w
    return (← get).batches.find? fun b => (b.processes.getLast?.map Prod.fst) == some n

/-- The status of a wait that a signal ended. -/
def interruptedStatus : Sh Nat := do
  let caught : List Nat ← ask (.pass 0)
  modify fun s => { s with pending := s.pending ++ caught }
  return 128 + ((← get).pending.getLast?).getD 0

/-- Batches waited for one after the other: the status of the last. -/
def waitForEach : List Raw → Nat → Sh Nat
  | [], status => pure status
  | w :: ws, status => do
    match ← waitedFor w with
    | none => waitForEach ws 127
    | some b =>
      if ← Children.await .signal (some b.number) then
        Children.change b.number fun b => { b with waited := true }
        let status := ((Children.batch? (← get) b.number).map Children.status).getD status
        waitForEach ws status
      else interruptedStatus

/-- **Children waited for.** -/
def wait (ws : List Raw) : Sh Nat := do
  match ← operands ws with
  | [] => if ← waitForAll Act.forever then return 0 else interruptedStatus
  | ws => waitForEach ws 127

end BuildMender.Host.Sh
