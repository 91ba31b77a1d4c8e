import BuildMender.Host.Shell.Variable

/-!
# Options of a shell and its commands

The commands of the shell itself read their options from the words in front. The settings of a shell are
such options too, `-` turns one on and `+` turns it off; and a script can read the options it was called
with one at a time (`getopts`).
-/

namespace BuildMender.Host.Sh

/-! ### Options of commands -/

/-- Whether an option takes a value; nothing if there is no such option. -/
def takesValue? (c : Char) : Text → Option Bool
  | [] => none
  | d :: ':' :: ds => if c = d then some true else takesValue? c ds
  | d :: ds => if c = d then some false else takesValue? c ds

/-- The options of a word behind its minus sign, and the words after it. -/
def readLetters (letters : Text) : Raw → List Raw → Sh (List (Char × Raw) × List Raw)
  | [], more => pure ([], more)
  | c :: cs, more => do
    match takesValue? c letters with
    | none => fail ("Illegal option -" ++ [c])
    | some false =>
      let (os, more) ← readLetters letters cs more
      return ((c, []) :: os, more)
    | some true =>
      match cs, more with
      | _ :: _, _ => return ([(c, cs)], more)
      | [], v :: more => return ([(c, v)], more)
      | [], [] => fail ("No arg for -" ++ [c] ++ " option".toList)

/-- **The options in front of some words**, spelled as letters with a colon behind those that take a value,
and the words after them. -/
def options (letters : Text) (ws : List Raw) : Sh (List (Char × Raw) × List Raw) :=
  go ws.length ws
where
  /-- The options of at most so many words. -/
  go : Nat → List Raw → Sh (List (Char × Raw) × List Raw)
    | 0, ws => pure ([], ws)
    | n + 1, ws => do
      match ws with
      | ['-', '-'] :: more => return ([], more)
      | ('-' :: c :: cs) :: more =>
        let (os, more) ← readLetters letters (c :: cs) more
        let (os', more) ← go n more
        return (os ++ os', more)
      | ws => return ([], ws)

/-- The words behind options of which there are none. -/
def operands (ws : List Raw) : Sh (List Raw) := return (← options [] ws).2

/-! ### Settings -/

/-- The settings shown. -/
def showSettings (asCommands : Bool) : Sh Unit := do
  if !asCommands then print "Current option settings\n"
  Setting.table.forM fun (x, name, _) => do
    let on ← isOn x
    if asCommands then print ((if on then "set -o ".toList else "set +o ".toList) ++ name ++ ['\n'])
    else
      let padding := List.replicate (16 - name.length) ' '
      print (name ++ padding ++ (if on then "on\n".toList else "off\n".toList))

/-- The setting with a name set; settings shown if there is no name. -/
def setNamed (name : Option Raw) (on : Bool) : Sh Unit :=
  match name with
  | none => showSettings !on
  | some t =>
    match Setting.ofName? t with
    | some x => setSetting x on
    | none => fail ("Illegal option -o " ++ t)

/-- What the words that a shell is called with say besides its settings. -/
structure Calling where
  /-- Whether the script is the first word. -/
  script : Bool := false
  login : Bool := false
deriving Inhabited

/-- The settings of a word set behind its sign; the words after it. -/
def setLetters (atStart on : Bool) : Raw → List Raw → Calling → Sh (List Raw × Calling)
  | [], more, k => pure (more, k)
  | c :: cs, more, k => do
    if c = 'c' ∧ atStart then setLetters atStart on cs more { k with script := true }
    else if c = 'l' ∧ atStart then setLetters atStart on cs more { k with login := true }
    else if c = 'o' then
      setNamed more.head? on
      setLetters atStart on cs more.tail k
    else
      match Setting.ofLetter? c with
      | some x => do
        setSetting x on
        setLetters atStart on cs more k
      | none => fail ("Illegal option -" ++ [c])

/-- **The settings in front of some words set**; the words after them, if they are to be parameters. -/
def setSettings (atStart : Bool) (ws : List Raw) : Sh (Option (List Raw) × Calling) :=
  go ws.length ws {}
where
  /-- The settings of at most so many words. -/
  go : Nat → List Raw → Calling → Sh (Option (List Raw) × Calling)
    | 0, ws, k => pure (if ws.isEmpty then none else some ws, k)
    | n + 1, ws, k => do
      match ws with
      | [] => return (none, k)
      | ['-'] :: more =>
        if !atStart then
          setSetting .trace false
          setSetting .verbose false
        return (if more.isEmpty then none else some more, k)
      | ['-', '-'] :: more => return (if more.isEmpty && atStart then none else some more, k)
      | ('-' :: cs) :: more =>
        let (more, k) ← setLetters atStart true cs more k
        go n more k
      | ('+' :: cs) :: more =>
        let (more, k) ← setLetters atStart false cs more k
        go n more k
      | ws => return (some ws, k)

/-- There is no keyboard, and so no control over processes from there. -/
def dropMonitor : Sh Unit := do
  if (← isOn .monitor) && !(← get).isPart then
    warn "can't access tty; job control turned off"
    setSetting .monitor false

/-- The parameters set. Reading options starts over. -/
def setParameters (ws : List Raw) : Sh Unit :=
  modify fun s => { s with parameters := ws, optionIndex := 1, optionLetter := none }

/-! ### Options of a script -/

/-- What reading one option has come to: its letter, whether there was none, the number of the next word,
and the letter in the word before it where reading goes on. -/
structure Picked where
  letter : Char := '?'
  ended : Bool := false
  next : Nat
  inside : Option Nat := none
deriving Inhabited

/-- The variable that takes the value of an option. -/
def valueName : Raw := "OPTARG".toList

/-- A line on the stream of errors, with nothing before it. -/
def mutter (t : Raw) : Sh Unit := act (Act.complain (t ++ ['\n']))

/-- The option whose letters begin at a place of the words. -/
def pickLetter (letters : Raw) (words : List Raw) (next : Nat) (word : Raw) (at_ : Nat) : Sh Picked := do
  let silent := letters.head? = some ':'
  match word.drop at_ with
  | [] => return { ended := true, next := next }
  | c :: rest =>
    let inside := some (at_ + 1)
    match takesValue? c letters with
    | none =>
      if silent then assign valueName (some [c])
      else
        mutter ("Illegal option -" ++ [c])
        assign valueName none
      return { next := next, inside := inside }
    | some false =>
      assign valueName (some [])
      return { letter := c, next := next, inside := inside }
    | some true =>
      if !rest.isEmpty then
        assign valueName (some rest)
        return { letter := c, next := next }
      else
        match words[next - 1]? with
        | some v =>
          assign valueName (some v)
          return { letter := c, next := next + 1 }
        | none =>
          if silent then
            assign valueName (some [c])
            return { letter := ':', next := next }
          else
            mutter ("No arg for -" ++ [c] ++ " option".toList)
            assign valueName none
            return { next := next }

/-- The next option of some words. -/
def pick (letters : Raw) (words : List Raw) (index : Nat) (inside : Option Nat) : Sh Picked := do
  let current := if index ≤ 1 then none else words[index - 2]?
  match current, inside.filter fun n => current.any fun w => n < w.length with
  | some w, some n => pickLetter letters words index w n
  | _, _ =>
    match words[index - 1]? with
    | some ['-', '-'] => return { ended := true, next := index + 1 }
    | some ('-' :: c :: cs) => pickLetter letters words (index + 1) ('-' :: c :: cs) 1
    | _ => return { ended := true, next := index }

/-- **The next option of some words**, put into a variable: whether there was none. -/
def getOption (letters name : Raw) (words : List Raw) : Sh Nat := do
  let s ← get
  let (index, inside) := if words.length + 1 < s.optionIndex then (1, none) else (s.optionIndex, s.optionLetter)
  let p ← pick letters words index inside
  setVariable "OPTIND".toList (some (Text.decimal p.next))
  assign name (some [p.letter])
  modify fun s => { s with optionIndex := p.next, optionLetter := p.inside }
  return if p.ended then 1 else 0

end BuildMender.Host.Sh
