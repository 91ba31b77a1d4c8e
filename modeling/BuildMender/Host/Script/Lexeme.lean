import BuildMender.Host.Script
import BuildMender.Host.Script.Source

/-!
# The words and signs of a script

The characters of a script are gathered into lexemes. Signs are simple; words are not, since quotes and
parameters may stand in each other in any order: `"${a:-"b"}"`. What a character means depends on the
manner of the place where it stands, and a parameter or a sum may begin a place of its own, to which the
reader returns when it is closed (`Level`). The pieces of a word that is being read are kept the last
first; those of the word that it is a part of wait until it is closed (`Draft`).

Commands inside a word are read by what reads commands, which is a parameter here.
-/

namespace BuildMender.Host

/-- What a script consists of. -/
inductive Lexeme where
  | finish
  | newline
  | semicolon
  | ampersand
  | both
  | either
  | pipe
  | openParen
  | closeParen
  | endCase
  | redirection
  | word
  | keyword (k : Text)
deriving DecidableEq, Inhabited

namespace Lexeme

/-- What a lexeme is called. -/
def name : Lexeme → Text
  | .finish => "end of file"
  | .newline => "newline"
  | .semicolon => "\";\""
  | .ampersand => "\"&\""
  | .both => "\"&&\""
  | .either => "\"||\""
  | .pipe => "\"|\""
  | .openParen => "\"(\""
  | .closeParen => "\")\""
  | .endCase => "\";;\""
  | .redirection => "redirection"
  | .word => "word"
  | .keyword k => '"' :: k ++ ['"']

/-- The words that mean something where a command begins. -/
def keywords : List Text :=
  Text.split (· = ' ')
    ("! case do done elif else esac fi for if in then until while \x7b \x7d" : String).toList

/-- The words that end the commands between others. -/
def closers : List Text :=
  Text.split (· = ' ') ("do done elif else esac fi then \x7d" : String).toList

/-- Whether commands end before a lexeme. -/
def endsCommands : Lexeme → Bool
  | .finish | .closeParen | .endCase => true
  | .keyword k => closers.contains k
  | _ => false

end Lexeme

/-- Why reading stops. -/
inductive Stop where
  /-- The next portion has to come first. -/
  | more
  | wrong (line : Nat) (message : Raw)
deriving DecidableEq, Inhabited

/-- A text behind `<<` that is still to come. -/
structure Awaiting where
  number : Nat
  expanded : Bool
  /-- The line that ends it. -/
  mark : Raw
  /-- Whether tabs at the beginning of lines are left out. -/
  tabless : Bool
deriving DecidableEq, Inhabited

/-- What a redirection sign asks for. -/
inductive RedirectionSign where
  | file (use : FileUse)
  | descriptor
  | document (tabless : Bool)
deriving DecidableEq, Inhabited

/-- What to make of the next lexeme. -/
structure Expectation where
  keywords : Bool := false
  /-- Whether newlines are passed over. -/
  newlines : Bool := false
  aliases : Bool := false
  /-- Whether the next word is the line that ends a text. -/
  mark : Bool := false
deriving DecidableEq, Inhabited

/-- A script that is being read, and what is known of it. -/
structure Reading where
  source : Source
  aliases : List (Raw × Raw) := []
  /-- The last lexeme, and whether it is to be read again. -/
  last : Lexeme := .finish
  again : Bool := false
  expectation : Expectation := {}
  /-- The last word, and whether quotes stood in it. -/
  word : Word := []
  quoted : Bool := false
  /-- The last redirection sign and its descriptor. -/
  redirection : Nat × RedirectionSign := (0, .descriptor)
  awaiting : List Awaiting := []
  /-- The texts behind `<<` that have been read. -/
  documents : List (Nat × Document) := []
  nextDocument : Nat := 0
deriving Inhabited

/-- An action of reading. -/
abbrev Reader := EStateM Stop Reading

namespace Reader

/-- More steps than any script has. -/
def endless : Nat := 1000000000000000

/-- The end of reading: something is wrong. -/
def fail {α : Type} (message : Raw) : Reader α := do
  throw (.wrong (← get).source.line message)

/-- The end of reading at the last lexeme, perhaps with what was expected in its place. -/
def unexpected {α : Type} (expected : Option Lexeme := none) : Reader α := do
  let r ← get
  fail (r.last.name ++ " unexpected" ++ match expected with
    | some l => " (expecting ".toList ++ l.name ++ [')']
    | none => [])

/-- The next character; nothing at the end. -/
def next : Reader (Option Char) := do
  let r ← get
  let (drawn, blank, source) := r.source.next
  set { r with
    source := source
    expectation := if blank then { r.expectation with aliases := true } else r.expectation }
  match drawn with
  | .char c => return some c
  | .finish => return none
  | .more => throw .more

/-- A character put back. -/
def unread : Option Char → Reader Unit
  | some c => modify fun r => { r with source := r.source.unread c }
  | none => pure ()

/-- Text put in front of what is still to be read. -/
def push (word : Option Raw) (t : Raw) : Reader Unit :=
  modify fun r => { r with source := r.source.push word t }

/-- The next line. -/
def newLine : Reader Unit :=
  modify fun r => { r with source := { r.source with line := r.source.line + 1 } }

/-- The next character where lines that end in a backslash go on in the next. -/
def joined : Reader (Option Char) := go endless
where
  /-- At most so many lines. -/
  go : Nat → Reader (Option Char)
    | 0 => pure none
    | n + 1 => do
      let c ← next
      if c ≠ some '\\' then return c
      let d ← next
      if d ≠ some '\n' then
        unread d
        return c
      newLine
      go n

/-! ### Words -/

/-- What characters mean at a place of a word. -/
inductive Manner where
  | plain
  | double
  | single
  | sum
deriving DecidableEq, Inhabited

/-- A place of a word. -/
structure Level where
  manner : Manner
  /-- Whether it is between double quotes. -/
  double : Bool := false
  /-- Whether it is between double quotes inside a parameter. -/
  inner : Bool := false
  /-- How many parameters are open here. -/
  opened : Nat := 0
  /-- How many of them were opened between double quotes. -/
  openedDouble : Nat := 0
  parens : Nat := 0
  /-- Whether it ends with its first parameter. -/
  passing : Bool := false
deriving DecidableEq, Inhabited

/-- A piece that is open. -/
inductive Opening where
  | parameter (name : Raw) (usage : Usage) (colon : Bool)
  | sum
deriving DecidableEq, Inhabited

/-- A word that is being read. -/
structure Draft where
  level : Level
  levels : List Level := []
  pieces : List Piece := []
  outer : List (Opening × List Piece) := []
  quoted : Bool := false
deriving Inhabited

namespace Draft

/-- A piece added. -/
def add (p : Piece) (d : Draft) : Draft := { d with pieces := p :: d.pieces }

/-- A character added. -/
def put (c : Char) (d : Draft) : Draft := d.add (.char c false)

/-- A quoted character added. -/
def putQuoted (c : Char) (d : Draft) : Draft := d.add (.char c true)

/-- A piece opened. -/
def start (o : Opening) (d : Draft) : Draft :=
  { d with pieces := [], outer := (o, d.pieces) :: d.outer }

/-- The innermost open piece closed. -/
def close (d : Draft) : Draft :=
  match d.outer with
  | [] => d
  | (o, pieces) :: outer =>
    let inside := d.pieces.reverse
    let p : Piece := match o with
      | .parameter name usage colon => .parameter name usage colon inside
      | .sum => .sum inside
    { d with pieces := p :: pieces, outer := outer }

/-- The place changed. -/
def change (f : Level → Level) (d : Draft) : Draft := { d with level := f d.level }

/-- A place begun. -/
def enter (l : Level) (d : Draft) : Draft := { d with level := l, levels := d.level :: d.levels }

/-- The place left. -/
def leave (d : Draft) : Draft :=
  match d.levels with
  | [] => d
  | l :: ls => { d with level := l, levels := ls }

end Draft

/-- What a character means. -/
inductive Sense where
  | newline
  | backslash
  | singleQuote
  | doubleQuote
  | endQuote
  | backquote
  | dollar
  | closeBrace
  | openParen
  | closeParen
  | special
  /-- It means something in patterns and paths. -/
  | sign
  | word
deriving DecidableEq, Inhabited

/-- What a character means in a manner. -/
def sense (m : Manner) (c : Char) : Sense :=
  if c = '\n' then .newline
  else if m = .single then
    if c = '\x27' then .endQuote
    else if "!*?[=~:/-]\\".toList.contains c then .sign
    else .word
  else if c = '\\' then .backslash
  else if c = '\x60' then .backquote
  else if c = '$' then .dollar
  else if c = '\x7d' then .closeBrace
  else
    match m with
    | .plain =>
      if c = '\x27' then .singleQuote
      else if c = '"' then .doubleQuote
      else if "<>();&| \t".toList.contains c then .special
      else .word
    | .double =>
      if c = '"' then .endQuote
      else if "!*?[=~:/-]".toList.contains c then .sign
      else .word
    | _ => if c = '(' then .openParen else if c = ')' then .closeParen else .word

/-- How a word ends. -/
structure Ends where
  /-- Whether it is a text, which does not end like words do. -/
  isText : Bool := false
  /-- The line that ends it, if it is a text behind `<<`. -/
  mark : Option Raw := none
  tabless : Bool := false
deriving DecidableEq, Inhabited

/-- What reads the commands inside a word. -/
structure Commands where
  /-- Commands to the end of a text. -/
  all : Reader (Option Node)
  /-- Commands and the parenthesis behind them. -/
  enclosed : Reader (Option Node)

/-- Tabs passed over. -/
def skipTabs : Nat → Option Char → Reader (Option Char)
  | 0, c => pure c
  | n + 1, c => if c = some '\t' then do skipTabs n (← next) else pure c

/-- Whether a line that begins with a character is the one that ends a text: the end if it is, else the
character. -/
def atMark (e : Ends) (c : Option Char) : Reader (Option Char) :=
  match e.mark with
  | none => pure c
  | some mark => do
    let c ← if e.tabless then skipTabs endless c else pure c
    compare mark c []
where
  /-- The characters of the line compared; those that fitted so far, the last first. -/
  compare : Raw → Option Char → Raw → Reader (Option Char)
    | m :: ms, some c, seen =>
      if c = m then do compare ms (← next) (c :: seen)
      else giveBack (c :: seen)
    | _ :: _, none, seen => giveBack seen
    | [], some c, seen => do
      if c = '\n' then
        newLine
        return none
      else giveBack (c :: seen)
    | [], none, _ => return none
  /-- Characters put back but for the first. -/
  giveBack (seen : Raw) : Reader (Option Char) := do
    match seen.reverse with
    | [] => return none
    | c :: cs =>
      if !cs.isEmpty then push none cs
      return some c

/-- The rest of a text in backquotes, the last character first. Backslashes in front of some characters
are left out. -/
def backquoted (double : Bool) : Nat → Raw → Reader Raw
  | 0, t => pure t
  | n + 1, t => do
    match ← joined with
    | none => fail "EOF in backquote substitution"
    | some '\x60' => return t
    | some '\\' =>
      match ← next with
      | none => fail "EOF in backquote substitution"
      | some c =>
        let kept := c ≠ '\\' ∧ c ≠ '\x60' ∧ c ≠ '$' ∧ (!double ∨ c ≠ '"')
        backquoted double n (c :: if kept then '\\' :: t else t)
    | some c =>
      if c = '\n' then newLine
      backquoted double n (c :: t)

/-- The output of commands in backquotes. -/
def readBackquote (commands : Commands) (d : Draft) : Reader Draft := do
  let t ← backquoted d.level.double endless []
  let r ← get
  let outer := r.source
  set { r with source := { rest := t.reverse, busy := outer.busy }, awaiting := [] }
  let body ← commands.all
  modify fun r' => { r' with source := outer, awaiting := r.awaiting, again := false }
  return d.add (.output body)

/-- Whether a parameter is one of the signs. -/
def isSign (c : Char) : Bool := "@*#?-$!0123456789".toList.contains c

/-- Characters as far as they satisfy a condition: they, the last first, and the one after them. -/
def gather (p : Char → Bool) : Nat → Raw → Option Char → Reader (Raw × Option Char)
  | 0, t, c => pure (t, c)
  | _, t, none => pure (t, none)
  | n + 1, t, some c => if p c then do gather p n (c :: t) (← joined) else pure (t, some c)

/-- What has been read of a parameter: its name, what is made of it if that is known, and the character
behind the name; no name if there is none. -/
structure Named where
  name : Option Raw
  usage : Option Usage
  behind : Option Char
deriving Inhabited

/-- The name of a parameter from a character on. `usage` is what is made of it, if that is known. -/
def readName (usage : Option Usage) (c : Option Char) : Reader Named := do
  match c with
  | none => return ⟨none, usage, none⟩
  | some c =>
    if Raw.isNameStart c then
      let (t, behind) ← gather Raw.isNameChar endless [] (some c)
      return ⟨some t.reverse, usage, behind⟩
    else if Raw.isDigit c then
      if usage = some .value then return ⟨some [c], usage, ← joined⟩
      let (t, behind) ← gather Raw.isDigit endless [] (some c)
      return ⟨some t.reverse, usage, behind⟩
    else if c = '\x7d' then return ⟨none, usage, some c⟩
    else
      let behind ← joined
      return ⟨if isSign c then some [c] else none, usage, behind⟩

/-- The name of a parameter between braces from a character on. A number sign may ask for a length, or
be a parameter itself. -/
def readBracedName (c : Option Char) : Reader Named := do
  if c ≠ some '#' then readName none c
  else
    let d ← joined
    if d.any fun d => Raw.isNameChar d then readName (some .length) d
    else
      let e ← joined
      if d = some '\x7d' ∨ e ≠ some '\x7d' then
        unread e
        return ⟨some ['#'], none, d⟩
      else
        let sign := d.any isSign
        return ⟨if sign then d.map fun d => [d] else none, if sign then some .length else none, e⟩

/-- What is made of a parameter, by the character behind its name; also whether a colon stood there, and
whether quotes around it do not count inside. -/
def readUsage (c : Option Char) : Reader (Usage × Bool × Bool) := do
  let colon := c = some ':'
  let c ← if colon then joined else pure c
  match c with
  | some '\x7d' => return (.value, colon, false)
  | some '-' => return (.otherwise, colon, false)
  | some '+' => return (.instead, colon, false)
  | some '?' => return (.demand, colon, false)
  | some '=' => return (.assign, colon, false)
  | some c =>
    if !colon ∧ (c = '#' ∨ c = '%') then
      let d ← joined
      if d ≠ some c then unread d
      return (.trim (c = '#') (d = some c), false, true)
    else return (.wrong, colon, false)
  | none => return (.wrong, colon, false)

/-- A parameter begun. -/
def openParameter (name : Raw) (usage : Usage) (colon fresh : Bool) (d : Draft) : Draft :=
  if usage = .value ∧ !colon then d.add (.parameter name usage colon [])
  else
    let manner := if fresh then .plain else if d.level.manner = .sum then .double else d.level.manner
    let d := if manner ≠ d.level.manner ∨ d.level.inner then
        d.enter { manner := manner, double := manner ≠ .plain, passing := true }
      else d
    (d.start (.parameter name usage colon)).change fun l =>
      { l with
        opened := l.opened + 1
        openedDouble := if l.double then l.openedDouble + 1 else l.openedDouble }

/-- What a dollar sign begins. -/
def readDollar (commands : Commands) (d : Draft) : Reader Draft := do
  let c ← joined
  let r ← get
  let starts := c.any fun c => c = '(' || c = '\x7b' || Raw.isNameStart c || isSign c
  if r.expectation.mark || !starts then
    unread c
    return d.put '$'
  else if c = some '(' then
    let e ← joined
    if e = some '(' then return (d.enter { manner := .sum, double := true }).start .sum
    else
      unread e
      modify fun r => { r with awaiting := [] }
      let body ← commands.enclosed
      modify fun r' => { r' with awaiting := r.awaiting }
      return d.add (.output body)
  else if c = some '\x7b' then
    let n ← readBracedName (← joined)
    let name := n.name.getD []
    match n.name, n.usage with
    | some _, none =>
      let (usage, colon, fresh) ← readUsage n.behind
      return openParameter name usage colon fresh d
    | some _, some usage =>
      if n.behind = some '\x7d' then
        unread n.behind
        return openParameter name usage false false d
      else
        unread n.behind
        return openParameter name .wrong false false d
    | none, _ =>
      unread n.behind
      return openParameter name .wrong false false d
  else
    let n ← readName (some .value) c
    unread n.behind
    return openParameter (n.name.getD []) .value false false d

/-- A quote passed. -/
def passQuote (e : Ends) (d : Draft) : Draft := if e.isText then d else d.add .quote

/-- A double quote passed. -/
def passDouble (e : Ends) (d : Draft) : Draft :=
  passQuote e (d.change fun l => if l.opened = 0 then l else { l with inner := !l.inner })

/-- What a backslash does. -/
def readBackslash (e : Ends) (d : Draft) : Reader Draft := do
  match ← next with
  | none => return d.putQuoted '\\'
  | some c =>
    let l := d.level
    let stays := l.double ∧ c ≠ '\\' ∧ c ≠ '\x60' ∧ c ≠ '$' ∧
      (c ≠ '"' ∨ (e.isText ∧ l.opened = 0)) ∧ (c ≠ '\x7d' ∨ l.opened = 0)
    return { (if stays then d.putQuoted '\\' else d).putQuoted c with quoted := true }

/-- One character of a word; nothing if the word ends before it. -/
def step (commands : Commands) (e : Ends) (c : Char) (d : Draft) : Reader (Option Draft) := do
  let l := d.level
  match sense l.manner c with
  | .newline =>
    if l.manner = .plain ∧ l.opened = 0 then return none
    newLine
    return some (d.put c)
  | .word => return some (d.put c)
  | .sign => return some (if !e.isText || l.double then d.putQuoted c else d.put c)
  | .backslash => return some (← readBackslash e d)
  | .singleQuote => return some (passQuote e (d.change fun l => { l with manner := .single }))
  | .doubleQuote =>
    return some (passDouble e (d.change fun l => { l with manner := .double, double := true }))
  | .endQuote =>
    if e.isText ∧ l.opened = 0 then return some (d.put c)
    let d := if l.openedDouble = 0 then d.change fun l => { l with manner := .plain, double := false } else d
    let d := { d with quoted := true }
    return some (if c = '"' then passDouble e d else passQuote e d)
  | .dollar => return some (← readDollar commands d)
  | .closeBrace =>
    if l.inner ∨ l.opened = 0 then return some (d.put c)
    let d := d.close.change fun l => { l with opened := l.opened - 1 }
    if d.level.opened = 0 ∧ d.level.passing then return some d.leave
    return some (d.change fun l => { l with openedDouble := l.openedDouble - 1 })
  | .openParen => return some ((d.put c).change fun l => { l with parens := l.parens + 1 })
  | .closeParen =>
    if 0 < l.parens then return some ((d.put c).change fun l => { l with parens := l.parens - 1 })
    let next ← joined
    if next = some ')' then return some d.close.leave
    unread next
    return some (d.put c)
  | .backquote =>
    if (← get).expectation.mark then return some (d.put c)
    return some (← readBackquote commands d)
  | .special => return if l.opened = 0 then none else some (d.put c)

/-- The rest of a word from a character on: the word, and the character that ends it. -/
def readRest (commands : Commands) (e : Ends) : Nat → Bool → Option Char → Draft →
    Reader (Option Char × Draft)
  | 0, _, c, d => pure (c, d)
  | n + 1, atStart, c, d => do
    match ← if atStart then atMark e c else pure c with
    | none => return (none, d)
    | some c =>
      match ← step commands e c d with
      | none => return (some c, d)
      | some d =>
        let next ← if d.level.manner = .single then next else joined
        readRest commands e n (c = '\n') next d

/-- The redirection sign that begins with a character, which leads to a descriptor of its own if none
stood before it. -/
def readSign (descriptor : Option Nat) (c : Char) : Reader Unit := do
  let d ← joined
  let sign ← if c = '>' then
      match d with
      | some '>' => pure (.file .append)
      | some '|' => pure (.file .overwrite)
      | some '&' => pure .descriptor
      | _ => do
        unread d
        pure (RedirectionSign.file .write)
    else
      match d with
      | some '<' => do
        let e ← joined
        if e ≠ some '-' then unread e
        pure (.document (e = some '-'))
      | some '&' => pure .descriptor
      | some '>' => pure (.file .both)
      | _ => do
        unread d
        pure (RedirectionSign.file .read)
  modify fun r => { r with redirection := (descriptor.getD (if c = '>' then 1 else 0), sign) }

/-- Whether a draft is nothing but a digit, or nothing at all; the digit. -/
def digit? (d : Draft) : Option (Option Nat) :=
  match d.pieces, d.quoted with
  | [], false => some none
  | [.char c false], false => if Raw.isDigit c then some (some (c.toNat - 48)) else none
  | _, _ => none

/-- **A word from a character on**, or the redirection sign behind it. -/
def readWord (commands : Commands) (manner : Manner) (e : Ends) (c : Option Char) : Reader Lexeme := do
  let start : Draft := { level := { manner := manner, double := manner = .double } }
  let (c, d) ← readRest commands e endless true c start
  let l := d.level
  if l.manner = .sum then fail "Missing '))'"
  if l.manner ≠ .plain ∧ !e.isText then fail "Unterminated quoted string"
  if l.opened ≠ 0 then fail "Missing '\x7d'"
  let sign := if !e.isText then c.filter fun c => c = '<' || c = '>' else none
  match sign, digit? d with
  | some c, some descriptor => do
    readSign descriptor c
    return .redirection
  | _, _ => do
    if !e.isText then unread c
    modify fun r => { r with word := d.pieces.reverse, quoted := d.quoted }
    return .word

/-! ### Lexemes -/

/-- A comment passed over. -/
def skipComment : Nat → Reader Unit
  | 0 => pure ()
  | n + 1 => do
    let c ← next
    if c = some '\n' ∨ c = none then unread c else skipComment n

/-- A lexeme of two characters or one. -/
def oneOrTwo (second : Char) (two one : Lexeme) : Reader Lexeme := do
  let c ← joined
  if c = some second then return two
  unread c
  return one

/-- The next lexeme of the text. -/
def scan (commands : Commands) : Nat → Reader Lexeme
  | 0 => pure .finish
  | n + 1 => do
    let c ← joined
    match c with
    | none => return .finish
    | some c =>
      if c = ' ' ∨ c = '\t' then scan commands n
      else if c = '#' then
        skipComment endless
        scan commands n
      else if c = '\n' then
        newLine
        return .newline
      else if c = '&' then oneOrTwo '&' .both .ampersand
      else if c = '|' then oneOrTwo '|' .either .pipe
      else if c = ';' then oneOrTwo ';' .endCase .semicolon
      else if c = '(' then return .openParen
      else if c = ')' then return .closeParen
      else readWord commands .plain {} (some c)

/-- The next lexeme, which may be the last once more. -/
def peel (commands : Commands) : Reader Lexeme := do
  let r ← get
  if r.again then
    set { r with again := false }
    return r.last
  let l ← scan commands endless
  modify fun r => { r with last := l }
  return l

/-- The texts behind `<<` read. -/
def readDocuments (commands : Commands) : Reader Unit := do
  let awaiting := (← get).awaiting
  modify fun r => { r with awaiting := [] }
  awaiting.forM fun a => do
    let ends : Ends := ⟨true, some a.mark, a.tabless⟩
    let _ ← if a.expanded then do readWord commands .double ends (← joined)
      else do readWord commands .single ends (← next)
    modify fun r => { r with documents := (a.number, ⟨a.expanded, r.word⟩) :: r.documents }

/-- Newlines passed over after a lexeme. -/
def skipNewlines (commands : Commands) : Nat → Lexeme → Reader Lexeme
  | 0, l => pure l
  | n + 1, l => do
    if l = .newline then
      readDocuments commands
      modify fun r => { r with expectation := {} }
      skipNewlines commands n (← peel commands)
    else return l

/-- **The next lexeme**, as far as keywords and aliases are expected. -/
def lexeme (commands : Commands) : Reader Lexeme := do
  let x := (← get).expectation
  go x endless
where
  /-- The next lexeme after at most so many aliases. -/
  go (x : Expectation) : Nat → Reader Lexeme
    | 0 => pure .finish
    | n + 1 => do
      let l ← peel commands
      let l ← if x.newlines then skipNewlines commands endless l else pure l
      let r ← get
      let x := { x with
        keywords := x.keywords || r.expectation.keywords, aliases := x.aliases || r.expectation.aliases }
      set { r with expectation := {} }
      match l, r.quoted, r.word.plain? with
      | .word, false, some t =>
        if x.keywords && Lexeme.keywords.contains t then
          modify fun r => { r with last := .keyword t }
          return .keyword t
        else
          match if x.aliases && !r.source.busy.contains t then r.aliases.lookup t else none with
          | some value =>
            if !value.isEmpty then push (some t) value
            go x n
          | none => return .word
      | _, _, _ => return l

end Reader

end BuildMender.Host
