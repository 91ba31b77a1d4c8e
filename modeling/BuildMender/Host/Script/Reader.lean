import BuildMender.Host.Script.Lexeme

/-!
# The commands of a script

Commands are read from lexemes by the rules of the language, one line at a time: the commands of a line
are carried out before the next line is read. What is between `if` and `fi` or the like is read at once,
however many lines it takes.

Every rule needs the rules for the commands inside its own, which it is given (`Rules`); `rules` ties the
knot, to a depth that no script has.
-/

namespace BuildMender.Host

/-- How far commands go. -/
inductive Extent where
  /-- To the end of the line. -/
  | line
  /-- To a word that ends them; there has to be a command. -/
  | block
  /-- To a word that ends them. -/
  | rest
deriving DecidableEq, Inhabited

/-- The rules for the commands inside others. -/
structure Rules where
  commands : Extent → Reader (Option Node)
  command : Unit → Reader Node

namespace Reader

/-- The rules for the commands inside a word. -/
def inWord (rules : Rules) : Commands where
  all := rules.commands .rest
  enclosed := do
    let n ← rules.commands .rest
    if (← lexeme ⟨pure none, pure none⟩) ≠ .closeParen then unexpected (some .closeParen)
    return n

/-- The next lexeme. -/
def take (rules : Rules) : Reader Lexeme := lexeme (inWord rules)

/-- The last lexeme put back. -/
def putBack : Reader Unit := modify fun r => { r with again := true }

/-- What to make of the next lexeme. -/
def expect (newlines keywords aliases : Bool) : Reader Unit :=
  modify fun r => { r with expectation := { newlines := newlines, keywords := keywords, aliases := aliases } }

/-- A lexeme that has to come next. -/
def demand (rules : Rules) (l : Lexeme) : Reader Unit := do
  if (← take rules) ≠ l then unexpected (some l)

/-- The number of the line. -/
def line : Reader Nat := return (← get).source.line

/-- A keyword. -/
def keyword (k : String) : Lexeme := .keyword k.toList

/-! ### Redirections -/

/-- The redirection whose sign was just read, with the word behind it. -/
def readRedirection (rules : Rules) : Reader Redirection := do
  let (descriptor, sign) := (← get).redirection
  match sign with
  | .document _ => modify fun r => { r with expectation := { mark := true } }
  | _ => pure ()
  if (← take rules) ≠ .word then unexpected
  let r ← get
  match sign with
  | .file use => return .mk descriptor (.file use r.word)
  | .descriptor =>
    match r.word with
    | [.char c false] =>
      if Raw.isDigit c then return .mk descriptor (.descriptor (c.toNat - 48))
      else if c = '-' then return .mk descriptor .closed
      else return .mk descriptor (.computed r.word)
    | _ => return .mk descriptor (.computed r.word)
  | .document tabless =>
    let awaiting : Awaiting := ⟨r.nextDocument, !r.quoted, r.word.letters, tabless⟩
    set { r with awaiting := r.awaiting ++ [awaiting], nextDocument := r.nextDocument + 1 }
    return .mk descriptor (.document awaiting.number)

/-- The redirections behind a command. -/
def readRedirections (rules : Rules) : Nat → List Redirection → Reader (List Redirection)
  | 0, rs => pure rs
  | n + 1, rs => do
    if (← take rules) = .redirection then
      let r ← readRedirection rules
      readRedirections rules n (rs ++ [r])
    else
      putBack
      return rs

/-! ### Commands -/

/-- What has been read of a command without commands inside. -/
structure Simple where
  assignments : List Word := []
  words : List Word := []
  redirections : List Redirection := []
deriving Inhabited

/-- The names of the commands that belong to the language itself; no function has such a name. -/
def ownNames : List Text :=
  Text.split (· = ' ')
    (". : break continue eval exec exit export local readonly return set shift times trap unset" : String).toList

/-- The body of a function behind its name and an opening parenthesis. -/
def readFunction (rules : Rules) (name : Word) : Reader Node := do
  demand rules .closeParen
  match name.plain? with
  | some t =>
    if !Raw.isName t || ownNames.contains t then fail "Bad function name"
    expect true true true
    let l ← line
    return .define l t (← rules.command ())
  | none => fail "Bad function name"

/-- The words and redirections of a command read on. -/
def readSimple (rules : Rules) (l : Nat) : Nat → Simple → Reader Node
  | 0, c => pure (.simple l c.assignments c.words c.redirections)
  | n + 1, c => do
    expect false false c.words.isEmpty
    match ← take rules with
    | .word =>
      let w := (← get).word
      if c.words.isEmpty && w.isAssignment then
        readSimple rules l n { c with assignments := c.assignments ++ [w] }
      else readSimple rules l n { c with words := c.words ++ [w] }
    | .redirection =>
      let r ← readRedirection rules
      readSimple rules l n { c with redirections := c.redirections ++ [r] }
    | .openParen =>
      match c.assignments, c.words, c.redirections with
      | [], [name], [] => readFunction rules name
      | _, _, _ =>
        putBack
        return .simple l c.assignments c.words c.redirections
    | _ =>
      putBack
      return .simple l c.assignments c.words c.redirections

/-- Words as far as there are any. -/
def readWords (rules : Rules) : Nat → List Word → Reader (List Word)
  | 0, ws => pure ws
  | n + 1, ws => do
    if (← take rules) = .word then readWords rules n (ws ++ [(← get).word])
    else return ws

/-- Commands up to the word that ends them. There are none only where the script is over, and then that word is
missed. -/
def block (rules : Rules) : Reader Node := do
  return (← rules.commands .block).getD (.simple 0 [] [] [])

/-- A choice behind its first word. -/
def readChoice (rules : Rules) : Nat → Reader Node
  | 0 => unexpected
  | n + 1 => do
    let test ← block rules
    demand rules (keyword "then")
    let yes ← block rules
    match ← take rules with
    | .keyword ['e', 'l', 'i', 'f'] => return .choice test yes (some (← readChoice rules n))
    | .keyword ['e', 'l', 's', 'e'] => return .choice test yes (some (← block rules))
    | _ =>
      putBack
      return .choice test yes none

/-- The word that stands for all parameters. -/
def allParameters : Word := [.quote, .parameter ['@'] .value false [], .quote]

/-- A loop over words behind its first word. -/
def readEach (rules : Rules) (l : Nat) : Reader Node := do
  let first ← take rules
  let r ← get
  match first, r.quoted, r.word.plain? with
  | .word, false, some name =>
    if !Raw.isName name then fail "Bad for loop variable"
    expect true true true
    let second ← take rules
    let words ← if second = keyword "in" then do
        let ws ← readWords rules endless []
        let last := (← get).last
        if last ≠ .newline ∧ last ≠ .semicolon then unexpected
        pure ws
      else do
        if second ≠ .semicolon then putBack
        pure [allParameters]
    expect true true true
    demand rules (keyword "do")
    return .each l name words (← block rules)
  | _, _, _ => fail "Bad for loop variable"

/-- The patterns of a case from its first on, and the parenthesis behind them. -/
def readPatterns (rules : Rules) : Nat → List Word → Reader (List Word)
  | 0, ws => pure ws
  | n + 1, ws => do
    let ws := ws ++ [(← get).word]
    match ← take rules with
    | .pipe =>
      let _ ← take rules
      readPatterns rules n ws
    | .closeParen => return ws
    | _ => unexpected (some .closeParen)

/-- The cases of a selection. -/
def readCases (rules : Rules) : Nat → List (List Word × Option Node) → Reader (List (List Word × Option Node))
  | 0, cs => pure cs
  | n + 1, cs => do
    expect true true false
    let l ← take rules
    if l = keyword "esac" then return cs
    if l = .openParen then
      let _ ← take rules
    let patterns ← readPatterns rules endless []
    let body ← rules.commands .rest
    let cs := cs ++ [(patterns, body)]
    expect true true false
    let l ← take rules
    if l = keyword "esac" then return cs
    if l ≠ .endCase then unexpected (some .endCase)
    readCases rules n cs

/-- A selection behind its first word. -/
def readSelection (rules : Rules) (l : Nat) : Reader Node := do
  demand rules .word
  let word := (← get).word
  expect true true true
  demand rules (keyword "in")
  return .select l word (← readCases rules endless [])

/-- A command, and the redirections behind it. -/
def redirected (rules : Rules) (l : Nat) (n : Node) : Reader Node := do
  expect false true true
  match ← readRedirections rules endless [] with
  | [] => return n
  | rs =>
    match n with
    | .subshell l body _ => return .subshell l body rs
    | n => return .redirected l n rs

/-- A command with commands inside, and the word that ends it. -/
def closed (rules : Rules) (l : Nat) (n : Node) (last : Lexeme) : Reader Node := do
  demand rules last
  redirected rules l n

/-- **A command.** -/
def readCommand (rules : Rules) : Reader Node := do
  let l ← line
  match ← take rules with
  | .word | .redirection =>
    putBack
    readSimple rules (← line) endless {}
  | .openParen => closed rules l (.subshell l (← block rules) []) .closeParen
  | .keyword k =>
    if k = "if" then closed rules l (← readChoice rules endless) (keyword "fi")
    else if k = "while" || k = "until" then
      let test ← block rules
      demand rules (keyword "do")
      closed rules l (.loop (k = "until") test (← block rules)) (keyword "done")
    else if k = "for" then closed rules l (← readEach rules l) (keyword "done")
    else if k = "case" then redirected rules l (← readSelection rules l)
    else if k = "\x7b" then closed rules l (← block rules) (keyword "\x7d")
    else unexpected
  | _ => unexpected

/-! ### Lists -/

/-- The commands of a pipeline behind its first. -/
def readStages (rules : Rules) : Nat → List Node → Reader (List Node)
  | 0, ns => pure ns
  | n + 1, ns => do
    expect true true true
    let ns := ns ++ [← rules.command ()]
    if (← take rules) = .pipe then readStages rules n ns else return ns

/-- A command, or commands of which each reads what the one before writes. -/
def readPipeline (rules : Rules) : Reader Node := do
  let negated := (← take rules) = keyword "!"
  if negated then expect false true true else putBack
  let first ← rules.command ()
  let n ← if (← take rules) = .pipe then do
      let stages ← readStages rules endless [first]
      pure (Node.pipeline stages false)
    else pure first
  putBack
  return if negated then .negation n else n

/-- Commands of which each depends on the success of those before. -/
def readChain (rules : Rules) : Nat → Node → Reader Node
  | 0, n => pure n
  | k + 1, n => do
    let l ← take rules
    if l = .both ∨ l = .either then
      expect true true true
      let next ← readPipeline rules
      readChain rules k (if l = .both then .both n next else .either n next)
    else
      putBack
      return n

/-- A command that is not waited for. -/
def inBackground : Node → Node
  | .pipeline stages _ => .pipeline stages true
  | .redirected l n rs => .background l n rs
  | n => .background 0 n []

/-- Commands one after the other. -/
def readList (rules : Rules) (e : Extent) : Nat → Option Node → Reader (Option Node)
  | 0, before => pure before
  | k + 1, before => do
    expect (e ≠ .line) true true
    let l ← take rules
    if l = .newline then
      readDocuments (inWord rules)
      return before
    else if l = .finish then
      readDocuments (inWord rules)
      modify fun r => { r with again := true, last := .finish }
      return before
    else
      putBack
      if (e = .rest ∨ (e = .block ∧ before.isSome)) ∧ l.endsCommands then return before
      let n ← readChain rules endless (← readPipeline rules)
      let l ← take rules
      let n := if l = .ampersand then inBackground n else n
      let n := match before with
        | some b => .sequence b n
        | none => n
      if l = .newline ∨ l = .finish then
        putBack
        readList rules e k (some n)
      else if l = .ampersand ∨ l = .semicolon then readList rules e k (some n)
      else
        if e = .line then unexpected
        putBack
        return some n

/-- The rules to a depth. -/
def rules : Nat → Rules
  | 0 => ⟨fun _ => unexpected, fun _ => unexpected⟩
  | n + 1 => ⟨fun e => readList ⟨fun e r => (rules n).commands e r, fun _ r => (rules n).command () r⟩ e endless none,
      fun _ => readCommand ⟨fun e r => (rules n).commands e r, fun _ r => (rules n).command () r⟩⟩

end Reader

/-! ### Reading a script -/

/-- What comes of reading the next line of a script. -/
inductive Line where
  /-- A command, or nothing if the line is blank; whether it was the last line. -/
  | command (n : Option Node) (isLast : Bool)
  /-- The script is over. -/
  | finish
  /-- The next portion of the script has to come first. -/
  | more
  | wrong (line : Nat) (message : Raw)

/-- The next line of a script, and what was read with it. -/
structure ReadLine where
  line : Line
  source : Source
  documents : List (Nat × Document)
  nextDocument : Nat

/-- **The next line of a script.** -/
def Source.readLine (s : Source) (aliases : List (Raw × Raw)) (nextDocument : Nat) : ReadLine :=
  let r : Reading := { source := s, aliases := aliases, nextDocument := nextDocument }
  match ((Reader.rules Reader.endless).commands .line).run r with
  | .ok n r =>
    let atEnd := r.again && r.last = .finish
    ⟨match n, atEnd with
      | none, true => .finish
      | n, atEnd => .command n atEnd, r.source, r.documents, r.nextDocument⟩
  | .error .more r => ⟨.more, r.source, r.documents, r.nextDocument⟩
  | .error (.wrong l m) r => ⟨.wrong l m, r.source, r.documents, r.nextDocument⟩

/-- A text as a word that stands between double quotes; nothing if it cannot be read. -/
def Source.readText (s : Source) (aliases : List (Raw × Raw)) : Except (Nat × Raw) Word :=
  let commands := Reader.inWord (Reader.rules Reader.endless)
  let read : Reader Word := do
    let _ ← Reader.readWord commands .double { isText := true } (← Reader.joined)
    return (← get).word
  match read.run { source := s, aliases := aliases } with
  | .ok w _ => .ok w
  | .error (.wrong l m) _ => .error (l, m)
  | .error .more _ => .ok []

end BuildMender.Host
