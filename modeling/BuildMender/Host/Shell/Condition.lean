import BuildMender.Host.Shell.Variable

/-!
# Conditions

`test` and `[` ask questions about texts, numbers and files, and join them by `-a`, `-o`, `!` and
parentheses. The one thing to know is that an operator is not always one: where what stands behind it could
not be asked about, it is a text like any other, and a text is a condition by itself.

A condition is answered while it is read, and all of it is read, also where the answer is clear before.
The words that are left are always those from the last one that was read (`Answer`).
-/

namespace BuildMender.Host.Condition

/-- The operators with one operand. -/
def questions : List Text :=
  Text.split (· = ' ') ("-r -w -x -e -f -d -c -b -p -u -g -k -s -t -z -n -h -O -G -L -S" : String).toList

/-- The operators between two operands. -/
def comparisons : List Text :=
  Text.split (· = ' ') ("= != < > -eq -ne -ge -gt -le -lt -nt -ot -ef" : String).toList

/-- The signs that join conditions. -/
def joints : List Text := ["!", "-a", "-o", "(", ")"]

/-- Whether an operator with one operand has to be a text, by the words behind it. -/
def standsAlone : List Raw → Bool
  | [] => true
  | [_] => false
  | t :: _ => comparisons.contains t

/-- What words begin with. -/
inductive Start where
  | finish
  | text
  | operator (t : Raw)
deriving DecidableEq, Inhabited

/-- What words begin with. -/
def start : List Raw → Start
  | [] => .finish
  | t :: more =>
    if questions.contains t then (if standsAlone more then .text else .operator t)
    else if comparisons.contains t then .operator t
    else if joints.contains t && !(t = ['('] ∧ more.isEmpty) then .operator t
    else .text

/-- Whether words begin with a sign. -/
def startsWith (sign : String) (ws : List Raw) : Bool := start ws = .operator sign.toList

/-- An answer, and the words from the last one that was read. -/
abbrev Answer := Bool × List Raw

/-! ### Questions -/

/-- The number that a text is. -/
def number (t : Raw) : Sh Int :=
  match Numeral.whole? false t with
  | some n => pure n
  | none => Sh.fail ("Illegal number: " ++ t)

/-- What a file must be for the answer to a question about it. -/
def isTrueOf (operator : Raw) (s : FileStatus) : Bool :=
  match operator with
  | ['-', c] =>
    if "erwOG".toList.contains c then true
    else if c = 'f' then s.kind == .file
    else if c = 'd' then s.kind == .directory
    else if c = 'c' then s.kind == .device
    else if c = 'p' then s.kind == .pipe
    else if c = 's' then 0 < s.size
    else if c = 'x' then s.kind == .directory || s.executable
    else false
  | _ => false

/-- The answer to a question about a text, or about the file of that name. -/
def ask (operator t : Raw) : Sh Bool := do
  if operator = "-n".toList then return !t.isEmpty
  else if operator = "-z".toList then return t.isEmpty
  else if operator = "-t".toList then
    let _ ← number t
    return false
  else
    match ← Sh.ask (.status t) with
    | .ok s => return isTrueOf operator s
    | .error _ => return false

/-- The answer to a question about two files. -/
def compareFiles (operator a b : Raw) : Sh Bool := do
  match ← Sh.ask (.status a), ← Sh.ask (.status b) with
  | .ok p, .ok q =>
    return if operator = "-nt".toList then q.changed < p.changed
      else if operator = "-ot".toList then p.changed < q.changed
      else p.identity == q.identity
  | _, _ => return false

/-- The answer to a comparison. -/
def compare (operator a b : Raw) : Sh Bool := do
  if operator = ['='] then return a == b
  else if operator = "!=".toList then return a != b
  else if operator = ['<'] then return Raw.before a b
  else if operator = ['>'] then return Raw.before b a
  else if operator = "-nt".toList ∨ operator = "-ot".toList ∨ operator = "-ef".toList then
    compareFiles operator a b
  else
    let m ← number a
    let n ← number b
    return if operator = "-eq".toList then m = n
      else if operator = "-ne".toList then m ≠ n
      else if operator = "-ge".toList then n ≤ m
      else if operator = "-gt".toList then n < m
      else if operator = "-le".toList then m ≤ n
      else m < n

/-! ### Conditions -/

/-- The end where a word is wrong. -/
def wrong {α : Type} (word message : Raw) : Sh α :=
  Sh.fail (if word.isEmpty then message else word ++ ": " ++ message)

/-- A text, or a comparison that begins with it. -/
def answerText : List Raw → Sh Answer
  | [] => pure (false, [])
  | a :: more => do
    match more with
    | operator :: rest =>
      if comparisons.contains operator then
        match rest with
        | [] => wrong operator "argument expected"
        | b :: _ => return (← compare operator a b, rest)
      else return (!a.isEmpty, a :: more)
    | [] => return (!a.isEmpty, a :: more)

mutual

/-- Conditions of which one has to hold. -/
def answerEither : Nat → Start → List Raw → Sh Answer
  | 0, _, ws => pure (false, ws)
  | n + 1, first, ws => do
    let (a, ws) ← answerBoth n first ws
    if startsWith "-o" ws.tail then
      let (b, ws) ← answerEither n (start (ws.drop 2)) (ws.drop 2)
      return (a || b, ws)
    else return (a, ws)

/-- Conditions that all have to hold. -/
def answerBoth : Nat → Start → List Raw → Sh Answer
  | 0, _, ws => pure (false, ws)
  | n + 1, first, ws => do
    let (a, ws) ← answerNot n first ws
    if startsWith "-a" ws.tail then
      let (b, ws) ← answerBoth n (start (ws.drop 2)) (ws.drop 2)
      return (a && b, ws)
    else return (a, ws)

/-- A condition, perhaps turned round. -/
def answerNot : Nat → Start → List Raw → Sh Answer
  | 0, _, ws => pure (false, ws)
  | n + 1, first, ws => do
    if first = .operator ['!'] then
      let (a, ws) ← answerNot n (start ws.tail) (if ws.tail.isEmpty then ws else ws.tail)
      return (!a, ws)
    else answerOne n first ws

/-- A question, a text, a comparison, or a condition in parentheses. -/
def answerOne : Nat → Start → List Raw → Sh Answer
  | 0, _, ws => pure (false, ws)
  | n + 1, first, ws =>
    match first with
    | .finish => pure (false, ws)
    | .text => answerText ws
    | .operator operator => do
      if operator = ['('] then
        if startsWith ")" ws.tail then return (false, ws.tail)
        let (a, ws) ← answerEither n (start ws.tail) ws.tail
        if startsWith ")" ws.tail then return (a, ws.tail)
        else wrong [] "closing paren expected"
      else if questions.contains operator then
        match ws.tail with
        | [] => wrong operator "argument expected"
        | t :: rest => return (← ask operator t, t :: rest)
      else answerText ws

end

/-- The answer to all words. A comparison in the middle of three words decides. -/
def answerAll (ws : List Raw) : Sh Bool := do
  let plain := match ws with
    | [_, operator, _] => comparisons.contains operator
    | _ => false
  let (a, rest) ← answerEither Act.forever (if plain then .text else start ws) ws
  match rest with
  | w :: _ :: _ => wrong w "unexpected operator"
  | _ => return a

/-- **Whether words are a condition that holds.** -/
def holds : List Raw → Sh Bool
  | [] => pure false
  | w :: ws => do
    let all := w :: ws
    let closed := w = ['('] ∧ all.getLast? = some [')']
    match all with
    | [_, operator, _] =>
      if comparisons.contains operator then answerAll all
      else if closed then answerAll ws.dropLast
      else if w = ['!'] then return !(← holds ws)
      else answerAll all
    | [_, _, _, _] =>
      if closed then answerAll ws.dropLast
      else if w = ['!'] then return !(← holds ws)
      else answerAll all
    | _ => answerAll all

end BuildMender.Host.Condition
