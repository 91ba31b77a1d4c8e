import BuildMender.Host.Job

/-!
# Echo

`echo` prints its words with single spaces between them and a line feed behind them, and reads escapes
in them if it is told to. Words in front that spell nothing but its options are options.
-/

namespace BuildMender.Host.Echo

/-- How echo is to print. -/
structure Manner where
  escapes : Bool := false
  ending : Bool := true
deriving DecidableEq, Inhabited

/-- One option. -/
def Manner.set (m : Manner) (c : Char) : Manner :=
  if c = 'e' then { m with escapes := true }
  else if c = 'E' then { m with escapes := false }
  else { m with ending := false }

/-- The options in front of some words, and the words after them. -/
def read (m : Manner) : List Raw → Manner × List Raw
  | ('-' :: c :: cs) :: more =>
    if (c :: cs).all fun c => c = 'e' || c = 'E' || c = 'n' then
      read ((c :: cs).foldl Manner.set m) more
    else (m, ('-' :: c :: cs) :: more)
  | ws => (m, ws)

/-- The value of an octal digit. -/
def octal? (c : Char) : Option Nat := if '0' ≤ c ∧ c ≤ '7' then some (c.toNat - 48) else none

/-- The value of a hexadecimal digit. -/
def hex? (c : Char) : Option Nat :=
  if Raw.isDigit c then some (c.toNat - 48)
  else if 'a' ≤ Raw.small c ∧ Raw.small c ≤ 'f' then some ((Raw.small c).toNat - 87)
  else none

/-- At most so many digits read on from a value, and the text after them. -/
def digits (base : Nat) (digit? : Char → Option Nat) : Nat → Nat → Raw → Nat × Raw
  | 0, value, t => (value, t)
  | _ + 1, value, [] => (value, [])
  | n + 1, value, c :: cs =>
    match digit? c with
    | some d => digits base digit? n (base * value + d) cs
    | none => (value, c :: cs)

/-- The characters with an escape of one letter. -/
def letters : List (Char × Nat) :=
  [('a', 7), ('b', 8), ('e', 27), ('f', 12), ('n', 10), ('r', 13), ('t', 9), ('v', 11), ('\\', 92)]

/-- The character of a byte whose value may be too large. -/
def byte (n : Nat) : Char := Char.ofNat (n % 256)

/-- The text of an escape behind its backslash, and the text after it; nothing if the printing ends
there. -/
def escape? : Raw → Option (Raw × Raw)
  | [] => some (['\\'], [])
  | 'c' :: _ => none
  | '0' :: cs =>
    let (n, cs) := digits 8 octal? 3 0 cs
    some ([byte n], cs)
  | 'x' :: cs =>
    match cs.head?.bind hex? with
    | none => some (['\\', 'x'], cs)
    | some _ =>
      let (n, cs) := digits 16 hex? 2 0 cs
      some ([byte n], cs)
  | c :: cs =>
    match letters.lookup c with
    | some n => some ([Char.ofNat n], cs)
    | none =>
      match octal? c with
      | none => some (['\\', c], cs)
      | some _ =>
        let (n, cs) := digits 8 octal? 3 0 (c :: cs)
        some ([byte n], cs)

/-- A word with its escapes read, and whether the printing ends there. -/
def unescape : Nat → Raw → Raw × Bool
  | 0, t => (t, false)
  | _, [] => ([], false)
  | n + 1, c :: cs =>
    if c = '\\' then
      match escape? cs with
      | none => ([], true)
      | some (t, cs) =>
        let r := unescape n cs
        (t ++ r.1, r.2)
    else
      let r := unescape n cs
      (c :: r.1, r.2)

/-- Words with their escapes read and spaces between them, and whether the printing ends there. -/
def unescapeAll : List Raw → Raw × Bool
  | [] => ([], false)
  | [w] => unescape w.length w
  | w :: ws =>
    match unescape w.length w with
    | (t, true) => (t, true)
    | (t, false) =>
      let r := unescapeAll ws
      (t ++ ' ' :: r.1, r.2)

/-- What is printed. -/
def output (words : List Raw) : Raw :=
  let (m, ws) := read {} words
  let (t, ended) := if m.escapes then unescapeAll ws else (Text.join [' '] ws, false)
  t ++ if m.ending && !ended then ['\n'] else []

/-- **The program.** -/
def image : Image := Job.task 1 fun words => Job.print (output words)

end BuildMender.Host.Echo
