import BuildMender.Json

/-!
# Reading JSON

`Json.parse` reads a text that holds one value and nothing else but white space around it. White space
is space, tab, line feed and carriage return; a control character inside a string has to be escaped;
a number has no leading zeros. Nesting is limited by nothing but the length of the text, which is the
fuel of the reader.

A string with half of a surrogate pair is `unreadable`, and so is an object with such a string for a
name, and a number that is no integer or is written `-0`.
-/

namespace BuildMender.Json

open Text

/-! ### Tokens -/

/-- White space between tokens. -/
def isSpace (c : Char) : Bool := c = ' ' || c = '\t' || c = '\n' || c = '\r'

/-- The text without white space in front. -/
def skipSpace (t : Text) : Text := t.dropWhile isSpace

/-- The value of a hexadecimal digit. -/
def hexValue? (c : Char) : Option Nat :=
  if '0' ≤ c ∧ c ≤ '9' then some (c.toNat - 48)
  else if 'a' ≤ c ∧ c ≤ 'f' then some (c.toNat - 87)
  else if 'A' ≤ c ∧ c ≤ 'F' then some (c.toNat - 55)
  else none

/-- The value of four hexadecimal digits. -/
def unit? (a b c d : Char) : Option Nat := do
  return (← hexValue? a) * 4096 + (← hexValue? b) * 256 + (← hexValue? c) * 16 + (← hexValue? d)

/-- The character of an escape of two characters. A slash may be escaped, and is never written so. -/
def shortEscape? (letter : Char) : Option Char :=
  if letter = '/' then some '/' else (shortEscapes.find? fun e => e.2 = letter).map Prod.fst

/-- Whether a unit is the first half of a surrogate pair. -/
def isHigh (n : Nat) : Bool := 0xd800 ≤ n && n < 0xdc00

/-- Whether a unit is the second half of a surrogate pair. -/
def isLow (n : Nat) : Bool := 0xdc00 ≤ n && n < 0xe000

/-- The character of a surrogate pair. -/
def ofPair (high low : Nat) : Char := Char.ofNat (0x10000 + (high - 0xd800) * 1024 + (low - 0xdc00))

/-- A piece of a string: a unit written as an escape, or a character. -/
inductive Piece where
  | unit (n : Nat)
  | char (c : Char)

/-- The pieces of a string after its opening quote, and the text after its closing quote. -/
def pieces? : Text → Option (List Piece × Text)
  | [] => none
  | '"' :: rest => some ([], rest)
  | '\\' :: 'u' :: a :: b :: c :: d :: rest => do
    let n ← unit? a b c d
    let (ps, rest) ← pieces? rest
    return (.unit n :: ps, rest)
  | '\\' :: e :: rest => do
    let c ← shortEscape? e
    let (ps, rest) ← pieces? rest
    return (.char c :: ps, rest)
  | c :: rest => do
    if c.toNat < 32 ∨ c = '\\' then none
    else
      let (ps, rest) ← pieces? rest
      return (.char c :: ps, rest)

/-- The text of some pieces, unless half of a surrogate pair stands alone. -/
def textOf? : List Piece → Option Text
  | [] => some []
  | .char c :: ps => (textOf? ps).map (c :: ·)
  | .unit n :: ps =>
    if isHigh n then
      match ps with
      | .unit m :: qs => if isLow m then (textOf? qs).map (ofPair n m :: ·) else none
      | _ => none
    else if isLow n then none
    else (textOf? ps).map (Char.ofNat n :: ·)

/-- A run of ASCII digits and the text after it. -/
def digitRun (t : Text) : Text × Text := (t.takeWhile isAsciiDigit, t.dropWhile isAsciiDigit)

/-- The fraction of a number, if there is one: whether there is, and the text after it. -/
def fraction? (t : Text) : Option (Bool × Text) :=
  match t with
  | '.' :: rest =>
    let (digits, rest) := digitRun rest
    if digits.isEmpty then none else some (true, rest)
  | _ => some (false, t)

/-- The exponent of a number, if there is one: whether there is, and the text after it. -/
def exponent? (t : Text) : Option (Bool × Text) :=
  match t with
  | c :: rest =>
    if c = 'e' ∨ c = 'E' then
      let rest := match rest with
        | s :: more => if s = '+' ∨ s = '-' then more else rest
        | [] => rest
      let (digits, rest) := digitRun rest
      if digits.isEmpty then none else some (true, rest)
    else some (false, t)
  | [] => some (false, t)

/-- The number of a run of digits with its sign; a negative zero is not an integer. -/
def integerOf (negative : Bool) (digits : Text) : Json :=
  match digitsFrom 0 digits with
  | none => .unreadable
  | some n => if negative then (if n = 0 then .unreadable else .number (-n)) else .number n

/-- A number at the front of a text. -/
def number? (t : Text) : Option (Json × Text) := do
  let (negative, t) := match t with
    | '-' :: rest => (true, rest)
    | _ => (false, t)
  let (digits, t) := digitRun t
  if digits.isEmpty ∨ (digits.head? = some '0' ∧ digits.length ≠ 1) then none
  else
    let (fraction, t) ← fraction? t
    let (exponent, t) ← exponent? t
    return (if fraction || exponent then .unreadable else integerOf negative digits, t)

/-! ### Values -/

/-- An object, unless a name in it is unreadable. -/
def ofNamed (fields : List (Option Text × Json)) : Json :=
  match fields.mapM fun f => f.1.map fun n => (n, f.2) with
  | some fs => .object fs
  | none => .unreadable

mutual

/-- A value at the front of a text, and the text after it. -/
def value? : Nat → Text → Option (Json × Text)
  | 0, _ => none
  | fuel + 1, t =>
    match skipSpace t with
    | '"' :: rest => (pieces? rest).map fun (ps, r) =>
        (((textOf? ps).map .string).getD .unreadable, r)
    | '[' :: rest =>
      match skipSpace rest with
      | ']' :: rest => some (.array [], rest)
      | rest => (items? fuel rest).map fun (js, r) => (.array js, r)
    | '\x7b' :: rest =>
      match skipSpace rest with
      | '\x7d' :: rest => some (.object [], rest)
      | rest => (fields? fuel rest).map fun (fs, r) => (ofNamed fs, r)
    | t =>
      match after? "null" t, after? "true" t, after? "false" t with
      | some r, _, _ => some (.null, r)
      | _, some r, _ => some (.bool true, r)
      | _, _, some r => some (.bool false, r)
      | _, _, _ => number? t

/-- The items of an array up to its closing bracket. -/
def items? : Nat → Text → Option (List Json × Text)
  | 0, _ => none
  | fuel + 1, t => do
    let (j, t) ← value? fuel t
    match skipSpace t with
    | ']' :: rest => return ([j], rest)
    | ',' :: rest =>
      let (js, rest) ← items? fuel rest
      return (j :: js, rest)
    | _ => none

/-- The fields of an object up to its closing brace. -/
def fields? : Nat → Text → Option (List (Option Text × Json) × Text)
  | 0, _ => none
  | fuel + 1, t =>
    match skipSpace t with
    | '"' :: rest => do
      let (ps, t) ← pieces? rest
      match skipSpace t with
      | ':' :: t =>
        let (j, t) ← value? fuel t
        let field := (textOf? ps, j)
        match skipSpace t with
        | '\x7d' :: rest => return ([field], rest)
        | ',' :: rest =>
          let (fs, rest) ← fields? fuel rest
          return (field :: fs, rest)
        | _ => none
      | _ => none
    | _ => none

end

/-- **The value a text holds.** -/
def parse (t : Text) : Option Json :=
  match value? (2 * t.length + 2) t with
  | some (j, rest) => if (skipSpace rest).isEmpty then some j else none
  | none => none

end BuildMender.Json
