import BuildMender.Host.Interrupt
import BuildMender.Host.Shell.Variable

/-!
# Sums

A script can do sums with whole numbers of 64 bits: `$((i + 1))`. Names stand for the values of variables,
which `=` and its kin set. A sum is carried out while it is read, so that whichever comes first is the
fault that counts, a wrong sign or a division by zero. What stands behind `&&`, `||` or `?` and does not
matter is read but not carried out (`idle`).
-/

namespace BuildMender.Host.Sum

/-! ### Lexemes -/

/-- A lexeme of a sum. -/
inductive Token where
  | number (n : Int)
  | name (t : Raw)
  | sign (t : Raw)
  /-- What no sum has. -/
  | bad
deriving DecidableEq, Inhabited

/-- The signs, a longer one before those it starts with. -/
def signs : List Text :=
  Text.split (· = ' ') ("<<= >>= << >> <= >= == != && || += -= *= /= %= &= |= ^= " ++
    "< > = ! & | + - * / % ^ ~ ? : ( )" : String).toList

/-- The number of digits that may be too many for 64 bits. -/
def clamp (n : Nat) : Int := min n (Numeral.bound - 1)

/-- The lexemes of a text of at most so many characters. -/
def tokensOf : Nat → Raw → List Token
  | 0, _ => []
  | _, [] => []
  | n + 1, c :: cs =>
    if c = ' ' ∨ c = '\t' ∨ c = '\n' then tokensOf n cs
    else if Raw.isNameStart c then
      .name ((c :: cs).takeWhile Raw.isNameChar) :: tokensOf n ((c :: cs).dropWhile Raw.isNameChar)
    else
      match if Raw.isDigit c then Numeral.natural? (c :: cs) else none with
      | some (v, rest) => .number (clamp v) :: tokensOf n rest
      | none =>
        match signs.findSome? fun s => (Text.after? s (c :: cs)).map fun rest => (s, rest) with
        | some (s, rest) => .sign s :: tokensOf n rest
        | none => [.bad]

/-- The lexemes of a text. -/
def tokens (t : Raw) : List Token := tokensOf t.length t

/-! ### Operators -/

/-- The operators between two numbers that bind alike, those that bind most first. -/
def levels : List (List Text) :=
  [["*", "/", "%"], ["+", "-"], ["<<", ">>"], ["<", "<=", ">", ">="], ["==", "!="], ["&"], ["^"], ["|"]]

/-- How little an operator binds. -/
def rank? (t : Token) : Option Nat :=
  match t with
  | .sign s => levels.findIdx? fun l => l.contains s
  | _ => none

/-- The operators that change a variable, and what they do with its value. -/
def changes : List (Text × Option Text) :=
  ("=", none) :: (Text.split (· = ' ') ("+ - * / % & | ^ << >>" : String).toList).map fun o =>
    (o ++ ['='], some o)

/-- A number kept within 64 bits. -/
def wrap (n : Int) : Int := n.bmod Text.bound64

/-- The truth of a condition as a number. -/
def truth (b : Bool) : Int := if b then 1 else 0

/-- A number as 64 bits without a sign. -/
def bits (n : Int) : Nat := (n % Text.bound64).toNat

/-- What comes of an operator. -/
inductive Result where
  | number (n : Int)
  | divisionByZero
  /-- The machine cannot do it. -/
  | overflow
deriving DecidableEq, Inhabited

/-- What an operator makes of two numbers. -/
def combine (operator : Text) (a b : Int) : Result :=
  if operator = "/" ∨ operator = "%" then
    if b = 0 then .divisionByZero
    else if a = -Numeral.bound ∧ b = -1 then .overflow
    else .number (if operator = "/" then a.tdiv b else a.tmod b)
  else .number <|
    if operator = "+" then wrap (a + b)
    else if operator = "-" then wrap (a - b)
    else if operator = "*" then wrap (a * b)
    else if operator = "<<" then wrap (a * Nat.pow 2 (bits b % 64))
    else if operator = ">>" then a / Nat.pow 2 (bits b % 64)
    else if operator = "&" then wrap (bits a &&& bits b)
    else if operator = "|" then wrap (bits a ||| bits b)
    else if operator = "^" then wrap (bits a ^^^ bits b)
    else if operator = "==" then truth (a = b)
    else if operator = "!=" then truth (a ≠ b)
    else if operator = "<=" then truth (a ≤ b)
    else if operator = ">=" then truth (b ≤ a)
    else if operator = "<" then truth (a < b)
    else truth (b < a)

/-! ### Carrying out -/

/-- A sum that is being read and carried out: its value, and what comes after it. -/
abbrev Reckoning := List Token → Sh (Int × List Token)

/-- What is wrong with a sum. -/
def complain {α : Type} (source : Raw) (t : Raw) : Sh α :=
  Sh.fail ("arithmetic expression: " ++ t ++ ": \"" ++ source ++ ['"'])

/-- What an operator makes of two numbers, unless it is idle. -/
def operate (source : Raw) (idle : Bool) (operator : Text) (a b : Int) : Sh Int :=
  if idle then pure b
  else
    match combine operator a b with
    | .number n => pure n
    | .divisionByZero => complain source "division by zero"
    | .overflow => do
      let (self, _) ← Sh.ask .identity
      let _ ← Sh.ask (.kill self Interrupt.overflow)
      pure 0

/-- The number that the value of a variable is. -/
def valueOf (name : Raw) : Sh Int := do
  let t := ((← Sh.value? name).getD [])
  match Numeral.whole? true t with
  | some n => return n
  | none => Sh.fail ("Illegal number: " ++ t)

mutual

/-- A sum, which may set a variable. -/
def sum (source : Raw) (idle : Bool) : Nat → Reckoning
  | 0, ts => pure (0, ts)
  | n + 1, ts =>
    match ts with
    | .name x :: .sign s :: rest =>
      match changes.lookup s with
      | none => choice source idle n ts
      | some operator => do
        let (b, rest) ← sum source idle n rest
        if idle then return (b, rest)
        let v ← match operator with
          | none => pure b
          | some o => do operate source false o (← valueOf x) b
        Sh.assign x (some (Text.integer v))
        return (v, rest)
    | _ => choice source idle n ts

/-- A sum that chooses between two others, or the like. -/
def choice (source : Raw) (idle : Bool) : Nat → Reckoning
  | 0, ts => pure (0, ts)
  | n + 1, ts => do
    let (a, rest) ← either source idle n ts
    match rest with
    | .sign ['?'] :: rest =>
      let (b, rest) ← sum source (idle || a = 0) n rest
      match rest with
      | .sign [':'] :: rest =>
        let (c, rest) ← choice source (idle || a ≠ 0) n rest
        return (if a ≠ 0 then b else c, rest)
      | _ => complain source "expecting ':'"
    | rest => return (a, rest)

/-- Sums of which one is not zero. -/
def either (source : Raw) (idle : Bool) : Nat → Reckoning
  | 0, ts => pure (0, ts)
  | n + 1, ts => do
    let (a, rest) ← both source idle n ts
    match rest with
    | .sign ['|', '|'] :: rest =>
      let (b, rest) ← either source (idle || a ≠ 0) n rest
      return (truth (a ≠ 0 ∨ b ≠ 0), rest)
    | rest => return (a, rest)

/-- Sums that are all not zero. -/
def both (source : Raw) (idle : Bool) : Nat → Reckoning
  | 0, ts => pure (0, ts)
  | n + 1, ts => do
    let (a, rest) ← primary source idle n ts
    let (a, rest) ← match rest with
      | o :: _ => if (rank? o).isSome then combined source idle n a levels.length rest else pure (a, rest)
      | [] => pure (a, rest)
    match rest with
    | .sign ['&', '&'] :: rest =>
      let (b, rest) ← both source (idle || a = 0) n rest
      return (truth (a ≠ 0 ∧ b ≠ 0), rest)
    | rest => return (a, rest)

/-- Numbers combined by operators that bind more than a level. -/
def combined (source : Raw) (idle : Bool) : Nat → Int → Nat → Reckoning
  | 0, a, _, ts => pure (a, ts)
  | n + 1, a, level, ts =>
    match ts with
    | .sign o :: rest => do
      let r := (rank? (.sign o)).getD 0
      let (b, rest) ← primary source idle n rest
      let (b, rest) ← match rest.head?.bind rank? with
        | some r' => if r' < r then combined source idle n b r rest else pure (b, rest)
        | none => pure (b, rest)
      let a ← operate source idle o a b
      match rest.head?.bind rank? with
      | some r' => if r' < level then combined source idle n a level rest else return (a, rest)
      | none => return (a, rest)
    | ts => pure (a, ts)

/-- A number, a name, a sum in parentheses, or one of these with signs in front. -/
def primary (source : Raw) (idle : Bool) : Nat → Reckoning
  | 0, ts => pure (0, ts)
  | n + 1, ts =>
    match ts with
    | .number v :: rest => pure (v, rest)
    | .name x :: rest => do
      if idle then return (0, rest)
      return (← valueOf x, rest)
    | .sign s :: rest => do
      if s = "(" then
        let (a, rest) ← sum source idle n rest
        match rest with
        | .sign [')'] :: rest => return (a, rest)
        | _ => complain source "expecting ')'"
      else if s = "+" then primary source idle n rest
      else if s = "-" then
        let (a, rest) ← primary source idle n rest
        return (wrap (-a), rest)
      else if s = "!" then
        let (a, rest) ← primary source idle n rest
        return (truth (a = 0), rest)
      else if s = "~" then
        let (a, rest) ← primary source idle n rest
        return (-a - 1, rest)
      else complain source "expecting primary"
    | _ => complain source "expecting primary"

end

/-- **The value of a sum.** -/
def value (source : Raw) : Sh Int := do
  let (v, rest) ← sum source false Act.forever (tokens source)
  if rest.isEmpty then return v else complain source "expecting EOF"

end BuildMender.Host.Sum
