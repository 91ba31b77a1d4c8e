import BuildMender.Host.Raw

/-!
# Numerals

Commands read whole numbers from texts. Blanks and a sign may stand in front. In some places a number is
in base 10; in others its beginning tells the base: `0x` for 16, `0b` for 2, another zero for 8.
-/

namespace BuildMender.Host.Numeral

/-- The value of a digit; letters stand for digits from ten on. -/
def digit? (c : Char) : Option Nat :=
  if Raw.isDigit c then some (c.toNat - 48)
  else if Raw.isLetter c then some ((Raw.small c).toNat - 87)
  else none

/-- Whether a character is a digit in a base. -/
def isDigitIn (base : Nat) (c : Char) : Bool := (digit? c).any (· < base)

/-- The value of digits in a base. -/
def valueIn (base : Nat) (digits : Raw) : Nat :=
  digits.foldl (fun n c => base * n + (digit? c).getD 0) 0

/-- The digits at the beginning of a text: their value and the text after them; nothing if there are
none. -/
def digitsIn? (base : Nat) (t : Raw) : Option (Nat × Raw) :=
  let digits := t.takeWhile (isDigitIn base)
  if digits.isEmpty then none else some (valueIn base digits, t.dropWhile (isDigitIn base))

/-- The digits at the beginning of a text that tells their base. -/
def natural? (t : Raw) : Option (Nat × Raw) :=
  match t with
  | '0' :: x :: rest =>
    let base := if x = 'x' || x = 'X' then 16 else if x = 'b' || x = 'B' then 2 else 0
    match if base = 0 then none else digitsIn? base rest with
    | some r => some r
    | none => digitsIn? 8 t
  | '0' :: rest => some (0, rest)
  | _ => digitsIn? 10 t

/-- **The number at the beginning of a text**, which may tell its base, and the text after it. -/
def integer? (anyBase : Bool) (t : Raw) : Option (Int × Raw) :=
  let t := t.dropWhile Raw.isSpace
  let read := fun t : Raw => if anyBase then natural? t else digitsIn? 10 t
  match t with
  | '-' :: t => (read t).map fun r => (-(r.1 : Int), r.2)
  | '+' :: t => (read t).map fun r => ((r.1 : Int), r.2)
  | t => (read t).map fun r => ((r.1 : Int), r.2)

/-- The bound of numbers with a sign. -/
def bound : Int := 9223372036854775808

/-- Whether a number has 64 bits. -/
def isSmall (n : Int) : Bool := -bound ≤ n && n < bound

/-- The number that a whole text is, with blanks around it, if it has 64 bits. In any base, a blank text
is zero. -/
def whole? (anyBase : Bool) (t : Raw) : Option Int :=
  match integer? anyBase t with
  | some (n, rest) => if isSmall n && rest.all Raw.isSpace then some n else none
  | none => if anyBase && t.all Raw.isSpace then some 0 else none

end BuildMender.Host.Numeral
