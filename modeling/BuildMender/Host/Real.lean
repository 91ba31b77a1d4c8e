import BuildMender.Host.Numeral

/-!
# Real numbers in print

A real number is read from a text as the nearest number of 53 binary digits, and printed with as many
decimal places as asked for: in fixed notation, with an exponent, or whichever of the two is shorter. All
of that is done in fractions of natural numbers, so that what is printed is right to the last place. A
number halfway between two goes to the even one.
-/

namespace BuildMender.Host

/-- A real number as far as it can be printed; a finite one is a fraction. -/
inductive Real where
  | finite (negative : Bool) (numerator denominator : Nat)
  | infinite (negative : Bool)
  | undefined (negative : Bool)
deriving DecidableEq, Inhabited

namespace Real

/-- The quotient of two numbers rounded to the nearest whole number, a half to the even one. -/
def quotient (a b : Nat) : Nat :=
  let q := a / b
  let r := a % b
  if 2 * r < b then q else if b < 2 * r then q + 1 else q + q % 2

/-- The number of binary digits of a number. -/
def binaryDigits (n : Nat) : Nat := if n = 0 then 0 else Nat.log2 n + 1

/-- The number of binary digits that are kept. -/
def precision : Nat := 53

/-- The least exponent of a number. -/
def leastExponent : Int := -1074

/-- The greatest exponent of a number. -/
def greatestExponent : Int := 971

/-- A fraction times a power of two. -/
def scaled (a b : Nat) (e : Int) : Nat × Nat :=
  if 0 ≤ e then (a * Nat.pow 2 e.toNat, b) else (a, b * Nat.pow 2 (-e).toNat)

/-- **The nearest number to a fraction**, and whether the fraction is out of range: too great, or so small that
digits are lost. -/
def nearest (negative : Bool) (a b : Nat) : Real × Bool :=
  if a = 0 then (.finite negative 0 1, false)
  else
    let size : Int := binaryDigits a - binaryDigits b
    let guess := max (size - precision) leastExponent
    let first := scaled a b (-guess)
    let e := if first.1 / first.2 < Nat.pow 2 precision then guess else guess + 1
    let exact := scaled a b (-e)
    let m := quotient exact.1 exact.2
    let lost := m < Nat.pow 2 (precision - 1) && exact.1 % exact.2 ≠ 0
    let (m, e) := if m = Nat.pow 2 precision then (m / 2, e + 1) else (m, e)
    if greatestExponent < e then (.infinite negative, true)
    else
      let r := scaled m 1 e
      (.finite negative r.1 r.2, lost)

/-! ### Reading -/

/-- A sign in front of a text, and the text after it. -/
def signed : Raw → Bool × Raw
  | '-' :: t => (true, t)
  | '+' :: t => (false, t)
  | t => (false, t)

/-- The words for numbers that are none. -/
def words : List (Text × Bool) := [("infinity", true), ("inf", true), ("nan", false)]

/-- The exponent behind a letter, if there is one, and the text after it. -/
def exponent (letter : Char) (t : Raw) : Int × Raw :=
  match t with
  | c :: rest =>
    if Raw.small c = letter then
      let (negative, rest) := signed rest
      match Numeral.digitsIn? 10 rest with
      | some (n, rest) =>
        let n := min n 100000
        (if negative then -n else n, rest)
      | none => (0, t)
    else (0, t)
  | [] => (0, [])

/-- The digits of a number in a base, before and behind the point: their value, how many stand behind the
point, and the text after them; nothing if there are none. -/
def digits? (base : Nat) (t : Raw) : Option (Nat × Nat × Raw) :=
  let isDigit := Numeral.isDigitIn base
  let whole := t.takeWhile isDigit
  let rest := t.dropWhile isDigit
  match rest with
  | '.' :: more =>
    let part := more.takeWhile isDigit
    if whole.isEmpty && part.isEmpty then none
    else some (Numeral.valueIn base (whole ++ part), part.length, more.dropWhile isDigit)
  | _ => if whole.isEmpty then none else some (Numeral.valueIn base whole, 0, rest)

/-- A number in base 10 or, behind `0x`, in base 16, and the text after it. -/
def number? (negative : Bool) (t : Raw) : Option (Real × Bool × Raw) :=
  let hex := match t with
    | '0' :: x :: rest => if x = 'x' || x = 'X' then digits? 16 rest else none
    | _ => none
  match hex with
  | some (v, places, rest) =>
    let (e, rest) := exponent 'p' rest
    let f := scaled v 1 (e - 4 * places)
    let (r, great) := nearest negative f.1 f.2
    some (r, great, rest)
  | none =>
    (digits? 10 t).map fun (v, places, rest) =>
      let (e, rest) := exponent 'e' rest
      let power := e - places
      let (r, great) := if 0 ≤ power then
          (if v = 0 then nearest negative 0 1 else nearest negative (v * Nat.pow 10 power.toNat) 1)
        else nearest negative v (Nat.pow 10 (-power).toNat)
      (r, great, rest)

/-- **The number at the beginning of a text**, whether it is out of range, and the text after it; nothing if
there is none. -/
def read? (t : Raw) : Option (Real × Bool × Raw) :=
  let (negative, t) := signed (t.dropWhile Raw.isSpace)
  match words.find? fun w => (t.take w.1.length).map Raw.small == w.1 with
  | some (w, unbounded) =>
    some (if unbounded then .infinite negative else .undefined negative, false, t.drop w.length)
  | none => number? negative t

/-! ### Printing -/

/-- The digits of a number with a point before the last so many. -/
def withPoint (n places : Nat) (always : Bool) : Text :=
  let t := Text.decimal n
  let t := List.replicate (places + 1 - t.length) '0' ++ t
  let whole := t.take (t.length - places)
  if places = 0 then (if always then whole ++ ['.'] else whole) else whole ++ '.' :: t.drop (t.length - places)

/-- A fraction in fixed notation. -/
def fixed (a b places : Nat) (point : Bool) : Text := withPoint (quotient (a * Nat.pow 10 places) b) places point

/-- The greatest power of ten that a fraction reaches, by trying those from a guess down. -/
def powerFrom (a b : Nat) : Nat → Int → Int
  | 0, e => e
  | n + 1, e =>
    let reached := if 0 ≤ e then b * Nat.pow 10 e.toNat ≤ a else b ≤ a * Nat.pow 10 (-e).toNat
    if reached then e else powerFrom a b n (e - 1)

/-- The digits of a fraction with so many behind the first, and the power of ten of the first. -/
def leading (a b places : Nat) : Nat × Int :=
  if a = 0 then (0, 0)
  else
    let guess : Int := (Text.decimal a).length - (Text.decimal b).length + 1
    let e := powerFrom a b 4 guess
    let shift := places - e
    let m := if 0 ≤ shift then quotient (a * Nat.pow 10 shift.toNat) b
      else quotient a (b * Nat.pow 10 (-shift).toNat)
    if m = Nat.pow 10 (places + 1) then (m / 10, e + 1) else (m, e)

/-- An exponent in print. -/
def exponentText (e : Int) : Text :=
  let t := Text.decimal e.natAbs
  'e' :: (if e < 0 then '-' else '+') :: (List.replicate (2 - t.length) '0' ++ t)

/-- A fraction with an exponent. -/
def scientific (a b places : Nat) (point : Bool) : Text :=
  let (m, e) := leading a b places
  withPoint m places point ++ exponentText e

/-- A text with a point without the zeros at its end. -/
def bare (t : Text) : Text :=
  if t.contains '.' then Text.dropEnd (· = '.') (Text.dropEnd (· = '0') t) else t

/-- A fraction with so many digits in the shorter of the two notations. -/
def general (a b digits : Nat) (point : Bool) : Text :=
  let digits := max digits 1
  let (m, e) := leading a b (digits - 1)
  if -4 ≤ e ∧ e < digits then
    let t := fixed a b (digits - 1 - e).toNat point
    if point then t else bare t
  else
    let t := withPoint m (digits - 1) point
    (if point then t else bare t) ++ exponentText e

/-- The power of two that a fraction reaches, by trying those from a guess down. -/
def binaryPower (a b : Nat) : Nat → Int → Int
  | 0, e => e
  | n + 1, e =>
    let (c, d) := scaled a b (-e)
    if d ≤ c then e else binaryPower a b n (e - 1)

/-- How many digits in base 16 stand behind the point. -/
def hexPlaces : Nat := 13

/-- **A fraction in base 16** with an exponent of two, with so many places or as many as there are; what
stands before the first digit is left out. -/
def hexadecimal (a b : Nat) (places : Option Nat) (point : Bool) : Text :=
  let e := if a = 0 then 0
    else max (binaryPower a b 3 (binaryDigits a - binaryDigits b + 1)) (leastExponent + precision - 1)
  let (c, d) := scaled a b (-e)
  let p := places.getD hexPlaces
  let m := quotient (c * Nat.pow 16 p) d
  let digits := Nat.toDigits 16 m
  let digits := List.replicate (p + 1 - digits.length) '0' ++ digits
  let part := digits.drop (digits.length - p)
  let part := if places.isNone then Text.dropEnd (· = '0') part else part
  digits.take (digits.length - p) ++ (if part.isEmpty && !point then [] else '.' :: part) ++
    'p' :: (if e < 0 then '-' else '+') :: Text.decimal e.natAbs

/-- **A number in print** without its sign, as a letter asks: with so many places, and a point in any case
or only before places. -/
def render (letter : Char) (places : Nat) (point : Bool) : Real → Text
  | .finite _ a b =>
    if Raw.small letter = 'f' then fixed a b places point
    else if Raw.small letter = 'e' then scientific a b places point
    else general a b places point
  | .infinite _ => "inf"
  | .undefined _ => "nan"

/-- Whether a number is negative. -/
def isNegative : Real → Bool
  | .finite negative _ _ | .infinite negative | .undefined negative => negative

/-- Whether a number is finite. -/
def isFinite : Real → Bool
  | .finite .. => true
  | _ => false

end Real

end BuildMender.Host
