import BuildMender.Host.Real
import BuildMender.Host.Shell.Basic
import BuildMender.Host.Shell.Escape

/-!
# Formatted printing

`printf` prints its arguments as a format says, and starts the format over as long as arguments are left.
A missing argument counts as empty or as zero. An argument that is no number is complained of and counts as
the number at its beginning; a format that is wrong ends the printing.
-/

namespace BuildMender.Host.Format

/-- How an argument is filled up to a width. -/
structure Layout where
  left : Bool := false
  zeros : Bool := false
  plus : Bool := false
  space : Bool := false
  /-- Whether the form of the number is shown. -/
  marked : Bool := false
  width : Nat := 0
  precision : Option Nat := none
deriving DecidableEq, Inhabited

/-- Where the printing stands. -/
structure State where
  /-- The arguments that are left. -/
  left : List Raw
  status : Nat := 0
deriving Inhabited

/-- An action of printing. -/
abbrev Printing := StateT State Sh

/-! ### Arguments -/

/-- The next argument. -/
def argument : Printing (Option Raw) := do
  let s ← get
  set { s with left := s.left.tail }
  return s.left.head?

/-- A complaint. -/
def warn (t : Raw) : Printing Unit := do
  Sh.warn t
  modify fun s => { s with status := 1 }

/-- A complaint if an argument goes on behind its number, or the number is too great. -/
def check (t rest : Raw) (found great : Bool) : Printing Unit := do
  if !rest.isEmpty then
    if found then warn (t ++ ": not completely converted") else warn (t ++ ": expected numeric value")
  else if great then warn (t ++ ": Numerical result out of range")

/-- The character behind a quote. -/
def quotedCharacter? (t : Raw) : Option Nat :=
  match t with
  | c :: cs => if c = '"' ∨ c = '\x27' then some ((cs.head?.map Char.toNat).getD 0) else none
  | [] => none

/-- The next argument as a whole number, with a sign or as 64 bits. -/
def integer (withSign : Bool) : Printing Int := do
  match ← argument with
  | none => return 0
  | some t =>
    match quotedCharacter? t with
    | some n => return n
    | none =>
      let n := Numeral.integer? true t
      let v := (n.map Prod.fst).getD 0
      let bound := Numeral.bound
      let great := if withSign then !Numeral.isSmall v else 2 * bound ≤ v.natAbs
      check t ((n.map Prod.snd).getD t) n.isSome great
      return if withSign then min (max v (-bound)) (bound - 1)
        else if great then 2 * bound - 1
        else v % (2 * bound)

/-- The next argument as a real number. -/
def real : Printing Real := do
  match ← argument with
  | none => return .finite false 0 1
  | some t =>
    match quotedCharacter? t with
    | some n => return .finite false n 1
    | none =>
      match Real.read? t with
      | some (r, great, rest) =>
        check t rest true great
        return r
      | none =>
        check t t false false
        return .finite false 0 1

/-! ### Layout -/

/-- A text filled up to a width. -/
def fill (l : Layout) (t : Raw) : Raw :=
  let more := List.replicate (l.width - t.length) ' '
  if l.left then t ++ more else more ++ t

/-- The sign of a number. -/
def sign (l : Layout) (negative : Bool) : Raw :=
  if negative then ['-'] else if l.plus then ['+'] else if l.space then [' '] else []

/-- Digits with something in front, filled up to a width; zeros stand between the two. -/
def fillDigits (l : Layout) (front digits : Raw) (zeros : Bool) : Raw :=
  if l.zeros && zeros && !l.left then
    front ++ List.replicate (l.width - front.length - digits.length) '0' ++ digits
  else fill l (front ++ digits)

/-- A whole number in print, as a letter asks. -/
def showInteger (l : Layout) (letter : Char) (v : Int) : Raw :=
  let base := if letter = 'o' then 8 else if letter = 'x' ∨ letter = 'X' then 16 else 10
  let n := v.natAbs
  let digits := if n = 0 ∧ l.precision = some 0 then [] else Nat.toDigits base n
  let digits := match l.precision with
    | some p => List.replicate (p - digits.length) '0' ++ digits
    | none => digits
  let digits := if l.marked && letter = 'o' && digits.head? != some '0' then '0' :: digits else digits
  let digits := if letter = 'X' then digits.map Raw.capital else digits
  let front := if letter = 'd' ∨ letter = 'i' then sign l (v < 0)
    else if l.marked && base = 16 && n ≠ 0 then ['0', letter]
    else []
  fillDigits l front digits l.precision.isNone

/-- A real number in print, as a letter asks. -/
def showReal (l : Layout) (letter : Char) (r : Real) : Raw :=
  let t := r.render letter (l.precision.getD 6) l.marked
  fillDigits l (sign l r.isNegative) (if Raw.isCapital letter then t.map Raw.capital else t) r.isFinite

/-- A real number in print in base 16. -/
def showHexadecimal (l : Layout) (letter : Char) (r : Real) : Raw :=
  let big := fun t : Raw => if letter = 'A' then t.map Raw.capital else t
  match r with
  | .finite negative a b =>
    fillDigits l (sign l negative ++ big ['0', 'x']) (big (Real.hexadecimal a b l.precision l.marked)) true
  | r => showReal l (if letter = 'A' then 'E' else 'e') r

/-- A text in print. -/
def showText (l : Layout) (t : Raw) : Raw :=
  fill l (match l.precision with
    | some p => t.take p
    | none => t)

/-! ### Formats -/

/-- One sign of a layout. -/
def Layout.set (l : Layout) (c : Char) : Layout :=
  if c = '#' then { l with marked := true }
  else if c = '-' then { l with left := true }
  else if c = '+' then { l with plus := true }
  else if c = ' ' then { l with space := true }
  else { l with zeros := true }

/-- A number of a layout that is written there, or the next argument; and the text after it. -/
def readNumber (t : Raw) : Printing (Int × Raw) := do
  match t with
  | '*' :: rest => return (← integer true, rest)
  | _ =>
    match Numeral.digitsIn? 10 t with
    | some (n, rest) => return (n, rest)
    | none => return (0, t)

/-- The layout behind a percent sign, and the text after it. -/
def readLayout (t : Raw) : Printing (Layout × Raw) := do
  let isSign := fun c => "#-+ 0".toList.contains c
  let l := (t.takeWhile isSign).foldl Layout.set {}
  let (w, rest) ← readNumber (t.dropWhile isSign)
  let l := { l with width := w.natAbs, left := l.left || w < 0 }
  match rest with
  | '.' :: rest =>
    let (p, rest) ← readNumber rest
    return ({ l with precision := if p < 0 then none else some p.toNat }, rest)
  | rest => return (l, rest)

/-- The next argument printed as a letter asks; whether the printing goes on. -/
def convert (l : Layout) (letter : Char) (directive : Raw) : Printing Bool := do
  if letter = 'b' then
    let (t, ended) := Escape.expand ((← argument).getD [])
    Sh.print (showText l t)
    return !ended
  else if letter = 'c' then
    Sh.print (fill l [((← argument).bind List.head?).getD (Char.ofNat 0)])
    return true
  else if letter = 's' then
    Sh.print (showText l ((← argument).getD []))
    return true
  else if letter = 'd' ∨ letter = 'i' then
    Sh.print (showInteger l letter (← integer true))
    return true
  else if "ouxX".toList.contains letter then
    Sh.print (showInteger l letter (← integer false))
    return true
  else if "eEfFgG".toList.contains letter then
    Sh.print (showReal l letter (← real))
    return true
  else if letter = 'a' ∨ letter = 'A' then
    Sh.print (showHexadecimal l letter (← real))
    return true
  else Sh.fail (directive ++ ": invalid directive")

/-- A format of at most so many characters printed; whether the printing goes on. -/
def printOnce : Nat → Raw → Printing Bool
  | 0, _ => pure true
  | _, [] => pure true
  | n + 1, c :: cs => do
    if c = '\\' then
      let (d, rest) := Escape.behind cs
      Sh.print [d]
      printOnce n rest
    else if c = '%' then
      match cs with
      | '%' :: rest =>
        Sh.print ['%']
        printOnce n rest
      | _ =>
        let (l, rest) ← readLayout cs
        match rest with
        | [] => Sh.fail "missing format character"
        | letter :: rest =>
          if ← convert l letter ('%' :: cs.take (cs.length - rest.length)) then printOnce n rest
          else return false
    else
      Sh.print [c]
      printOnce n cs

/-- A format printed again as long as it uses up arguments and there are any left. -/
def printAll (format : Raw) : Nat → Printing Unit
  | 0 => pure ()
  | n + 1 => do
    let before := (← get).left.length
    if ← printOnce format.length format then
      let left := (← get).left.length
      if 0 < left ∧ left < before then printAll format n

/-- **Arguments printed as a format says**: the status. -/
def print (format : Raw) (arguments : List Raw) : Sh Nat := do
  let (_, s) ← (printAll format (arguments.length + 1)).run { left := arguments }
  return s.status

end BuildMender.Host.Format
