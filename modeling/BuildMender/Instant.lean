import BuildMender.Text.Class

/-!
# Instants

An instant is a number of seconds since the start of the year 1970 and a fraction of a second. It is
written as a date and a time of day in the Gregorian calendar with the letter `Z` behind them. It is
read from that form and from looser ones: numerals may be short, blanks may stand before numerals and
marks, and an offset may take the place of the letter.
-/

namespace BuildMender

/-- A point in time. -/
structure Instant where
  /-- The whole seconds since the start of 1970. -/
  seconds : Int
  /-- The fraction in billionths; a whole second more stands for a leap second. -/
  nanos : Nat := 0
deriving DecidableEq, Inhabited

namespace Instant

/-! ### The calendar -/

/-- The days from the start of 1970 to a date. The year is counted from March, so that the leap day is
its last; 400 years have 146097 days. -/
def dayOf (year : Int) (month day : Nat) : Int :=
  let y := if month ≤ 2 then year - 1 else year
  let shifted : Int := ((month + 9) % 12 : Nat)
  let dayOfYear := (153 * shifted + 2) / 5 + day - 1
  y * 365 + y / 4 - y / 100 + y / 400 + dayOfYear - 719468

/-- Whether a year has a leap day. -/
def isLeap (year : Int) : Bool := year % 4 = 0 && (year % 100 != 0 || year % 400 = 0)

/-- The number of days of a month. -/
def daysIn (year : Int) (month : Nat) : Nat :=
  if month = 2 then if isLeap year then 29 else 28
  else if month = 4 ∨ month = 6 ∨ month = 9 ∨ month = 11 then 30
  else 31

/-- The date of a day counted from the start of 1970: year, month, day. -/
def dateOf (day : Int) : Int × Nat × Nat :=
  let z := day + 719468
  let era := z / 146097
  let dayOfEra := z % 146097
  let yearOfEra := (dayOfEra - dayOfEra / 1460 + dayOfEra / 36524 - dayOfEra / 146096) / 365
  let dayOfYear := dayOfEra - (365 * yearOfEra + yearOfEra / 4 - yearOfEra / 100)
  let shifted := (5 * dayOfYear + 2) / 153
  let month := (shifted + 2) % 12 + 1
  let year := yearOfEra + era * 400
  (if month ≤ 2 then year + 1 else year, month.toNat, (dayOfYear - (153 * shifted + 2) / 5 + 1).toNat)

/-! ### Writing -/

/-- A number with zeros in front to a width. -/
def padded (width n : Nat) : Text :=
  let digits := Text.decimal n
  List.replicate (width - digits.length) '0' ++ digits

/-- A fraction of a second with as few groups of three digits as it takes. -/
def fraction (nanos : Nat) : Text :=
  if nanos = 0 then []
  else if nanos % 1000000 = 0 then "." ++ padded 3 (nanos / 1000000)
  else if nanos % 1000 = 0 then "." ++ padded 6 (nanos / 1000)
  else "." ++ padded 9 nanos

/-- A year; one that has not four digits carries a sign. -/
def yearText (year : Int) : Text :=
  if 0 ≤ year ∧ year ≤ 9999 then padded 4 year.toNat
  else (if year < 0 then "-" else "+" : Text) ++ padded 4 year.natAbs

/-- **An instant in writing.** -/
def text (i : Instant) : Text :=
  let date := dateOf (i.seconds / 86400)
  let second := (i.seconds % 86400).toNat
  let leap := i.nanos / 1000000000
  yearText date.1 ++ "-" ++ padded 2 date.2.1 ++ "-" ++ padded 2 date.2.2 ++ "T" ++
    padded 2 (second / 3600) ++ ":" ++ padded 2 (second / 60 % 60) ++ ":" ++
    padded 2 (second % 60 + leap) ++ fraction (i.nanos % 1000000000) ++ "Z"

/-! ### Reading -/

/-- The text after its blanks. -/
def unblanked (t : Text) : Text := Text.dropStart Text.isBlank t

/-- The digits a text begins with, at most so many, and the text after them. -/
def digits (most : Nat) (t : Text) : Text × Text :=
  let ds := (t.take most).takeWhile fun c => (Text.digitValue? c).isSome
  (ds, t.drop ds.length)

/-- A numeral of one digit or more, but not more than so many, and the text after it. -/
def numeral? (most : Nat) (t : Text) : Option (Nat × Text) :=
  let (ds, rest) := digits most t
  if ds.isEmpty then none else (Text.digitsFrom 0 ds).map fun n => (n, rest)

/-- A numeral of one digit or two after blanks. -/
def field? (t : Text) : Option (Nat × Text) := numeral? 2 (unblanked t)

/-- A numeral behind a character, with blanks before each of the two. -/
def fieldAfter? (c : Char) (t : Text) : Option (Nat × Text) :=
  match unblanked t with
  | d :: t => if d = c then field? t else none
  | [] => none

/-- A year after blanks: up to four digits, or any number of them behind a sign. -/
def year? (t : Text) : Option (Int × Text) :=
  match unblanked t with
  | '-' :: t => (numeral? t.length t).map fun p => (-(p.1 : Int), p.2)
  | '+' :: t => (numeral? t.length t).map fun p => ((p.1 : Int), p.2)
  | t => (numeral? 4 t).map fun p => ((p.1 : Int), p.2)

/-- A fraction of a second, if there is one, and the text after it. Digits after the ninth count for
nothing. -/
def fraction? : Text → Option (Nat × Text)
  | '.' :: t =>
    let (ds, rest) := digits t.length t
    if ds.isEmpty then none
    else
      let nine := ds.take 9 ++ List.replicate (9 - ds.length) '0'
      (Text.digitsFrom 0 nine).map fun n => (n, rest)
  | t => some (0, t)

/-- Two digits, and the text after them. -/
def pair? : Text → Option (Nat × Text)
  | a :: b :: t => do
    let a ← Text.digitValue? a
    let b ← Text.digitValue? b
    some (10 * a + b, t)
  | _ => none

/-- Whether a text begins with the letters `UTC`, large or small. -/
def namesZero (t : Text) : Bool :=
  t.take 3 |>.zip ["Uu", "Tt", "Cc"] |>.filter (fun p => p.2.toList.contains p.1) |>.length |> (· = 3)

/-- The seconds by which a place is ahead of the zero meridian, and the text after them. Colons and
blanks may stand between hours and minutes. -/
def offset? (t : Text) : Option (Int × Text) :=
  match t with
  | [] => none
  | c :: more =>
    if namesZero t then some (0, t.drop 3)
    else if c = 'Z' ∨ c = 'z' then some (0, more)
    else do
      let sign ← if c = '+' then some (1 : Int)
        else if c = '-' ∨ c = '−' then some (-1) else none
      let (hours, t) ← pair? more
      let (minutes, t) ← pair? (Text.dropStart (fun c => c = ':' || Text.isBlank c) t)
      if hours < 24 ∧ minutes < 60 then some (sign * (hours * 3600 + minutes * 60 : Nat), t) else none

/-- The first and the last day that have a date. -/
def dayBounds : Int × Int := (dayOf (-262143) 1 1, dayOf 262142 12 31)

/-- Whether the day of some seconds has a date. -/
def isDated (seconds : Int) : Bool :=
  dayBounds.1 ≤ seconds / 86400 && seconds / 86400 ≤ dayBounds.2

/-- **The instant of a text.** -/
def ofText? (t : Text) : Option Instant := do
  let (year, t) ← year? t
  let (month, t) ← fieldAfter? '-' t
  let (day, t) ← fieldAfter? '-' t
  let t ← match t with
    | c :: t => if c = 'T' ∨ c = 't' ∨ c = ' ' then some t else none
    | [] => none
  let (hour, t) ← field? t
  let (minute, t) ← fieldAfter? ':' t
  let (second, t) ← fieldAfter? ':' t
  let (nanos, t) ← fraction? t
  let (ahead, t) ← offset? (unblanked t)
  let there := dayOf year month day * 86400 + (hour * 3600 + minute * 60 + min second 59 : Nat)
  if (unblanked t).isEmpty ∧ 1 ≤ month ∧ month ≤ 12 ∧ 1 ≤ day ∧ day ≤ daysIn year month ∧
      hour < 24 ∧ minute < 60 ∧ second ≤ 60 ∧ isDated there ∧ isDated (there - ahead) then
    some ⟨there - ahead, if second = 60 then nanos + 1000000000 else nanos⟩
  else none

end Instant

end BuildMender
