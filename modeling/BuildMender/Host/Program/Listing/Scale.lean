import BuildMender.Host.Numeral

/-!
# How sizes are written

A size is written as a number of units, rounded up, with or without a letter for the unit; or with the unit
that fits best, and then with one place behind the point if it is less than ten of them.
-/

namespace BuildMender.Host.Listing

/-- How sizes are written. -/
inductive Scale where
  | units (bytes : Nat) (sign : Raw)
  /-- With the unit that fits, a power of the base. -/
  | fitting (base : Nat)
deriving DecidableEq, Inhabited

namespace Scale

/-- The letters of the powers of a thousand. -/
def letters : Text := ['K', 'M', 'G', 'T', 'P', 'E', 'Z', 'Y', 'R', 'Q']

/-- A quotient rounded up. -/
def ceilDiv (n d : Nat) : Nat := (n + d - 1) / d

/-- A size with a unit that is no less than one of the given units, and the units above it. -/
def fittingText (base n : Nat) : Nat → Raw → Raw → Raw
  | _, sign, [] => Text.decimal n ++ sign
  | unit, sign, letter :: more =>
    if base * unit ≤ n then fittingText base n (base * unit) [letter] more
    else
      let tenths := ceilDiv (10 * n) unit
      let whole := ceilDiv n unit
      if n < base then Text.decimal n
      else if tenths < 100 then Text.decimal (tenths / 10) ++ '.' :: Text.decimal (tenths % 10) ++ sign
      else if whole = base then "1.0".toList ++ [letter]
      else Text.decimal whole ++ sign

/-- **A size as it is written.** -/
def write : Scale → Nat → Raw
  | .units bytes sign, n => Text.decimal (ceilDiv n bytes) ++ sign
  | .fitting base, n => fittingText base n 1 [] (if base = 1000 then 'k' :: letters.drop 1 else letters)

/-! ### Reading -/

/-- What can be wrong with a text that names a scale. -/
inductive Fault where
  | invalid
  | badUnit
  | tooLarge
deriving DecidableEq, Inhabited

/-- The number of bytes that is meant by what stands behind a number, and whether that names a unit. -/
def unit? (t : Raw) : Option Nat :=
  match t with
  | [] => some 1
  | c :: base =>
    let known := letters.contains c || ("egkmptyz".toList).contains c
    let exponent := letters.idxOf (Raw.capital c) + 1
    if !known then none
    else if base.isEmpty || base = ['i', 'B'] then some (Nat.pow 1024 exponent)
    else if base = ['B'] then some (Nat.pow 1000 exponent)
    else none

/-- The scales that have names. -/
def names : List (Text × Scale) := [("human-readable", .fitting 1024), ("si", .fitting 1000)]

/-- **The scale that a text names.** -/
def read (t : Raw) : Except Fault Scale :=
  let t := if t.head? = some '\x27' then t.drop 1 else t
  match t with
  | [] => .error .invalid
  | c :: cs =>
    match names.filter fun e => Text.startsWith t e.1 with
    | [(_, s)] => .ok s
    | _ =>
      match Numeral.natural? t with
      | some (n, rest) =>
        match unit? rest with
        | none => .error .badUnit
        | some u =>
          if n = 0 then .error .invalid
          else if 18446744073709551616 ≤ n * u then .error .tooLarge
          else .ok (.units (n * u) [])
      | none =>
        match unit? t with
        | some u =>
          let sign := if cs = ['B'] && Raw.capital c = 'K' then 'k' else Raw.capital c
          if 18446744073709551616 ≤ u then .error .tooLarge else .ok (.units u (sign :: cs))
        | none => .error (if (unit? [c]).isSome then .badUnit else .invalid)

end Scale

end BuildMender.Host.Listing
