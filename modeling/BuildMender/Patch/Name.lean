import BuildMender.Json.Writer
import BuildMender.Patch

/-!
# Names of patches

A patch is known by a name of 32 hexadecimal digits in five groups. Names are made from numbers that
nobody else is likely to draw; two digits say that they were made this way.
-/

namespace BuildMender

namespace PatchId

/-- The lowest `count` hexadecimal digits of a number. -/
def digits (count n : Nat) : Text :=
  (List.range count).reverse.map fun k => Json.hexDigit (n / Nat.pow 16 k % 16)

/-- **The name that a number spells.** The thirteenth digit is 4, and the seventeenth one of 8, 9, a and
b. -/
def ofNumber (n : Nat) : PatchId :=
  let t := digits 32 n
  let kind := Json.hexDigit (8 + n / Nat.pow 16 15 % 4)
  t.take 8 ++ "-" ++ (t.drop 8).take 4 ++ "-4" ++ (t.drop 13).take 3 ++ "-" ++ [kind] ++
    (t.drop 17).take 3 ++ "-" ++ t.drop 20

end PatchId

end BuildMender
