import BuildMender.Json

/-!
# Writing JSON

`Json.pretty` writes a value over several lines, with two spaces for each level; an empty array or
object takes no lines of its own. In a string only the quote, the backslash and the control characters
below the space are escaped.
-/

namespace BuildMender.Json

open Text

/-- A hexadecimal digit. -/
def hexDigit (n : Nat) : Char := if n < 10 then Char.ofNat (48 + n) else Char.ofNat (87 + n)

/-- How a character is written inside a string. -/
def escapeChar (c : Char) : Text :=
  match shortEscapes.lookup c with
  | some letter => ['\\', letter]
  | none =>
    if c.toNat < 32 then ['\\', 'u', '0', '0', hexDigit (c.toNat / 16), hexDigit (c.toNat % 16)]
    else [c]

/-- A string in quotes. -/
def quoted (t : Text) : Text := "\"" ++ t.flatMap escapeChar ++ "\""

/-- A line feed and the blanks of a level. -/
def newline (level : Nat) : Text := '\n' :: repeated level "  "

mutual

/-- A value at a level of nesting. -/
def prettyAt (level : Nat) : Json → Text
  | .null | .unreadable => "null"
  | .bool true => "true"
  | .bool false => "false"
  | .number n => integer n
  | .string t => quoted t
  | .array [] => "[]"
  | .array (j :: js) =>
    "[" ++ newline (level + 1) ++ prettyAt (level + 1) j ++ itemsAt (level + 1) js ++
      newline level ++ "]"
  | .object [] => ['\x7b', '\x7d']
  | .object ((name, j) :: fs) =>
    ['\x7b'] ++ newline (level + 1) ++ quoted name ++ ": " ++ prettyAt (level + 1) j ++
      fieldsAt (level + 1) fs ++ newline level ++ ['\x7d']

/-- The items of an array after the first. -/
def itemsAt (level : Nat) : List Json → Text
  | [] => []
  | j :: js => "," ++ newline level ++ prettyAt level j ++ itemsAt level js

/-- The fields of an object after the first. -/
def fieldsAt (level : Nat) : List (Text × Json) → Text
  | [] => []
  | (name, j) :: fs =>
    "," ++ newline level ++ quoted name ++ ": " ++ prettyAt level j ++ fieldsAt level fs

end

/-- **A value over several lines.** -/
def pretty (j : Json) : Text := prettyAt 0 j

mutual

/-- A value on one line without blanks. -/
def compact : Json → Text
  | .null | .unreadable => "null"
  | .bool true => "true"
  | .bool false => "false"
  | .number n => integer n
  | .string t => quoted t
  | .array js => "[" ++ join "," (compactItems js) ++ "]"
  | .object fs => ['\x7b'] ++ join "," (compactFields fs) ++ ['\x7d']

/-- The items of an array, each on its own. -/
def compactItems : List Json → List Text
  | [] => []
  | j :: js => compact j :: compactItems js

/-- The fields of an object, each on its own. -/
def compactFields : List (Text × Json) → List Text
  | [] => []
  | (name, j) :: fs => (quoted name ++ ":" ++ compact j) :: compactFields fs

end

end BuildMender.Json
