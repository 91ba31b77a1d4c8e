import BuildMender.Text.Basic
import BuildMender.Text.Class
import BuildMender.Json.Reader

/-!
# Strings in YAML

A string is written in one of four ways: plain, between single quotes, between double quotes, or as a
block of lines. Plain is used where the string reads back as itself: it must not look like a null, a
truth value or a number (`Yaml.resolves`), nor hold a sign that means something in YAML where it stands
(`Yaml.hasIndicator`). A string with line feeds is a block of lines unless something in it would be
lost. What is left goes between quotes, double ones where a character has to be escaped.
-/

namespace BuildMender.Yaml

open Text

/-! ### Strings that read as something else -/

/-- The spellings of null. -/
def nulls : List Text := ["null", "Null", "NULL", "~"]

/-- The spellings of the truth values. -/
def truths : List Text := ["true", "True", "TRUE", "false", "False", "FALSE"]

/-- The value of a non-empty run of digits in a base up to sixteen. -/
def inBase? (base : Nat) (t : Text) : Option Nat :=
  if t.isEmpty then none
  else t.foldlM (fun acc c =>
    (Json.hexValue? c).bind fun d => if d < base then some (base * acc + d) else none) 0

/-- The digits after the mark of a base, with that base. -/
def based? (t : Text) : Option (Nat × Text) :=
  ((after? "0x" t).map fun r => (16, r)).orElse fun _ =>
    ((after? "0o" t).map fun r => (8, r)).orElse fun _ => (after? "0b" t).map fun r => (2, r)

/-- Digits with a leading zero, with at most one sign. -/
def isPadded (t : Text) : Bool :=
  let t := ((after? "-" t).orElse fun _ => after? "+" t).getD t
  match t with
  | '0' :: d :: ds => (d :: ds).all isAsciiDigit
  | _ => false

/-- An integer written in a base, within 128 bits. -/
def isBased (t : Text) : Bool :=
  match after? "-" t with
  | some r => ((based? r).bind fun b => inBase? b.1 b.2).any fun n => n ≤ Nat.pow 2 127
  | none =>
    ((based? ((after? "+" t).getD t)).bind fun b => inBase? b.1 b.2).any fun n => n < Nat.pow 2 128

/-- The first magnitude that rounds to no finite double, 2¹⁰²⁴ − 2⁹⁷⁰. -/
def overflow : Nat := Nat.pow 2 1024 - Nat.pow 2 970

/-- Whether a magnitude, given as an integer and a power of ten, rounds to a finite double. -/
def isFinite (m : Nat) (digits : Nat) (k : Int) : Bool :=
  if m = 0 then true
  else if digits + k > 310 then false
  else if digits + k < 300 then true
  else if 0 ≤ k then m * Nat.pow 10 k.toNat < overflow
  else m < overflow * Nat.pow 10 (-k).toNat

/-- An integer with at most one sign. -/
def signed? (t : Text) : Option Int :=
  match t with
  | '-' :: r => if r.isEmpty then none else (digitsFrom 0 r).map fun n => -n
  | '+' :: r => if r.isEmpty then none else (digitsFrom 0 r).map Int.ofNat
  | r => if r.isEmpty then none else (digitsFrom 0 r).map Int.ofNat

/-- A decimal number without a sign that is a finite double: digits with at most one point among or
around them, and an exponent. -/
def isUnsignedDecimal (t : Text) : Bool :=
  let isE := fun c => c == 'e' || c == 'E'
  let mantissa := t.takeWhile fun c => !isE c
  let exponent : Option Int := match t.dropWhile fun c => !isE c with
    | [] => some 0
    | _ :: r => signed? r
  let whole := mantissa.takeWhile (· ≠ '.')
  let fraction := (mantissa.dropWhile (· ≠ '.')).drop 1
  match exponent, digitsFrom 0 (whole ++ fraction) with
  | some e, some m =>
    !(whole ++ fraction).isEmpty && isFinite m (decimal m).length (e - fraction.length)
  | _, _ => false

/-- The spellings of infinity and of no number. -/
def specials : List Text :=
  [".inf", ".Inf", ".INF", "+.inf", "+.Inf", "+.INF", "-.inf", "-.Inf", "-.INF", ".nan", ".NaN", ".NAN"]

/-- A decimal number with at most one sign. -/
def isDecimal (t : Text) : Bool :=
  isUnsignedDecimal (((after? "-" t).orElse fun _ => after? "+" t).getD t)

/-- **Strings that would not read back as strings**, and digits with a leading zero besides. -/
def resolves (t : Text) : Bool :=
  t.isEmpty || nulls.contains t || truths.contains t || specials.contains t || isPadded t ||
    isBased t || isDecimal t

/-! ### Characters and signs -/

/-- The characters that end a line in YAML. -/
def isBreak (c : Char) : Bool :=
  c = '\n' || c = '\r' || c.toNat = 0x85 || c.toNat = 0x2028 || c.toNat = 0x2029

/-- The characters that may stand unescaped. -/
def isPrintable (c : Char) : Bool :=
  let n := c.toNat
  n = 10 || (0x20 ≤ n && n ≤ 0x7e) || (0xa0 ≤ n && n ≠ 0xfeff && n ≠ 0xfffe && n ≠ 0xffff)

/-- A space, a tab or the end of a line, or the end of the string. -/
def blankOrEnd (c : Option Char) : Bool := c.all fun c => c = ' ' || c = '\t' || isBreak c || c.toNat = 0

/-- The signs that mean something in front. -/
def frontSigns : Text := ['#', ',', '[', ']', '\x7b', '\x7d', '&', '*', '!', '|', '>', '\x27', '"', '%',
  '@', '\x60']

/-- Whether a sign that means something stands further on: a colon before a blank, or a number sign
after one. -/
def hasInnerSign (previous : Char) : Text → Bool
  | [] => false
  | c :: cs =>
    (c = ':' && blankOrEnd cs.head?) || (c = '#' && blankOrEnd (some previous)) || hasInnerSign c cs

/-- **Whether a sign that means something in YAML stands where it does.** -/
def hasIndicator (t : Text) : Bool :=
  startsWith "---" t || startsWith "..." t ||
    match t with
    | [] => false
    | c :: cs =>
      frontSigns.contains c || ((c = '?' || c = ':' || c = '-') && blankOrEnd cs.head?) ||
        hasInnerSign c cs

/-- Whether two characters of two kinds stand next to each other. -/
def hasPair (p q : Char → Bool) : Text → Bool
  | a :: b :: more => (p a && q b) || hasPair p q (b :: more)
  | _ => false

/-- Whether a space stands before the end of a line. -/
def hasSpaceBreak (t : Text) : Bool := hasPair (· = ' ') isBreak t

/-- Whether a space stands at the beginning of a line other than the first. -/
def hasBreakSpace (t : Text) : Bool := hasPair isBreak (· = ' ') t

/-- Whether plain writing keeps a string. -/
def allowsPlain (t : Text) : Bool :=
  !hasIndicator t && t.all isPrintable && !t.any isBreak &&
    t.head? != some ' ' && t.getLast? != some ' '

/-- Whether single quotes keep a string. -/
def allowsSingle (t : Text) : Bool := t.all isPrintable && !hasSpaceBreak t && !hasBreakSpace t

/-- Whether a block of lines keeps a string. -/
def allowsBlock (t : Text) : Bool :=
  t.all isPrintable && !hasSpaceBreak t && t.getLast? != some ' '

/-! ### Writing -/

/-- A capital hexadecimal digit. -/
def hexDigit (n : Nat) : Char := if n < 10 then Char.ofNat (48 + n) else Char.ofNat (55 + n)

/-- The last `n` hexadecimal digits of a number. -/
def hexDigits : Nat → Nat → Text
  | 0, _ => []
  | n + 1, v => hexDigits n (v / 16) ++ [hexDigit (v % 16)]

/-- The short escapes. -/
def shortEscapes : List (Nat × Char) :=
  [(0, '0'), (7, 'a'), (8, 'b'), (9, 't'), (10, 'n'), (11, 'v'), (12, 'f'), (13, 'r'), (27, 'e'),
    (34, '"'), (92, '\\'), (0x85, 'N'), (0x2028, 'L'), (0x2029, 'P')]

/-- How a character is written between double quotes. -/
def escapeChar (c : Char) : Text :=
  match shortEscapes.lookup c.toNat with
  | some e => ['\\', e]
  | none =>
    if isPrintable c then [c]
    else if c.toNat < 0x100 then '\\' :: 'x' :: hexDigits 2 c.toNat
    else if c.toNat < 0x10000 then '\\' :: 'u' :: hexDigits 4 c.toNat
    else '\\' :: 'U' :: hexDigits 8 c.toNat

/-- A string between double quotes. -/
def doubleQuoted (t : Text) : Text := "\"" ++ t.flatMap escapeChar ++ "\""

/-- Blanks in front of a line. -/
def indentation (indent : Nat) : Text := List.replicate indent ' '

/-- The characters of a string with each line after the first indented, empty ones excepted. -/
def indented (indent : Nat) (write : Char → Text) (afterBreak : Bool) : Text → Text
  | [] => []
  | c :: cs =>
    if isBreak c then c :: indented indent write true cs
    else (if afterBreak then indentation indent else []) ++ write c ++ indented indent write false cs

/-- A string between single quotes. A quote that would stand at the beginning of a line is indented. -/
def singleQuoted (indent : Nat) (t : Text) : Text :=
  "\x27" ++ indented indent (fun c => if c = '\x27' then [c, c] else [c]) false t ++
    (if t.getLast?.any isBreak then indentation indent else []) ++ "\x27"

/-- The marks after the sign of a block: the indentation, where the first character would hide it, and
what becomes of the line feeds at the end. -/
def blockMarks (t : Text) : Text :=
  (if t.head?.any (fun c => c = ' ' || isBreak c) then ['2'] else []) ++
    match t.reverse with
    | [] => []
    | c :: cs => if !isBreak c then ['-'] else if cs.head?.all isBreak then ['+'] else []

/-- A string as a block of lines, with the end of the last one. -/
def block (indent : Nat) (t : Text) : Text :=
  '|' :: blockMarks t ++ ['\n'] ++ indented indent (fun c => [c]) true t ++
    (if t.getLast?.any isBreak then [] else ['\n'])

/-- A string in YAML with the end of its line, where its further lines are indented by `indent`. What
ends the last line of a block is the last character of the string, if that ends a line. -/
def line (indent : Nat) (t : Text) : Text :=
  if t.contains '\n' then
    if allowsBlock t then block indent t else doubleQuoted t ++ ['\n']
  else if !resolves t && allowsPlain t then t ++ ['\n']
  else if allowsSingle t then singleQuoted indent t ++ ['\n']
  else doubleQuoted t ++ ['\n']

/-- **The name of a field in YAML**, which has no line feeds. -/
def name (t : Text) : Text := Text.dropEnd (· = '\n') (line 0 t)

end BuildMender.Yaml
