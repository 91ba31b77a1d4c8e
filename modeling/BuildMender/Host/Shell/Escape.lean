import BuildMender.Host.Numeral

/-!
# Escapes

In what a shell prints, a backslash and what follows it stand for one character: a letter for a sign
that cannot be seen, up to three octal digits for a byte. In words a zero may stand before the digits, and
`\c` ends all printing.
-/

namespace BuildMender.Host.Escape

/-- The letters of the signs that cannot be seen. -/
def letters : List (Char × Nat) :=
  [('\\', 92), ('a', 7), ('b', 8), ('e', 27), ('f', 12), ('n', 10), ('r', 13), ('t', 9), ('v', 11)]

/-- The byte of at most so many octal digits, and the text after them. -/
def octal : Nat → Nat → Raw → Char × Raw
  | 0, n, t => (Char.ofNat (n % 256), t)
  | _ + 1, n, [] => (Char.ofNat (n % 256), [])
  | k + 1, n, c :: cs =>
    if Numeral.isDigitIn 8 c then octal k (8 * n + (c.toNat - 48)) cs else (Char.ofNat (n % 256), c :: cs)

/-- **The character that a backslash and the text behind it stand for**, and the text after that. A
backslash before anything else stands for itself. -/
def behind (t : Raw) : Char × Raw :=
  match t with
  | [] => ('\\', [])
  | c :: cs =>
    match letters.lookup c with
    | some n => (Char.ofNat n, cs)
    | none => if Numeral.isDigitIn 8 c then octal 3 0 t else ('\\', t)

/-- The text of a word of at most so many characters, and whether it ends all printing. -/
def expandFrom : Nat → Raw → Raw × Bool
  | 0, _ => ([], false)
  | _, [] => ([], false)
  | n + 1, c :: cs =>
    if c ≠ '\\' then
      let (t, ended) := expandFrom n cs
      (c :: t, ended)
    else
      match cs with
      | 'c' :: _ => ([], true)
      | '0' :: cs =>
        let (d, rest) := octal 3 0 cs
        let (t, ended) := expandFrom n rest
        (d :: t, ended)
      | cs =>
        let (d, rest) := behind cs
        let (t, ended) := expandFrom n rest
        (d :: t, ended)

/-- **The text of a word with escapes**, and whether it ends all printing. -/
def expand (t : Raw) : Raw × Bool := expandFrom t.length t

end BuildMender.Host.Escape
