import BuildMender.Host.Numeral

/-!
# The order of names with numbers

In this order numbers inside of names count as numbers, so that `part2` comes before `part10`. What is left
of two names is compared piece by piece: first the characters in front of the next digits, then the numbers
that follow. In front of digits a tilde comes before the end of a name, the end before a digit, then letters,
then all other signs.

Endings such as `.c` or `.tar.gz` count only for names that are the same without them. Names with a dot in
front come first.
-/

namespace BuildMender.Host.Version

/-- The place of the first character of a text among those that may stand in front of digits. -/
def rank : Raw → Int
  | [] => -1
  | c :: _ =>
    if Raw.isDigit c then 0
    else if Raw.isLetter c then c.toNat
    else if c = '~' then -2
    else c.toNat + 256

/-- Whether a text begins with a character that is no digit. -/
def hasSign : Raw → Bool
  | [] => false
  | c :: _ => !Raw.isDigit c

/-- The number at the beginning of a text; no digits are zero. -/
def number (t : Raw) : Nat := Numeral.valueIn 10 (t.takeWhile Raw.isDigit)

/-- Texts compared piece by piece, with at most so many pieces. -/
def comparePieces : Nat → Raw → Raw → Ordering
  | 0, _, _ => .eq
  | n + 1, a, b =>
    if hasSign a || hasSign b then
      (compare (rank a) (rank b)).then (comparePieces n a.tail b.tail)
    else if a.isEmpty && b.isEmpty then .eq
    else
      (compare (number a) (number b)).then
        (comparePieces n (a.dropWhile Raw.isDigit) (b.dropWhile Raw.isDigit))

/-- Two texts compared piece by piece. -/
def compareTexts (a b : Raw) : Ordering := comparePieces (a.length + b.length + 1) a b

/-! ### Endings -/

/-- Whether a text is a dot, a letter or tilde, and letters, digits and tildes. -/
def isEnding : Raw → Bool
  | '.' :: c :: cs =>
    (Raw.isLetter c || c = '~') && cs.all fun d => Raw.isLetter d || Raw.isDigit d || d = '~'
  | _ => false

/-- The last dot of a text and all behind it, and what is in front of it. -/
def atLastDot (t : Raw) : Raw × Raw :=
  let r := t.reverse
  ((r.dropWhile (· ≠ '.')).drop 1 |>.reverse, (r.takeWhile (· ≠ '.')).reverse)

/-- A name without its endings, of at most so many. A name is not nothing but endings. -/
def withoutEndings : Nat → Raw → Raw
  | 0, t => t
  | n + 1, t =>
    let (front, back) := atLastDot t
    if !front.isEmpty && isEnding ('.' :: back) then withoutEndings n front else t

/-- A name without its endings. -/
def stem (t : Raw) : Raw := withoutEndings t.length t

/-! ### Names -/

/-- The place of a name among those with a dot in front, and before and after those. -/
def group (t : Raw) : Nat :=
  match t with
  | [] => 0
  | ['.'] => 1
  | ['.', '.'] => 2
  | '.' :: _ => 3
  | _ => 4

/-- **The order of names with numbers.** Names that it takes for equal are in the order of their bytes. -/
def order (a b : Raw) : Ordering :=
  ((compare (group a) (group b)).then ((compareTexts (stem a) (stem b)).then (compareTexts a b))).then
    (if Raw.before a b then .lt else if Raw.before b a then .gt else .eq)

end BuildMender.Host.Version
