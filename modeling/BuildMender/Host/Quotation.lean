import BuildMender.Host.Raw

/-!
# Quoted names

A name shown to a reader stands between quotes where it could be taken for something else. There are
three ways. In the manner of a shell the name is the word that a shell would read as that name; it is
left as it is where no quotes are needed, unless quotes are wanted always. In the manner of a program
text it stands between double quotes, with escapes for what cannot be seen. And it can have those
escapes and no quotes at all.

Where a reader can choose, each way has a name of its own (`Quotation.Style`).
-/

namespace BuildMender.Host.Quotation

/-- The letters of the escapes of characters that cannot be seen. -/
def letters : List (Nat × Char) :=
  [(7, 'a'), (8, 'b'), (9, 't'), (10, 'n'), (11, 'v'), (12, 'f'), (13, 'r')]

/-- Whether a character shows something or is a space. -/
def isPrinted (c : Char) : Bool := c = ' ' || Raw.isGraphic c

/-- What stands behind the backslash for a character that cannot be seen: a letter, or three octal
digits. -/
def escape (c : Char) : Raw :=
  match letters.lookup c.toNat with
  | some l => [l]
  | none =>
    let digit := fun n => Char.ofNat (48 + n % 8)
    [digit (c.toNat / 64), digit (c.toNat / 8), digit c.toNat]

/-! ### In the manner of a shell -/

/-- The signs that mean something to a shell. -/
def signs : Raw :=
  [' ', '!', '"', '$', '&', '(', ')', '*', ';', '<', '=', '>', '[', '^', '\x60', '|', '\x27', '?', '\\']

/-- Whether a name has no characters, or one that means something to a shell. -/
def hasSigns (r : Raw) : Bool :=
  match r with
  | [] => true
  | c :: cs =>
    c = '#' || c = '~' || (cs.isEmpty && (c = '\x7b' || c = '\x7d')) || r.any fun c => signs.contains c

/-- Whether a name has to be quoted for a shell. -/
def needsQuotes (r : Raw) : Bool := hasSigns r || r.any fun c => !isPrinted c

/-- Whether a character, the first or a later one, means the same between double quotes. -/
def isHarmless (alone first : Bool) (c : Char) : Bool :=
  Raw.isLetter c || Raw.isDigit c || [' ', '\x27', '%', '+', ',', '-', '.', '/', ':', ']', '_', '@'].contains c ||
    (first && (c = '#' || c = '~')) || (alone && (c = '\x7b' || c = '\x7d'))

/-- The characters of a name between single quotes; `escaping` says that those before stand between
quotes of the kind that knows escapes. -/
def shellBody (escaping : Bool) : Raw → Raw
  | [] => []
  | c :: cs =>
    if c = '\x27' then ['\x27', '\\', '\x27', '\x27'] ++ shellBody false cs
    else if isPrinted c then
      (if escaping then ['\x27', '\x27'] else []) ++ c :: shellBody false cs
    else (if escaping then [] else ['\x27', '$', '\x27']) ++ '\\' :: escape c ++ shellBody true cs

/-- Whether all characters of a name mean the same between double quotes. -/
def areHarmless : Raw → Bool
  | [] => true
  | c :: cs => isHarmless cs.isEmpty true c && cs.all (isHarmless false false)

/-- **A name as a word of a shell**, always quoted. -/
def shellAlways (r : Raw) : Raw :=
  if r.contains '\x27' && areHarmless r then '"' :: r ++ ['"']
  else '\x27' :: shellBody false r ++ ['\x27']

/-- A name as a word of a shell, quoted where that is needed. -/
def shell (r : Raw) : Raw := if needsQuotes r then shellAlways r else r

/-- A name as a word of a shell before a colon, quoted where that is needed. -/
def beforeColon (r : Raw) : Raw := if r.contains ':' || needsQuotes r then shellAlways r else r

/-! ### With escapes -/

/-- The characters of a name with escapes, also for those in `also`. -/
def escaped (also : Raw) (r : Raw) : Raw :=
  r.flatMap fun c =>
    if c = '\\' ∨ also.contains c then ['\\', c]
    else if isPrinted c then [c]
    else '\\' :: escape c

/-- A name between double quotes, with escapes. -/
def double (r : Raw) : Raw := '"' :: escaped ['"'] r ++ ['"']

/-- A word between single quotes, with escapes. -/
def single (r : Raw) : Raw := '\x27' :: escaped ['\x27'] r ++ ['\x27']

/-! ### Styles -/

/-- The ways to show a name. -/
inductive Style where
  /-- As it is. -/
  | literal
  /-- As a word of a shell that knows no escapes, where that is needed. -/
  | plain
  | plainAlways
  | shell
  | shellAlways
  | double
  /-- Between double quotes where that is needed. -/
  | doubleIfNeeded
  | escapes
  | single
deriving DecidableEq, Inhabited

/-- A name as a word of a shell that knows no escapes. -/
def plainAlways (r : Raw) : Raw :=
  if r.contains '\x27' && areHarmless r then '"' :: r ++ ['"']
  else '\x27' :: (r.flatMap fun c => if c = '\x27' then ['\x27', '\\', '\x27', '\x27'] else [c]) ++ ['\x27']

/-- **A name in a style.** The characters in `also` count as special. -/
def Style.quote (s : Style) (also : Raw) (r : Raw) : Raw :=
  let special := r.any also.contains
  match s with
  | .literal => r
  | .plain => if special || hasSigns r || r.any ['\t', '\n', '\r'].contains then Quotation.plainAlways r else r
  | .plainAlways => Quotation.plainAlways r
  | .shell => if special || needsQuotes r then Quotation.shellAlways r else r
  | .shellAlways => Quotation.shellAlways r
  | .double => '"' :: escaped ('"' :: also) r ++ ['"']
  | .doubleIfNeeded =>
    if special || r.any fun c => c = '"' || !isPrinted c then Quotation.double r else r
  | .escapes => escaped also r
  | .single => '\x27' :: escaped ('\x27' :: also) r ++ ['\x27']

end BuildMender.Host.Quotation
