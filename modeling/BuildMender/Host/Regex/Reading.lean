import BuildMender.Host.Numeral
import BuildMender.Host.Regex

/-!
# Reading regular expressions

There are two spellings. In the basic one the signs for groups, alternatives and repetition stand behind
backslashes, except for the star; in the extended one they are bare, and the characters themselves stand
behind backslashes. A sign of repetition that has nothing to repeat is a character in the basic spelling,
and repeats nothing, with a warning, in the extended one.

An expression is read symbol by symbol (`Regex.nextSymbol`), and what is wrong is found at the first symbol
that cannot be.
-/

namespace BuildMender.Host.Regex

/-- A symbol of an expression. -/
inductive Symbol where
  | finish
  | one (s : Spot)
  | assert (a : Assertion)
  | again (n : Nat)
  | repeats (least : Nat) (most : Option Nat)
  | bar
  | opening (n : Nat)
  | closing
deriving DecidableEq, Inhabited

/-- An expression that is being read. -/
structure Draft where
  rest : Raw
  extended : Bool
  symbol : Symbol := .finish
  /-- Whether nothing has been read that could be repeated. -/
  fresh : Bool := true
  /-- Whether an expression begins here. -/
  leading : Bool := true
  /-- How many groups are open. -/
  depth : Nat := 0
  /-- How many groups have been opened. -/
  groups : Nat := 0
  /-- The groups that have been closed. -/
  closed : List Nat := []
  /-- The last first. -/
  warnings : List Raw := []
  /-- Whether a list between brackets was meant to be a class. -/
  confused : Bool := false
deriving Inhabited

/-- An action of reading an expression, which can be wrong. -/
abbrev Drafting := EStateM Raw Draft

/-! ### Lists between brackets -/

/-- An element of a list, and whether a range may begin with it. -/
inductive ListElement where
  | char (c : Char)
  | class (name : Raw)
deriving DecidableEq, Inhabited

/-- What is wrong with a list that has no end. -/
def endlessList : Raw := "Unmatched [, [^, [:, [., or [=".toList

/-- The longest name between a bracket and a sign, and its end. -/
def longestName : Nat := 32

/-- The name up to a sign and a bracket, of at most so many characters, and the text after it. -/
def nameTo (sign : Char) : Nat → Raw → Option (Raw × Raw)
  | 0, _ => none
  | _, [] => none
  | _, [_] => none
  | n + 1, c :: d :: t =>
    if c = sign ∧ d = ']' then some ([], t)
    else (nameTo sign n (d :: t)).map fun (name, rest) => (c :: name, rest)

/-- The element of a list behind a bracket and a sign. -/
def namedElement (sign : Char) (t : Raw) : Except Raw (ListElement × Raw) :=
  match nameTo sign longestName t with
  | none => .error endlessList
  | some (name, rest) =>
    if sign = ':' then
      if (Raw.class? name).isSome then .ok (.class name, rest) else .error "Invalid character class name".toList
    else
      match name with
      | [c] => .ok (.char c, rest)
      | _ => .error "Invalid collation character".toList

/-- The next element of a list. -/
def element (t : Raw) : Except Raw (ListElement × Raw) :=
  match t with
  | [] => .error endlessList
  | '[' :: c :: rest => if c = ':' ∨ c = '.' ∨ c = '=' then namedElement c rest else .ok (.char '[', c :: rest)
  | c :: rest => .ok (.char c, rest)

/-- The items of a list that has been begun, at most so many, and the text after its end; also, its
characters as far as they stand for themselves, and whether all do. -/
structure ListRead where
  items : List ListItem := []
  letters : Raw := []
  plain : Bool := true
  rest : Raw := []
deriving Inhabited

/-- What is wrong with a range. -/
def wrongRange : Raw := "Invalid range end".toList

/-- The items of a list. A bracket that is the first is a character, and so is a minus sign that is the
first or the last. -/
def items : Nat → Bool → Raw → Except Raw ListRead
  | 0, _, _ => .error endlessList
  | n + 1, first, t =>
    match t with
    | [] => .error endlessList
    | ']' :: rest => if first then after n ']' rest else .ok { rest := rest }
    | '-' :: rest => if first ∨ rest.head? = some ']' then after n '-' rest else .error wrongRange
    | t =>
      match element t with
      | .error e => .error e
      | .ok (.class name, rest) =>
        (items n false rest).map fun r => { r with items := .class name :: r.items, plain := false }
      | .ok (.char c, rest) =>
        (after n c rest).map fun r => if t.head? = some c ∧ rest.length + 1 = t.length then r
          else { r with plain := false }
where
  /-- The items of a list from a character on. -/
  after (n : Nat) (c : Char) (t : Raw) : Except Raw ListRead :=
    match t with
    | '-' :: ']' :: _ => alone n c t
    | ['-'] => .error endlessList
    | '-' :: t =>
      match element t with
      | .error e => .error e
      | .ok (.class _, _) => .error wrongRange
      | .ok (.char d, rest) =>
        if d < c then .error wrongRange
        else (items n false rest).map fun r => { r with items := .span c d :: r.items, plain := false }
    | t => alone n c t
  /-- The items of a list from a character on that is no part of a range. -/
  alone (n : Nat) (c : Char) (t : Raw) : Except Raw ListRead :=
    (items n false t).map fun r => { r with items := .span c c :: r.items, letters := c :: r.letters }

/-- Whether a list looks like a class that lacks its brackets. -/
def looksLikeClass (r : ListRead) : Bool :=
  r.plain && r.letters.head? = some ':' && r.letters.getLast? = some ':' && r.letters.any (· ≠ ':')

/-- A list between brackets behind the first of them. -/
def list : Drafting Symbol := do
  let d ← get
  let inverted := d.rest.head? = some '^'
  let t := if inverted then d.rest.tail else d.rest
  if t.isEmpty then throw "Invalid regular expression".toList
  match items (t.length + 1) true t with
  | .error e => throw e
  | .ok r =>
    set { d with rest := r.rest, confused := d.confused || looksLikeClass r }
    return .one (.list inverted r.items)

/-! ### Intervals -/

/-- The greatest number of an interval. -/
def greatest : Nat := 32767

/-- How a number of an interval ends. -/
inductive Stop where
  | comma
  | closed
  | ended
deriving DecidableEq, Inhabited

/-- A number of an interval. -/
inductive Bound where
  | missing
  | wrong
  | number (n : Nat)
deriving DecidableEq, Inhabited

/-- The text up to the end of a number, how that comes, and the text after it. -/
def boundText (extended : Bool) : Raw → Raw × Stop × Raw
  | [] => ([], .ended, [])
  | ',' :: t => ([], .comma, t)
  | '\\' :: '}' :: t =>
    if extended then
      let (b, s, rest) := boundText extended t
      ('\\' :: b, s, rest)
    else ([], .closed, t)
  | c :: t =>
    if extended ∧ c = '}' then ([], .closed, t)
    else
      let (b, s, rest) := boundText extended t
      (c :: b, s, rest)

/-- A number of an interval, how it ends, and the text after it. -/
def bound (extended : Bool) (t : Raw) : Bound × Stop × Raw :=
  let (b, s, rest) := boundText extended t
  let n := if s = .ended then .wrong
    else if b.isEmpty then .missing
    else if b.all Raw.isDigit then .number (min (greatest + 1) (Numeral.valueIn 10 b))
    else .wrong
  (n, s, rest)

/-- What is read of an interval: its numbers, or that there is none. -/
inductive IntervalRead where
  | interval (least : Nat) (most : Option Nat) (rest : Raw)
  | none
  | wrong (message : Raw)
deriving DecidableEq, Inhabited

/-- What is wrong with the content of an interval. -/
def wrongContent : Raw := "Invalid content of \\\x7b\\\x7d".toList

/-- An interval behind its opening brace. -/
def interval (extended : Bool) (t : Raw) : IntervalRead :=
  let noInterval := fun (s : Stop) =>
    if extended then .none else .wrong (if s = .ended then "Unmatched \\\x7b".toList else wrongContent)
  let (a, s, rest) := bound extended t
  match a, s with
  | .wrong, s => noInterval s
  | .missing, .closed => .wrong wrongContent
  | a, s =>
    let least := match a with
      | .number n => n
      | _ => 0
    let (b, s, rest) := if s = .comma then bound extended rest else (.number least, s, rest)
    match b with
    | .wrong => noInterval s
    | b =>
      let most := match b with
        | .number n => some n
        | _ => Option.none
      if s ≠ .closed ∨ most.any (· < least) then .wrong wrongContent
      else if greatest < most.getD least then .wrong "Regular expression too big".toList
      else .interval least most rest

/-! ### Symbols -/

/-- A warning. -/
def warn (t : Raw) : Drafting Unit := modify fun d => { d with warnings := t :: d.warnings }

/-- A symbol that stands for a single character. -/
def spot (s : Spot) : Drafting Symbol := do
  modify fun d => { d with fresh := false }
  return .one s

/-- A sign of repetition, which is a character where the basic spelling has nothing to repeat. -/
def repetition (sign : Char) (least : Nat) (most : Option Nat) : Drafting Symbol := do
  let d ← get
  if d.fresh then
    if !d.extended then spot (.char sign)
    else
      warn ([sign] ++ " at start of expression".toList)
      return .repeats least most
  else return .repeats least most

/-- What stands behind an opening brace. -/
def openBrace : Drafting Symbol := do
  let d ← get
  match interval d.extended d.rest with
  | .interval least most rest =>
    if d.fresh then
      if !d.extended then spot (.char '\x7b')
      else
        warn "{...} at start of expression".toList
        set { ← get with rest := rest, fresh := false }
        return .repeats least most
    else
      set { d with rest := rest }
      return .repeats least most
  | .none => spot (.char '\x7b')
  | .wrong message => if d.fresh then spot (.char '\x7b') else throw message

/-- The conditions that stand behind a backslash. -/
def assertions : List (Char × Assertion) :=
  [('<', .wordStart), ('>', .wordEnd), ('b', .edge), ('B', .notEdge), ('\x60', .lineStart),
    ('\x27', .lineEnd)]

/-- The kinds of characters that stand behind a backslash. -/
def kinds : List (Char × Spot) :=
  [('w', .word false), ('W', .word true), ('s', .blank false), ('S', .blank true)]

/-- Whether a basic expression ends here, or one inside of it. -/
def endsBasic : Raw → Bool
  | [] => true
  | '\\' :: c :: _ => c = ')' || c = '|'
  | c :: _ :: _ => c = ')' || c = '|'
  | _ => false

/-- The symbol of a character, with a backslash or without. -/
def symbol (escaped : Bool) (c : Char) : Drafting Symbol := do
  let d ← get
  let isSign := escaped != d.extended
  match if escaped then assertions.lookup c else none, if escaped then kinds.lookup c else none with
  | some a, _ => return .assert a
  | _, some s => spot s
  | none, none =>
    if escaped && '1' ≤ c && c ≤ '9' then
      set { d with fresh := false }
      return .again (c.toNat - 48)
    else if !escaped && c = '.' then spot .any
    else if !escaped && c = '[' then
      set { d with fresh := false }
      list
    else if !escaped && c = '^' && (d.extended || d.leading) then return .assert .lineStart
    else if !escaped && c = '$' && (d.extended || endsBasic d.rest) then return .assert .lineEnd
    else if !escaped && c = '*' then repetition c 0 none
    else if isSign && c = '+' then repetition c 1 none
    else if isSign && c = '?' then repetition c 0 (some 1)
    else if isSign && c = '\x7b' then openBrace
    else if isSign && c = '|' then
      set { d with fresh := true }
      return .bar
    else if isSign && c = '(' then
      set { d with fresh := true, depth := d.depth + 1, groups := d.groups + 1 }
      return .opening (d.groups + 1)
    else if isSign && c = ')' && (0 < d.depth || !d.extended) then
      if d.depth = 0 then throw "Unmatched ) or \\)".toList
      set { d with fresh := false, depth := d.depth - 1 }
      return .closing
    else spot (.char c)

/-- **The next symbol.** -/
def nextSymbol : Drafting Unit := do
  let d ← get
  let s ← match d.rest with
    | [] => pure .finish
    | ['\\'] => throw "Trailing backslash".toList
    | '\\' :: c :: rest => do
      set { d with rest := rest }
      symbol true c
    | c :: rest => do
      set { d with rest := rest }
      symbol false c
  let leading := match s with
    | .bar | .opening _ => true
    | _ => false
  modify fun d => { d with symbol := s, leading := leading }

/-! ### Expressions -/

/-- An expression repeated as the signs behind it say, at most so many. -/
def repeated : Nat → Regex → Drafting Regex
  | 0, r => pure r
  | n + 1, r => do
    match (← get).symbol with
    | .repeats least most =>
      nextSymbol
      repeated n (if most = some 0 then .empty else .many r least most)
    | _ => return r

/-- The smallest part of an expression, where groups are read by `inner`. -/
def atom (inner : Drafting Regex) : Drafting Regex := do
  match (← get).symbol with
  | .one s =>
    nextSymbol
    return .one s
  | .assert a =>
    nextSymbol
    return .assert a
  | .again n =>
    if !(← get).closed.contains n then throw "Invalid back reference".toList
    nextSymbol
    return .again n
  | .opening n =>
    nextSymbol
    let r ← inner
    if (← get).symbol ≠ .closing then throw "Unmatched ( or \\(".toList
    modify fun d => { d with closed := n :: d.closed }
    nextSymbol
    return .group n r
  | _ => return .empty

/-- Parts one after the other, at most so many, up to a bar or the end of a group. -/
def branch (inner : Drafting Regex) : Nat → Drafting Regex
  | 0 => pure .empty
  | n + 1 => do
    let first ← repeated (n + 1) (← atom inner)
    match (← get).symbol with
    | .bar | .closing | .finish => return first
    | _ => return .both first (← branch inner n)

/-- Alternatives, at most so many. -/
def alternatives (inner : Drafting Regex) (size : Nat) : Nat → Drafting Regex
  | 0 => pure .empty
  | n + 1 => do
    let first ← branch inner size
    match (← get).symbol with
    | .bar =>
      nextSymbol
      return .either first (← alternatives inner size n)
    | _ => return first

/-- An expression whose groups are nested to a depth. -/
def expression (size : Nat) : Nat → Drafting Regex
  | 0 => pure .empty
  | depth + 1 => alternatives (expression size depth) size size

/-- An expression that was read, with what has to be said about it. -/
structure Reading where
  regex : Regex
  warnings : List Raw
  /-- Whether a list between brackets was meant to be a class. -/
  confused : Bool
deriving Inhabited

/-- **The regular expression that a text spells**, or what is wrong with it. -/
def read (extended : Bool) (t : Raw) : Except Raw Reading :=
  let size := t.length + 2
  let reading : Drafting Regex := do
    nextSymbol
    expression size size
  match reading.run { rest := t, extended := extended } with
  | .ok r d => .ok ⟨r, d.warnings.reverse, d.confused⟩
  | .error e _ => .error e

end BuildMender.Host.Regex
