import BuildMender.Host.Raw

/-!
# Regular expressions

A regular expression says which parts of a line fit it. `Regex.ends` says where a part may end that begins
at a place: at all the places to which some way through the expression leads. So the longest part that fits
is known, and so is whether any part fits that meets another condition as well.

Parts that were matched by a group can be asked for again. A way through the expression therefore carries
what its groups have matched.
-/

namespace BuildMender.Host

/-- What an item of a list between brackets stands for. -/
inductive ListItem where
  | span (first last : Char)
  | class (name : Raw)
deriving DecidableEq, Inhabited

/-- What stands for a single character. -/
inductive Spot where
  | char (c : Char)
  /-- Every character that is not zero. -/
  | any
  | list (inverted : Bool) (items : List ListItem)
  /-- The characters of words, or all others. -/
  | word (inverted : Bool)
  /-- The blanks, or all others. -/
  | blank (inverted : Bool)
deriving DecidableEq, Inhabited

/-- A condition on a place in a line. -/
inductive Assertion where
  | lineStart
  | lineEnd
  | wordStart
  | wordEnd
  /-- Where a word begins or ends. -/
  | edge
  | notEdge
deriving DecidableEq, Inhabited

/-- A regular expression. -/
inductive Regex where
  | empty
  | one (s : Spot)
  | assert (a : Assertion)
  | both (first second : Regex)
  | either (first second : Regex)
  | many (body : Regex) (least : Nat) (most : Option Nat)
  | group (n : Nat) (body : Regex)
  /-- What a group has matched. -/
  | again (n : Nat)
deriving DecidableEq, Inhabited

/-! ### Characters -/

/-- Whether a character belongs to a word. -/
def Raw.isWordChar (c : Char) : Bool := Raw.isNameChar c

/-- Whether a character is an item of a list. -/
def ListItem.fits (c : Char) : ListItem → Bool
  | .span a b => a ≤ c && c ≤ b
  | .class name => (Raw.class? name).any fun p => p c

/-- Whether a character fits; capitals may count as small letters. -/
def Spot.fits (folding : Bool) (s : Spot) (c : Char) : Bool :=
  let forms := if folding then [Raw.small c, Raw.capital c] else [c]
  match s with
  | .char d => if folding then Raw.small c = Raw.small d else c = d
  | .any => c.toNat ≠ 0
  | .list inverted items => (items.any fun i => forms.any fun c => i.fits c) != inverted
  | .word inverted => Raw.isWordChar c != inverted
  | .blank inverted => Raw.isSpace c != inverted

namespace Regex

/-! ### Matching -/

/-- A line in which parts are looked for. -/
structure Line where
  chars : Array Char
  /-- Whether capitals count as small letters. -/
  folding : Bool := false
deriving Inhabited

/-- Where a way through an expression has come to, and what its groups have matched. -/
structure Way where
  at_ : Nat
  groups : List (Nat × Nat × Nat) := []
deriving DecidableEq, Inhabited

/-- Whether a character of a word stands at a place. -/
def Line.hasWordChar (l : Line) (n : Nat) : Bool := (l.chars[n]?).any Raw.isWordChar

/-- Whether a character of a word stands before a place. -/
def Line.hasWordCharBefore (l : Line) (n : Nat) : Bool := 0 < n && l.hasWordChar (n - 1)

/-- Whether a condition holds at a place. -/
def Assertion.holds (l : Line) (n : Nat) : Assertion → Bool
  | .lineStart => n = 0
  | .lineEnd => n = l.chars.size
  | .wordStart => !l.hasWordCharBefore n && l.hasWordChar n
  | .wordEnd => l.hasWordCharBefore n && !l.hasWordChar n
  | .edge => l.hasWordCharBefore n != l.hasWordChar n
  | .notEdge => l.hasWordCharBefore n == l.hasWordChar n

/-- Whether two characters are the same. -/
def Line.same (l : Line) (a b : Option Char) : Bool :=
  if l.folding then a.map Raw.small == b.map Raw.small else a == b

/-- Ways without repetition. -/
def distinct (ws : List Way) : List Way :=
  (ws.foldl (fun seen w => if seen.contains w then seen else w :: seen) []).reverse

/-- A step taken so many times, or until it leads nowhere new. -/
def times (step : Way → List Way) : Nat → List Way → List Way
  | 0, ws => ws
  | n + 1, ws =>
    let next := distinct (ws.flatMap step)
    if next = ws then ws else times step n next

/-- All ways to which a step leads that is taken at most so many times, besides those known. -/
def closure (step : Way → List Way) : Nat → List Way → List Way → List Way
  | 0, known, _ => known
  | n + 1, known, front =>
    let next := (distinct (front.flatMap step)).filter fun w => !known.contains w
    if next.isEmpty then known else closure step n (known ++ next) next

/-- **The ways through an expression** that go on from a way. -/
def ways (l : Line) : Regex → Way → List Way
  | .empty, w => [w]
  | .one s, w =>
    match l.chars[w.at_]? with
    | some c => if s.fits l.folding c then [{ w with at_ := w.at_ + 1 }] else []
    | none => []
  | .assert a, w => if Assertion.holds l w.at_ a then [w] else []
  | .both a b, w => distinct ((ways l a w).flatMap (ways l b))
  | .either a b, w => distinct (ways l a w ++ ways l b w)
  | .many r least most, w =>
    let start := times (ways l r) least [w]
    closure (ways l r) ((most.map (· - least)).getD (l.chars.size + 1)) start start
  | .group n r, w => (ways l r w).map fun v =>
    { v with groups := (n, w.at_, v.at_) :: v.groups.filter fun g => g.1 ≠ n }
  | .again n, w =>
    match w.groups.lookup n with
    | none => []
    | some (a, b) =>
      let fits := (List.range (b - a)).all fun i =>
        w.at_ + i < l.chars.size && l.same (l.chars[a + i]?) (l.chars[w.at_ + i]?)
      if fits then [{ w with at_ := w.at_ + (b - a) }] else []

/-- Where the parts may end that begin at a place. -/
def ends (l : Line) (r : Regex) (start : Nat) : List Nat := (ways l r { at_ := start }).map Way.at_

/-- The expression for a text that stands for itself. -/
def literal (t : Raw) : Regex := t.foldr (fun c r => .both (.one (.char c)) r) .empty

end Regex

end BuildMender.Host
