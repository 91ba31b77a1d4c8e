import BuildMender.Host.Program.Search.Order
import BuildMender.Host.Regex.Reading

/-!
# Lines that match

A line matches if a part of it fits one of the patterns. The part may have to be a word, with no other
characters of words around it, or the whole line. Of the parts that begin at the first possible place the
longest is the one that is shown.
-/

namespace BuildMender.Host.Search

/-- What is looked for in lines. -/
structure Matcher where
  expressions : List Regex
  folding : Bool := false
  word : Bool := false
  whole : Bool := false
deriving Inhabited

namespace Matcher

/-- A line as it is looked at. -/
def line (m : Matcher) (t : Raw) : Regex.Line := ⟨t.toArray, m.folding⟩

/-- Whether a part between two places may count. -/
def allows (m : Matcher) (l : Regex.Line) (start stop : Nat) : Bool :=
  (!m.whole || (start = 0 && stop = l.chars.size)) &&
    (!m.word || (!l.hasWordCharBefore start && !l.hasWordChar stop))

/-- The places where parts may end that begin at a place. -/
def ends (m : Matcher) (l : Regex.Line) (start : Nat) : List Nat :=
  m.expressions.flatMap fun r => Regex.ends l r start

/-- Whether a line matches. -/
def fits (m : Matcher) (t : Raw) : Bool :=
  let l := m.line t
  (List.range (t.length + 1)).any fun start => (m.ends l start).any fun stop => m.allows l start stop

/-- The end of the longest part that begins at a place. -/
def longest? (m : Matcher) (l : Regex.Line) (start : Nat) : Option Nat :=
  let es := m.ends l start
  match es.max? with
  | none => none
  | some most => if m.allows l start most then some most
    else ((es.filter fun stop => start < stop && m.allows l start stop).max?)

/-- **The parts of a line that match**, from left to right, as places of their beginnings and ends. Empty
parts are passed over. -/
def parts (m : Matcher) (t : Raw) : List (Nat × Nat) := go (m.line t) (t.length + 1) 0
where
  /-- The parts from a place on, at most so many. -/
  go (l : Regex.Line) : Nat → Nat → List (Nat × Nat)
    | 0, _ => []
    | n + 1, start =>
      if l.chars.size ≤ start then []
      else
        match m.longest? l start with
        | some stop => if start < stop then (start, stop) :: go l n stop else go l n (start + 1)
        | none => go l n (start + 1)

/-- The expression of a line of patterns. -/
def expression (s : Spelling) (t : Raw) : Except Raw Regex.Reading :=
  match s with
  | .fixed => .ok ⟨Regex.literal t, [], false⟩
  | .basic => Regex.read false t
  | .extended => Regex.read true t

/-- What is said of a list between brackets that was meant to be a class. -/
def confusion : Raw := "character class syntax is [[:space:]], not [:space:]".toList

/-- The lines of patterns with what is said in front of what is wrong with them. -/
def numbered (p : PatternLines) : List (Raw × Raw) :=
  match p.file with
  | none => p.lines.map fun t => (t, [])
  | some file => (p.lines.zipIdx 1).map fun (t, n) => (t, file ++ ':' :: Text.decimal n ++ ": ".toList)

/-- Patterns read: the search ends if one of them is wrong. -/
def readAll (s : Spelling) (ps : List (Raw × Raw)) : Job (List Regex) := do
  let read := ps.map fun (t, about) => (expression s t).mapError (about ++ ·)
  let wrong := read.filterMap fun
    | .error e => some e
    | .ok _ => none
  wrong.forM Job.complain
  if !wrong.isEmpty then Job.stop trouble
  let right := read.filterMap Except.toOption
  right.forM fun r => do
    r.warnings.forM fun w => Job.complain ("warning: " ++ w)
    if r.confused then end_ confusion
  return right.map Regex.Reading.regex

/-- **What a search looks for.** -/
def ofOrder (o : Order) : Job Matcher := do
  let patterns := (o.patterns.getD []).flatMap numbered
  let es ← readAll (o.spelling.getD .basic) patterns
  return { expressions := es, folding := o.folding, word := o.word, whole := o.whole }

end Matcher

end BuildMender.Host.Search
