import BuildMender.Host.Raw

/-!
# The text a script is read from

A script is read character by character, and the last character can be put back. Where a word is an
alias, its value is read in place of the word: the value is a layer on top of the text. While a layer
is being read its alias is busy and stands for itself, and it remains so until the character after the
next is read, since the last word of the value is complete only once the character behind it is known.

The text of a script may come in portions. `Source.complete` says that nothing comes after what is there.
-/

namespace BuildMender.Host

/-- Text read before the script goes on. -/
structure Layer where
  /-- The alias whose value it is. -/
  word : Option Raw := none
  rest : Raw
  /-- The character that was read last. -/
  last : Char := '\n'
deriving DecidableEq, Inhabited

/-- A script that is being read. -/
structure Source where
  rest : Raw
  complete : Bool := true
  /-- The number of the line. -/
  line : Nat := 1
  layers : List Layer := []
  /-- The characters of the script that were put back. -/
  back : Raw := []
  /-- How many characters of the script were read. -/
  taken : Nat := 0
  /-- The aliases that stand for themselves. -/
  busy : List Raw := []
  /-- Those of them whose values have been read. -/
  spent : List Raw := []
deriving DecidableEq, Inhabited

namespace Source

/-- Layers without those that have been read: the others, the aliases of those, and whether the value of
one of them ended in a blank. -/
def settle : List Layer → List Layer × List Raw × Bool
  | [] => ([], [], false)
  | l :: ls =>
    if l.rest.isEmpty then
      let (others, aliases, blank) := settle ls
      (others, l.word.toList ++ aliases, (l.word.isSome && (l.last = ' ' || l.last = '\t')) || blank)
    else (l :: ls, [], false)

/-- What comes of reading a character. -/
inductive Drawn where
  | char (c : Char)
  | finish
  /-- The next portion has to come first. -/
  | more
deriving DecidableEq, Inhabited

/-- **A character read**; whether the value of an alias that ends in a blank ended before it, and the
source after that. -/
def next (s : Source) : Drawn × Bool × Source :=
  let s := if s.spent.isEmpty then s
    else { s with busy := s.busy.filter fun a => !s.spent.contains a, spent := [] }
  let (layers, spent, blank) := settle s.layers
  match layers with
  | l :: ls =>
    match l.rest with
    | c :: cs => (.char c, blank, { s with layers := { l with rest := cs, last := c } :: ls, spent := spent })
    | [] => (.finish, blank, s)
  | [] =>
    let s := { s with layers := [], spent := spent }
    match s.back, s.rest with
    | c :: cs, _ => (.char c, blank, { s with back := cs })
    | [], c :: cs => (.char c, blank, { s with rest := cs, taken := s.taken + 1 })
    | [], [] => (if s.complete then .finish else .more, blank, s)

/-- A character put back. -/
def unread (c : Char) (s : Source) : Source :=
  match s.layers with
  | l :: ls => { s with layers := { l with rest := c :: l.rest } :: ls }
  | [] => { s with back := c :: s.back }

/-- Text put in front. -/
def push (word : Option Raw) (t : Raw) (s : Source) : Source :=
  { s with layers := { word := word, rest := t } :: s.layers, busy := word.toList ++ s.busy }

/-- The next portion added. -/
def extend (t : Raw) (s : Source) : Source := { s with rest := s.rest ++ t }

end Source

end BuildMender.Host
