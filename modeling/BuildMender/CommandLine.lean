import BuildMender.Text.Class

/-!
# Command lines

A command is written as one line and run as a program with arguments. `CommandLine.parse` splits the
line at blanks, except inside quotes; inside double quotes a backslash before a double quote or a
backslash takes that character as it is, and everywhere else a backslash is a character like any
other, so that paths spelled with backslashes survive.

`CommandLine.display` goes the other way and puts double quotes around a word that would not survive
without them.
-/

namespace BuildMender

/-- A program and its arguments. -/
structure CommandLine where
  program : Text
  arguments : List Text
deriving DecidableEq, Inhabited

namespace CommandLine

open Text

/-- Where the reading of a line stands: outside quotes, or inside quotes of one kind. -/
inductive Quotes where
  | outside
  | single
  | double
deriving DecidableEq

/-- The words of a line read on from a word begun, if one has begun. -/
def wordsFrom : Quotes → Option Text → Text → List Text
  | _, word, [] => word.toList
  | .outside, word, c :: cs =>
    if c = '"' then wordsFrom .double (some (word.getD [])) cs
    else if c = '\x27' then wordsFrom .single (some (word.getD [])) cs
    else if isBlank c then word.toList ++ wordsFrom .outside none cs
    else wordsFrom .outside (some (word.getD [] ++ [c])) cs
  | .single, word, c :: cs =>
    if c = '\x27' then wordsFrom .outside word cs
    else wordsFrom .single (some (word.getD [] ++ [c])) cs
  | .double, word, [c] =>
    if c = '"' then word.toList else [word.getD [] ++ [c]]
  | .double, word, c :: d :: cs =>
    if c = '"' then wordsFrom .outside word (d :: cs)
    else if c = '\\' && (d = '"' || d = '\\') then wordsFrom .double (some (word.getD [] ++ [d])) cs
    else wordsFrom .double (some (word.getD [] ++ [c])) (d :: cs)

theorem wordsFrom_double_close (word : Option Text) (rest : Text) :
    wordsFrom .double word ('"' :: rest) = wordsFrom .outside word rest := by
  cases rest <;> simp [wordsFrom]

theorem wordsFrom_double_escaped {c : Char} (hc : c = '\\' ∨ c = '"') (word : Option Text)
    (rest : Text) :
    wordsFrom .double word ('\\' :: c :: rest) = wordsFrom .double (some (word.getD [] ++ [c])) rest := by
  rcases hc with rfl | rfl <;> simp [wordsFrom]

/-- The words of a line. Quotes that are not closed reach to its end. -/
def words (line : Text) : List Text := wordsFrom .outside none line

/-- **A line split into a program and its arguments**; a line without words is no command. -/
def parse (line : Text) : Option CommandLine :=
  match words line with
  | [] => none
  | program :: arguments => some ⟨program, arguments⟩

/-- The text with a backslash before each backslash and each double quote. -/
def escape (word : Text) : Text :=
  word.flatMap fun c => if c = '\\' || c = '"' then ['\\', c] else [c]

/-- A word as it is written on a line: in double quotes if it is empty or holds a blank or a single
quote. -/
def quote (word : Text) : Text :=
  if word.isEmpty || word.any (fun c => isBlank c || c = '\x27') then
    "\"" ++ escape word ++ "\""
  else word

/-- **A command written on one line.** -/
def display (c : CommandLine) : Text := join " " ((c.program :: c.arguments).map quote)

end CommandLine

end BuildMender
