import BuildMender.Host.Raw

/-!
# Scripts

A script is made of commands, and a command of words and of commands inside it. A word is not yet a text:
it has parts that stand for something else, the value of a parameter, the output of a command or a sum.
The one thing to know is that quotes leave two traces in a word. Each quoted character is marked as such,
since it cannot be part of a pattern; and each quote leaves a mark of its own, since a quoted word is a
word even if it is empty.

The text behind `<<` comes after the line that asks for it, so a command only has its number.
-/

namespace BuildMender.Host

/-- What is made of a parameter. -/
inductive Usage where
  /-- What stands behind the name means nothing. -/
  | wrong
  /-- Its value. -/
  | value
  /-- Its value, or else the word. -/
  | otherwise
  /-- The word, if it has a value. -/
  | instead
  /-- Its value, or else an error. -/
  | demand
  /-- Its value, or else the word, which becomes its value. -/
  | assign
  /-- Its value without a part at one of its ends that fits the word. -/
  | trim (atStart longest : Bool)
  | length
deriving DecidableEq, Inhabited

/-- What a redirected descriptor is for. -/
inductive FileUse where
  | read
  | write
  /-- To write, also to a file that is there and must be kept otherwise. -/
  | overwrite
  | append
  | both
deriving DecidableEq, Inhabited

mutual

/-- A part of a word. -/
inductive Piece where
  | char (c : Char) (quoted : Bool)
  | quote
  /-- A parameter; the colon says that an empty value counts as none. -/
  | parameter (name : Raw) (usage : Usage) (colon : Bool) (word : List Piece)
  /-- The output of commands. -/
  | output (body : Option Node)
  | sum (expression : List Piece)

/-- Where a redirection leads. -/
inductive Target where
  | file (use : FileUse) (name : List Piece)
  /-- Where a descriptor leads. -/
  | descriptor (n : Nat)
  | closed
  /-- Where the descriptor leads whose number is the word. -/
  | computed (number : List Piece)
  /-- To the text with a number. -/
  | document (number : Nat)

/-- A redirection of a descriptor. -/
inductive Redirection where
  | mk (descriptor : Nat) (target : Target)

/-- A command. Where one begins with words, it has the number of its line. -/
inductive Node where
  | simple (line : Nat) (assignments words : List (List Piece)) (redirections : List Redirection)
  | pipeline (stages : List Node) (background : Bool)
  | redirected (line : Nat) (body : Node) (redirections : List Redirection)
  | background (line : Nat) (body : Node) (redirections : List Redirection)
  | subshell (line : Nat) (body : Node) (redirections : List Redirection)
  | both (first second : Node)
  | either (first second : Node)
  | sequence (first second : Node)
  | negation (body : Node)
  | choice (test yes : Node) (no : Option Node)
  /-- A loop that goes on while its test succeeds, or until it does. -/
  | loop (untilTrue : Bool) (test body : Node)
  | each (line : Nat) (name : Raw) (words : List (List Piece)) (body : Node)
  | select (line : Nat) (word : List Piece) (cases : List (List (List Piece) × Option Node))
  | define (line : Nat) (name : Raw) (body : Node)

end

/-- A word. -/
abbrev Word := List Piece

/-- A text behind `<<`; expanded says whether its parts stand for something else. -/
structure Document where
  expanded : Bool
  text : Word

instance : Inhabited Piece := ⟨.quote⟩
instance : Inhabited Target := ⟨.closed⟩
instance : Inhabited Redirection := ⟨.mk 0 .closed⟩
instance : Inhabited Node := ⟨.simple 0 [] [] []⟩
instance : Inhabited Document := ⟨⟨false, []⟩⟩

namespace Word

/-- The text of a word without quotes and without parts that stand for something else. -/
def plain? (w : Word) : Option Raw := w.mapM fun
  | .char c false => some c
  | _ => none

/-- The characters at the beginning of a word that are not quoted, as far as a name goes. -/
def nameOf : Word → Raw
  | .char c false :: w => if Raw.isNameChar c then c :: nameOf w else []
  | _ => []

/-- Whether a word is an assignment: a name and an equals sign. -/
def isAssignment (w : Word) : Bool :=
  let name := nameOf w
  Raw.isName name && match w.drop name.length with
    | .char '=' false :: _ => true
    | _ => false

/-- The characters of a word, quoted or not. -/
def letters (w : Word) : Raw := w.filterMap fun
  | .char c _ => some c
  | _ => none

end Word

end BuildMender.Host
