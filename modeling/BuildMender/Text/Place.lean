import BuildMender.Text.Word
import BuildMender.Text.Case

/-!
# Places in a text

A search for a pattern with words in it looks at places: what is left of the text from there on, and
the character just before. `Text.anywhere` tries every place from left to right, `Text.atLineStart`
the places where a line begins.
-/

namespace BuildMender.Text

/-- Whether a test holds at some place, where `previous` is the character before the text. -/
def anywhereFrom (test : Option Char → Text → Bool) (previous : Option Char) : Text → Bool
  | [] => test previous []
  | c :: cs => test previous (c :: cs) || anywhereFrom test (some c) cs

/-- Whether a test holds at some place of a text. -/
def anywhere (test : Option Char → Text → Bool) (t : Text) : Bool := anywhereFrom test none t

/-- A place where a line begins. -/
def atLineStart (previous : Option Char) : Bool := previous.all (· = '\n')

/-- A given text stands here as a word of its own. -/
def wordHere (word : Text) (previous : Option Char) (rest : Text) : Bool :=
  boundary previous rest &&
    match after? word rest with
    | some after => boundary word.getLast? after
    | none => false

/-- A pattern stands here as a word of its own, read without regard to case. -/
def foldedWordHere (word : Text) (previous : Option Char) (rest : Text) : Bool :=
  boundary previous rest &&
    match afterFolded? word rest with
    | some after => boundary word.getLast? after
    | none => false

/-- The text after a run of characters of a class, of which there must be at least one. -/
def afterSome? (p : Char → Bool) (t : Text) : Option Text :=
  match t with
  | c :: cs => if p c then some (cs.dropWhile p) else none
  | [] => none

/-- The text up to the end of its first line. -/
def restOfLine (t : Text) : Text := t.takeWhile (· ≠ '\n')

end BuildMender.Text
