import BuildMender.Text.Basic

/-!
# Lines

A line ends at a line feed; one carriage return before that line feed belongs to the ending. A text
that ends with a line feed has no further empty line after it, and the empty text has no lines.

`Text.lines` gives the lines without their endings and `Text.rawLines` the lines with them; the
latter, put end to end, are the text (`Text.flatten_rawLines`).
-/

namespace BuildMender.Text

/-- The lines of a text, each with its line feed. -/
def rawLines : Text → List Text
  | [] => []
  | c :: cs =>
    if c = '\n' then ['\n'] :: rawLines cs
    else match rawLines cs with
      | [] => [[c]]
      | line :: more => (c :: line) :: more

@[simp] theorem flatten_rawLines (t : Text) : (rawLines t).flatten = t := by
  induction t with
  | nil => rfl
  | cons c cs ih =>
    rw [rawLines]
    split
    · rename_i h
      simp [ih, h]
    · split
      · rename_i h
        rw [h] at ih
        simp at ih
        simp [← ih]
      · rename_i h
        rw [h] at ih
        simp [← ih]

/-- A line without its ending: the line feed, and one carriage return before it. -/
def withoutEnding (line : Text) : Text :=
  match before? "\n" line with
  | none => line
  | some l => (before? "\r" l).getD l

/-- The lines of a text, without their endings. -/
def lines (t : Text) : List Text := (rawLines t).map withoutEnding

/-- Each line followed by a line feed. -/
def unlines (ls : List Text) : Text := (ls.map (· ++ ['\n'])).flatten

end BuildMender.Text
