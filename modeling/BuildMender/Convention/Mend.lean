import BuildMender.Convention.Check

/-!
# Mending a broken convention

Two conventions are mended by inserting text. A guard goes below the comments at the top of a header,
with a blank line on each side where there is text; a meta-object include goes to the end of a file.
Both use the line ending the file uses already, and both leave alone a file that needs nothing.
-/

namespace BuildMender.Convention

open Text

/-- The line ending of a text: with a carriage return if one stands before some line feed. -/
def lineEnding (content : Text) : Text := if occurs "\r\n" content then "\r\n" else "\n"

/-- The number of lines the comments at the top take, where `index` lines have been read, the comments
among them end at `found`, and a block comment may be open. -/
def commentLines (index found : Nat) (inBlock : Bool) : List Text → Nat
  | [] => found
  | line :: more =>
    let l := trim line
    if inBlock then
      if occurs "*/" l then commentLines (index + 1) (index + 1) false more
      else commentLines (index + 1) found true more
    else if startsWith "//" l then commentLines (index + 1) (index + 1) false more
    else if startsWith "/*" l then
      if occurs "*/" l then commentLines (index + 1) (index + 1) false more
      else commentLines (index + 1) found true more
    else if l.isEmpty then commentLines (index + 1) found false more
    else found

/-- The lines to put below the comments: the directive, a blank line above it if comments precede it,
and one below it if text follows directly. -/
def guardBlock (directive : Text) (above below : List Text) : List Text :=
  (if above.isEmpty then [] else [[]]) ++ [directive] ++
    match below.head? with
    | some next => if (trim next).isEmpty then [] else [[]]
    | none => []

/-- **A header with the guard put in**, or nothing if it is guarded already. -/
def insertGuard? (directive content : Text) : Option Text :=
  if hasGuard directive content then none
  else
    let ls := lines content
    let n := commentLines 0 0 false ls
    let eol := lineEnding content
    some (join eol (ls.take n ++ guardBlock directive (ls.take n) (ls.drop n) ++ ls.drop n) ++ eol)

/-- **A file with a line put at its end**, below a blank line, or nothing if it has that line. -/
def appendLine? (addition content : Text) : Option Text :=
  if (lines content).any fun l => trim l == addition then none
  else
    let eol := lineEnding content
    let body := if content.isEmpty || endsWith "\n" content then content else content ++ eol
    some ((if body.isEmpty then body else body ++ eol) ++ addition ++ eol)

end BuildMender.Convention
