import BuildMender.Text.Class
import BuildMender.Text.Line

/-!
# Unified diffs

A text is taken for a unified diff when it holds all three of a diff's marks. The files it touches are
read off its headers: the new name of each file, or the old name of a file that is deleted.
-/

namespace BuildMender.Diff

open Text

/-- Whether a text holds the three marks of a unified diff. -/
def hasMarkers (t : Text) : Bool := occurs "@@" t && occurs "---" t && occurs "+++" t

/-- The file named in a header, up to a tab, without quotes and without the side it is on. The null
device is no file. -/
def headerPath? (rest : Text) : Option Text :=
  let quoted := fun c => c == '"'
  let name := dropEnd quoted (dropStart quoted (trim (rest.takeWhile (· ≠ '\t'))))
  if name.isEmpty || name == "/dev/null".toList then none
  else some (((after? "a/" name).orElse fun _ => after? "b/" name).getD name)

/-- A list with an entry put at its end, unless it holds the entry already. -/
def insertNew (names : List Text) (name : Text) : List Text :=
  if names.contains name then names else names ++ [name]

/-- The files named in some lines, added to those already found; `old` is the last old name that is
not used up. -/
def targetsFrom (found : List Text) (old : Option Text) : List Text → List Text
  | [] => found
  | line :: more =>
    match after? "--- " line with
    | some rest => targetsFrom found (headerPath? rest) more
    | none =>
      match after? "+++ " line with
      | none => targetsFrom found old more
      | some rest =>
        match headerPath? rest with
        | some name => targetsFrom (insertNew found name) old more
        | none => targetsFrom (old.toList.foldl insertNew found) none more

/-- **The files a unified diff touches**, each once, in the order of their headers. -/
def targets (diff : Text) : List Text := targetsFrom [] none (lines diff)

end BuildMender.Diff
