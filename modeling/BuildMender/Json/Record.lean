import BuildMender.Json

/-!
# Records in JSON

A record is written as an object with one field for each of its parts. It is read from such an object,
in which fields of other names do no harm and none of its own may come twice; or from an array that
lists the parts in order and may stop early. Either way the parts come out in order, and a part that
is not there is left to whoever reads the record.
-/

namespace BuildMender.Json

/-- The values of the fields with a given name. -/
def valuesOf (name : Text) (fields : List (Text × Json)) : List Json :=
  (fields.filter fun f => f.1 == name).map Prod.snd

/-- The value of a field that may be missing but not come twice. -/
def single? (name : Text) (fields : List (Text × Json)) : Option (Option Json) :=
  match valuesOf name fields with
  | [] => some none
  | [j] => some (some j)
  | _ => none

/-- **The parts of a record**, in the order of their names. -/
def parts? (names : List Text) : Json → Option (List (Option Json))
  | .object fields => names.mapM fun n => single? n fields
  | .array items =>
    if items.length ≤ names.length then
      some (items.map some ++ List.replicate (names.length - items.length) none)
    else none
  | _ => none

/-- A part that has to be there. -/
def required? {α : Type} (read : Json → Option α) (part : Option Json) : Option α := part.bind read

/-- A part that stands for a default when it is missing. -/
def defaulted? {α : Type} (default : α) (read : Json → Option α) : Option Json → Option α
  | none => some default
  | some j => read j

end BuildMender.Json
