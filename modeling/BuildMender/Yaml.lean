import BuildMender.Json
import BuildMender.Yaml.Scalar

/-!
# Values in YAML

A value is written in block style: each field of an object and each item of an array on a line of its
own, two spaces further in for each level, except that an array inside an object is not indented. Empty
arrays and objects keep their brackets.
-/

namespace BuildMender.Yaml

open Text

mutual

/-- A value after the colon of a field or at the top, where the object around it is indented by
`indent`; `lead` stands between the colon and a value on the same line. -/
def after (indent : Nat) (lead : Text) : Json → Text
  | .null | .unreadable => lead ++ "null\n"
  | .bool b => lead ++ (if b then "true" else "false") ++ "\n"
  | .number n => lead ++ integer n ++ "\n"
  | .string t => lead ++ line (indent + 2) t
  | .array [] => lead ++ "[]\n"
  | .array (j :: js) => "\n" ++ indentation indent ++ items indent (j :: js)
  | .object [] => lead ++ ['\x7b', '\x7d', '\n']
  | .object (f :: fs) => "\n" ++ indentation (indent + 2) ++ fields (indent + 2) (f :: fs)

/-- A value behind the dash of an item, where the array is indented by `indent`. -/
def item (indent : Nat) : Json → Text
  | .null | .unreadable => "null\n"
  | .bool b => (if b then "true" else "false") ++ "\n"
  | .number n => integer n ++ "\n"
  | .string t => line (indent + 2) t
  | .array [] => "[]\n"
  | .array (j :: js) => items (indent + 2) (j :: js)
  | .object [] => ['\x7b', '\x7d', '\n']
  | .object (f :: fs) => fields (indent + 2) (f :: fs)

/-- The items of an array, the first of which stands where the writing is. -/
def items (indent : Nat) : List Json → Text
  | [] => []
  | [j] => "- " ++ item indent j
  | j :: j' :: js => "- " ++ item indent j ++ indentation indent ++ items indent (j' :: js)

/-- The fields of an object, the first of which stands where the writing is. -/
def fields (indent : Nat) : List (Text × Json) → Text
  | [] => []
  | [(key, j)] => name key ++ ":" ++ after indent " " j
  | (key, j) :: f :: fs =>
    name key ++ ":" ++ after indent " " j ++ indentation indent ++ fields indent (f :: fs)

end

/-- **A value in YAML**, with a line feed at the end. -/
def write : Json → Text
  | .array (j :: js) => items 0 (j :: js)
  | .object (f :: fs) => fields 0 (f :: fs)
  | j => after 0 [] j

end BuildMender.Yaml
