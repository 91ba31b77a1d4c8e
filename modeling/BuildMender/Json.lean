import BuildMender.Path

/-!
# JSON values

Configurations are read from JSON, and requests and reports are written as JSON or YAML. A value keeps
the fields of an object in their order. Numbers are integers: no field of this library holds any
other number.

A text can hold a value that is well formed and yet stands for nothing here, such as half of a
surrogate pair or a number with a fraction. It is kept as `Json.unreadable`, so that it does no harm
where nobody looks at it.
-/

namespace BuildMender

/-- A JSON value. -/
inductive Json where
  | null
  | bool (b : Bool)
  | number (n : Int)
  | string (t : Text)
  | array (items : List Json)
  | object (fields : List (Text × Json))
  /-- A well-formed value that stands for nothing. -/
  | unreadable
deriving Inhabited

namespace Json

/-- The fields of an object, in order. -/
abbrev Fields := List (Text × Json)

/-- The characters of strings that have an escape of two characters, with the letter behind the
backslash. -/
def shortEscapes : List (Char × Char) :=
  [('"', '"'), ('\\', '\\'), ('\n', 'n'), ('\r', 'r'), ('\t', 't'), (Char.ofNat 8, 'b'),
    (Char.ofNat 12, 'f')]

/-! ### Making values -/

/-- A natural number. -/
def nat (n : Nat) : Json := .number n

/-- A word of 32 bits. -/
def word (n : UInt32) : Json := .number n.toNat

/-- A list of texts. -/
def texts (ts : List Text) : Json := .array (ts.map .string)

/-- A value that may be missing, `null` if it is. -/
def ofOption {α : Type} (f : α → Json) : Option α → Json
  | some a => f a
  | none => .null

/-- An object whose fields come in groups. -/
def record (groups : List Fields) : Json := .object groups.flatten

/-- A field that is left out if its value is missing. -/
def optionalField {α : Type} (name : String) (f : α → Json) : Option α → Fields
  | some a => [(name, f a)]
  | none => []

/-- A path as text. -/
def path (p : Path) : Json := .string p.text

/-! ### Looking into values -/

/-- The text of a string. -/
def text? : Json → Option Text
  | .string t => some t
  | _ => none

/-- The truth value. -/
def bool? : Json → Option Bool
  | .bool b => some b
  | _ => none

/-- The word of 32 bits that a number fits. -/
def word? : Json → Option UInt32
  | .number (.ofNat n) => if n < Text.bound32 then some (UInt32.ofNat n) else none
  | _ => none

/-- The items of an array, each read by `f`. -/
def list? {α : Type} (f : Json → Option α) : Json → Option (List α)
  | .array items => items.mapM f
  | _ => none

/-- A value that may be `null`, read by `f` otherwise. -/
def nullable? {α : Type} (f : Json → Option α) : Json → Option (Option α)
  | .null => some none
  | j => (f j).map some

end Json

end BuildMender
