import BuildMender.Host.Raw

/-!
# Patterns

A pattern stands for the texts that fit it: a star for any text, a question mark for any character, and
a list between brackets for one of its characters, or for any other if the list begins with an
exclamation mark. A backslash takes its meaning from the character behind it. A bracket that is never
closed is a character like any other.

A pattern is read into its elements first (`Pattern.elements`); the matching follows them.
-/

namespace BuildMender.Host.Pattern

/-- An item of a list between brackets. -/
inductive Item where
  | char (c : Char)
  | span (first last : Char)
  | class (name : Raw)
deriving DecidableEq, Inhabited

/-- An element of a pattern. -/
inductive Element where
  | char (c : Char)
  | one
  | any
  | list (inverted : Bool) (items : List Item)
deriving DecidableEq, Inhabited

/-- The place of a character in the order of ranges, in which the bytes beyond ASCII come first. -/
def rank (c : Char) : Int := if c.toNat < 128 then c.toNat else c.toNat - 256

/-- Whether a character is an item. -/
def Item.fits (c : Char) : Item → Bool
  | .char d => c = d
  | .span a b => rank a ≤ rank c && rank c ≤ rank b
  | .class name => (Raw.class? name).any fun p => p c

/-- Whether a character fits an element that stands for one character. -/
def Element.fits (c : Char) : Element → Bool
  | .char d => c = d
  | .one => true
  | .any => false
  | .list inverted items => items.any (Item.fits c) != inverted

/-! ### Reading -/

/-- The name of a class, and the text after its end. -/
def className? (t : Raw) : Option (Raw × Raw) :=
  match t with
  | ':' :: t =>
    match t.takeWhile Raw.isSmall, t.dropWhile Raw.isSmall with
    | name, ':' :: ']' :: rest => if (Raw.class? name).isSome then some (name, rest) else none
    | _, _ => none
  | _ => none

/-- A character that may stand behind a backslash, and the text after it. -/
def plain? : Raw → Option (Char × Raw)
  | '\\' :: c :: t => some (c, t)
  | '\\' :: [] => none
  | c :: t => some (c, t)
  | [] => none

/-- The items of a list up to its closing bracket, and the text after that. The first item may be a
bracket itself. -/
def items? : Nat → Bool → Raw → Option (List Item × Raw)
  | 0, _, _ => none
  | _, _, [] => none
  | n + 1, atStart, c :: t =>
    if c = ']' ∧ !atStart then some ([], t)
    else
      match if c = '[' then className? t else none with
      | some (name, rest) => (items? n false rest).map fun r => (.class name :: r.1, r.2)
      | none =>
        match plain? (c :: t) with
        | none => none
        | some (a, rest) =>
          match rest with
          | '-' :: d :: more =>
            if d = ']' then (items? n false rest).map fun r => (.char a :: r.1, r.2)
            else
              match plain? (d :: more) with
              | none => none
              | some (b, rest) => (items? n false rest).map fun r => (.span a b :: r.1, r.2)
          | _ => (items? n false rest).map fun r => (.char a :: r.1, r.2)

/-- A list behind its opening bracket, and the text after it. -/
def list? (t : Raw) : Option (Element × Raw) :=
  match t with
  | '!' :: t => (items? (t.length + 1) true t).map fun r => (.list true r.1, r.2)
  | t => (items? (t.length + 1) true t).map fun r => (.list false r.1, r.2)

/-- The elements of a text of at most so many characters. -/
def elementsOf : Nat → Raw → List Element
  | 0, _ => []
  | _, [] => []
  | n + 1, c :: t =>
    if c = '?' then .one :: elementsOf n t
    else if c = '*' then .any :: elementsOf n t
    else if c = '[' then
      match list? t with
      | some (e, rest) => e :: elementsOf n rest
      | none => .char c :: elementsOf n t
    else if c = '\\' then
      match t with
      | d :: rest => .char d :: elementsOf n rest
      | [] => [.char c]
    else .char c :: elementsOf n t

/-- **The elements of a pattern.** -/
def elements (t : Raw) : List Element := elementsOf t.length t

/-! ### Matching -/

/-- Whether some end of a text satisfies a condition. -/
def anyEnd (p : Raw → Bool) : Raw → Bool
  | [] => p []
  | c :: t => p (c :: t) || anyEnd p t

/-- **Whether a text fits the elements of a pattern.** -/
def fits : List Element → Raw → Bool
  | [], t => t.isEmpty
  | .any :: es, t => anyEnd (fits es) t
  | e :: es, c :: t => e.fits c && fits es t
  | _ :: _, [] => false

/-- Whether a text fits a pattern. -/
def isFit (pattern text : Raw) : Bool := fits (elements pattern) text

/-- A text as a pattern that it alone fits. -/
def literal (t : Raw) : Raw := t.flatMap fun c => if ['*', '?', '[', '\\', ']', '-', '!'].contains c then ['\\', c] else [c]

end BuildMender.Host.Pattern
