import BuildMender.Host.Shell.Field
import BuildMender.Host.Shell.Paths
import BuildMender.Host.Shell.Sum

/-!
# The expansion of words

The parts of a word that stand for something else are replaced by it: a tilde by a directory, a parameter
by its value, commands by their output, a sum by its number. What a word is for decides the rest (`Mode`).
The words of a command become fields, and in them it matters what was quoted; the same holds of patterns.
Elsewhere a word becomes a text.

Words stand inside parameters, so expansion needs itself; and it needs what carries out commands, which is
a parameter here. `expand` ties the first knot, to a depth that no word has.
-/

namespace BuildMender.Host.Expansion

/-- What a word is expanded for. -/
structure Mode where
  /-- Whether it becomes fields. -/
  fields : Bool := false
  /-- Whether it becomes a pattern. -/
  pattern : Bool := false
  /-- Whether a tilde at the beginning stands for a directory. -/
  tilde : Bool := false
  /-- Whether tildes behind the equals sign and colons stand for directories. -/
  assignment : Bool := false
  /-- Whether the equals sign has been passed. -/
  passed : Bool := false
  /-- Whether it stands between quotes. -/
  quoted : Bool := false
  /-- Whether it is a word inside a parameter. -/
  inner : Bool := false
deriving DecidableEq, Inhabited

/-- Whether it matters what was quoted. -/
def Mode.keeps (m : Mode) : Bool := m.fields || m.pattern

/-- What expands the words inside others, and yields the output of commands. -/
structure Means where
  word : Mode → Word → Sh Expanded
  output : Node → Sh Raw

/-! ### Values -/

/-- Whether a character means something in patterns and paths. -/
def isSign (c : Char) : Bool := "!*?[=~:/-]\\".toList.contains c

/-- A character of a value. -/
def cell (m : Mode) (c : Char) : Cell := .char c (m.keeps && m.quoted && isSign c)

/-- A value. -/
def cells (m : Mode) (t : Raw) : List Cell := t.map (cell m)

/-- What stands between the parameters where all of them are put together. -/
def between (m : Mode) (s : Shell) (name : Raw) : List Cell :=
  if name = ['@'] ∧ m.quoted ∧ m.fields then [.gap]
  else
    match s.value? "IFS".toList with
    | none => [cell m ' ']
    | some t => if !m.quoted && m.fields then [.gap] else (t.take 1).map (cell m)

/-- The letters of the settings that are on. -/
def letters (s : Shell) : Raw :=
  (Setting.table.filterMap fun (x, _, c) => if s.settings.contains x then c else none).reverse

/-- **The value of a parameter**; nothing if it has none. -/
def value? (m : Mode) (s : Shell) (name : Raw) : Option (List Cell) :=
  let number := fun n : Nat => some (cells m (Text.decimal n))
  match name with
  | ['$'] => number s.process
  | ['?'] => number s.status
  | ['#'] => number s.parameters.length
  | ['!'] => s.background.bind number
  | ['-'] => some (cells m (letters s))
  | ['@'] | ['*'] => some (List.intercalate (between m s name) (s.parameters.map (cells m)))
  | ['0'] => some (cells m s.name)
  | c :: _ =>
    if Raw.isDigit c then
      match Numeral.whole? false name with
      | some n =>
        if n = 0 then some (cells m s.name) else (s.parameters[n.toNat - 1]?).map (cells m)
      | none => none
    else (s.value? name).map (cells m)
  | [] => none

/-- How the value of a parameter is split. -/
def splitting (m : Mode) (s : Shell) (name : Raw) : Splitting :=
  if !m.quoted then .blanks
  else if name = ['@'] ∧ !s.parameters.isEmpty then .gaps
  else .never

/-! ### Parameters -/

/-- The fault of a parameter without a value. -/
def missing {α : Type} (name message : Raw) : Sh α := Sh.fail (name ++ ": " ++ message)

/-- A value without the part at one of its ends that fits a pattern. -/
def trim (atStart longest : Bool) (pattern : Raw) (value : List Cell) : List Cell :=
  let text : Raw := value.map fun
    | .char c _ => c
    | _ => Char.ofNat 0
  let elements := Pattern.elements pattern
  let sizes := List.range (value.length + 1)
  let places := if atStart = longest then sizes.reverse else sizes
  let part := fun n => if atStart then text.take n else text.drop n
  match places.find? fun n => Pattern.fits elements (part n) with
  | some n => if atStart then value.drop n else value.take n
  | none => value

/-- **What a parameter becomes.** -/
def parameter (means : Means) (m : Mode) (name : Raw) (usage : Usage) (colon : Bool) (word : Word) :
    Sh Expanded := do
  let s ← get
  if usage = .wrong then Sh.fail "Bad substitution"
  let bare := if usage = .instead ∨ usage = .length then { m with fields := false, pattern := false } else m
  let found := (value? bare s name).filter fun v => !(colon && v.isEmpty)
  let result := fun v => pure [(⟨splitting m s name, v⟩ : Part)]
  let inside := { m with tilde := true, inner := true }
  let demandSet : Sh Unit := do
    if found.isNone && s.settings.contains .noUnset then missing name "parameter not set"
  match usage with
  | .wrong => return []
  | .value => do
    demandSet
    result (found.getD [])
  | .otherwise =>
    match found with
    | some v => result v
    | none => means.word inside word
  | .instead => if found.isSome then means.word inside word else result []
  | .demand =>
    match found with
    | some v => result v
    | none => do
      let t ← means.word { tilde := true } word
      if word.isEmpty then missing name (if colon then "parameter not set or null" else "parameter not set")
      else missing name t.text
  | .assign =>
    match found with
    | some v => result v
    | none => do
      let t ← means.word { tilde := true } word
      Sh.assign name (some t.text)
      result ((value? m (← get) name).getD [])
  | .length => do
    demandSet
    result (cells m (Text.decimal (found.getD []).length))
  | .trim atStart longest => do
    demandSet
    match found with
    | none => return []
    | some v => do
      let p ← means.word { tilde := true, pattern := true } word
      result (trim atStart longest (Cell.pattern p.cells) v)

/-! ### Tildes -/

/-- The name behind a tilde, if a tilde with that name can stand for a directory. -/
def tildeName? (m : Mode) : Word → Option Raw
  | [] => some []
  | .char c false :: w =>
    if c = '/' ∨ (c = ':' ∧ m.assignment) then some [] else (tildeName? m w).map (c :: ·)
  | _ => none

/-- The directory a tilde with a name stands for. -/
def home? (name : Raw) : Sh (Option Raw) :=
  if name.isEmpty then Sh.value? "HOME".toList
  else pure (if name = "root".toList then some "/root" else none)

/-! ### Words -/

/-- How many characters at the beginning of a word are neither quoted nor mean something. -/
def runLength : Word → Nat
  | .char _ false :: w => runLength w + 1
  | _ => 0

/-- The directory that a character at the beginning of a word stands for, and how many characters behind it
belong to its name. -/
def directory? (m : Mode) (c : Char) (w : Word) : Sh (Option (Raw × Nat)) := do
  match if c = '~' then tildeName? m w else none with
  | none => return none
  | some name => return (← home? name).map fun directory => (directory, name.length)

/-- The pieces of a word expanded. `skipped` of them have been dealt with; `quoted` says whether a quote is
open, and `start` whether a tilde may stand here. -/
def pieces (means : Means) : Mode → Nat → Bool → Bool → Word → Sh Expanded
  | _, _, _, _, [] => pure []
  | m, skipped + 1, quoted, start, _ :: w => pieces means m skipped quoted start w
  | m, 0, quoted, start, p :: w => do
    let here := { m with quoted := m.quoted || quoted, tilde := false }
    match p with
    | .char c false =>
      match ← if start then directory? m c w else pure none with
      | some (directory, length) =>
        let part : Part := ⟨.never, cells { m with quoted := true } directory⟩
        return part :: (← pieces means m length quoted false w)
      | none =>
        if m.inner && !m.quoted && !quoted && !m.assignment then
          let n := runLength w
          let part : Part := ⟨.blanks, Cell.ofText (Word.letters ((p :: w).take (n + 1)))⟩
          return part :: (← pieces means m n quoted false w)
        else
          let equals := m.assignment && !m.passed && c = '='
          let again := equals || (m.assignment && c = ':')
          return ⟨.never, [.char c false]⟩ ::
            (← pieces means { m with passed := m.passed || equals } 0 quoted again w)
    | .char c true =>
      return ⟨.never, [.char c m.keeps]⟩ :: (← pieces means m 0 quoted false w)
    | .quote =>
      match quoted, w with
      | false, .parameter ['@'] .value false [] :: .quote :: _ =>
        let e ← parameter means { here with quoted := true } ['@'] .value false []
        return e ++ (← pieces means m 2 quoted false w)
      | _, _ =>
        let mark : List Cell := if m.keeps then [.quote] else []
        return ⟨.never, mark⟩ :: (← pieces means m 0 (!quoted) false w)
    | .parameter name usage colon word =>
      let e ← parameter means here name usage colon word
      return e ++ (← pieces means m 0 quoted false w)
    | .output body =>
      let t ← match body with
        | none => pure []
        | some n => means.output n
      let t := Text.dropEnd (· = '\n') (t.filter fun c => c.toNat ≠ 0)
      let e : Part := ⟨if here.quoted then .never else .blanks, cells here t⟩
      return e :: (← pieces means m 0 quoted false w)
    | .sum expression =>
      let t ← means.word {} expression
      let v ← Sum.value t.text
      let e : Part := ⟨if here.quoted then .never else .blanks, cells here (Text.integer v)⟩
      return e :: (← pieces means m 0 quoted false w)

/-- What expands words to a depth. -/
def means (output : Node → Sh Raw) : Nat → Means
  | 0 => ⟨fun _ _ => pure [], output⟩
  | n + 1 =>
    let inside : Means := ⟨fun m w => (means output n).word m w, output⟩
    ⟨fun m w => pieces inside { m with tilde := false } 0 false m.tilde w, output⟩

/-- **A word expanded.** -/
def expand (output : Node → Sh Raw) (m : Mode) (w : Word) : Sh Expanded :=
  (means output Act.forever).word m w

/-- The text of a word. -/
def text (output : Node → Sh Raw) (m : Mode) (w : Word) : Sh Raw := return (← expand output m w).text

/-- The signs at which fields end. -/
def signs (s : Shell) : Raw := (s.value? "IFS".toList).getD [' ', '\t', '\n']

/-- **The fields of a word of a command.** -/
def fields (output : Node → Sh Raw) (w : Word) : Sh (List Raw) := do
  let e ← expand output { fields := true, tilde := true } w
  Paths.ofFields (Field.split (signs (← get)) none e)

end BuildMender.Host.Expansion
