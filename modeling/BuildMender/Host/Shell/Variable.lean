import BuildMender.Host.Numeral
import BuildMender.Host.Shell.Basic

/-!
# Variables of a shell

A variable has a value or none, may be seen by other programs, and may be fixed. Some of them mean
something to the shell itself: where programs are looked for (`PATH`), where words are split (`IFS`), and
which parameter is looked at for options next (`OPTIND`). Setting one of these has to be noticed.

A command can have variables of its own: what they were before is saved, and put back at its end.
-/

namespace BuildMender.Host

/-! ### Numbers -/

/-- The greatest number that counts and statuses may be. -/
def Shell.greatest : Nat := 2147483647

namespace Sh

/-- The number that a text is; it is a fault if it is none, or less than zero. -/
def count (t : Raw) : Sh Nat := do
  match Numeral.whole? false t with
  | some n =>
    if 0 ≤ n ∧ n ≤ Shell.greatest then return n.toNat
    else fail ("Illegal number: " ++ t)
  | none => fail ("Illegal number: " ++ t)

end Sh

/-! ### Values -/

namespace Shell

/-- The value of a variable. -/
def value? (s : Shell) (name : Raw) : Option Raw := (s.bindings.lookup name).bind Variable.value

/-- The value of a variable, which is empty if there is none. -/
def valueOf (s : Shell) (name : Raw) : Raw := (s.value? name).getD []

/-- A variable put into the table, or taken out. -/
def putVariable (s : Shell) (name : Raw) (v : Option Variable) : Shell :=
  { s with bindings := match v with
      | none => s.bindings.filter fun e => e.1 != name
      | some v =>
        if (s.bindings.lookup name).isSome then
          s.bindings.map fun e => if e.1 == name then (name, v) else e
        else (name, v) :: s.bindings }

/-- The variables in the order of their names. -/
def inOrder (s : Shell) : List (Raw × Variable) :=
  s.bindings.mergeSort fun a b => !Raw.before b.1 a.1

/-- The variables that other programs see. -/
def environment (s : Shell) : Environment :=
  s.bindings.filterMap fun (name, v) => if v.exported then v.value.map fun t => (name, t) else none

/-- A text between single quotes. -/
def quoted (t : Raw) : Raw := '\x27' :: inside t false
where
  /-- The characters of a text that is between single quotes, or between double quotes as far as it is
  single quotes. -/
  inside : Raw → Bool → Raw
    | [], double => if double then ['"'] else ['\x27']
    | c :: cs, false => if c = '\x27' then '\x27' :: '"' :: c :: inside cs true else c :: inside cs false
    | c :: cs, true => if c = '\x27' then c :: inside cs true else '"' :: '\x27' :: c :: inside cs false

/-- A variable as it is shown. -/
def shown (before : Raw) (name : Raw) (v : Variable) : Raw :=
  (if before.isEmpty then [] else before ++ [' ']) ++ name ++ (match v.value with
    | some t => '=' :: quoted t
    | none => []) ++ ['\n']

end Shell

namespace Sh

/-! ### Setting variables -/

/-- The value of a variable. -/
def value? (name : Raw) : Sh (Option Raw) := look fun s => s.value? name

/-- What is done when a variable that means something to the shell gets a value. -/
def notice (name : Raw) (value : Raw) : Sh Unit := do
  if name = "PATH".toList then modify fun s => { s with found := [] }
  else if name = "OPTIND".toList then
    let n ← count value
    modify fun s => { s with optionIndex := if n = 0 then 1 else n, optionLetter := none }

/-- How a variable is set. -/
structure Marks where
  exported : Bool := false
  fixed : Bool := false
  lasting : Bool := false
deriving DecidableEq, Inhabited

/-- **A variable set**, or unset. -/
def setVariable (name : Raw) (value : Option Raw) (m : Marks := {}) : Sh Unit := do
  let exported := m.exported || (← isOn .exportAll)
  let old := (← get).bindings.lookup name
  if old.any Variable.fixed then fail (name ++ ": is read only")
  notice name (value.getD [])
  let lasting := m.lasting || old.any Variable.lasting
  if value.isNone && !(exported || m.fixed || lasting) then modify fun s => s.putVariable name none
  else
    modify fun s => s.putVariable name (some {
      value := value
      exported := exported || old.any Variable.exported
      fixed := m.fixed
      lasting := lasting })

/-- A variable set, or unset, whose name may be none. -/
def assign (name : Raw) (value : Option Raw) (m : Marks := {}) : Sh Unit := do
  if Raw.isName name then setVariable name value m
  else fail (name ++ ": bad variable name")

/-- A text of the form `name=value` split; the value is missing if there is no equals sign. -/
def splitAssignment (t : Raw) : Raw × Option Raw :=
  (t.takeWhile (· ≠ '='), match t.dropWhile (· ≠ '=') with
    | _ :: v => some v
    | [] => none)

/-! ### Variables of commands -/

/-- A command begins that has variables of its own. -/
def enterScope : Sh Unit := modify fun s => { s with saved := [] :: s.saved }

/-- Something saved for the end of the command. -/
def save (x : Saved) : Sh Unit := modify fun s =>
  { s with saved := match s.saved with
      | top :: more => (x :: top) :: more
      | [] => [] }

/-- A variable that belongs to the command, given as `name=value` or `name`. -/
def setLocal (t : Raw) (exported : Bool) : Sh Unit := do
  if t = ['-'] then save (.settings (← get).settings)
  else
    let (name, value) := splitAssignment t
    match (← get).bindings.lookup name with
    | none =>
      if value.isSome then setVariable name value ⟨exported, false, true⟩
      else assign name none ⟨exported, false, true⟩
      save (.variable_ name none)
    | some old =>
      save (.variable_ name (some old))
      modify fun s => s.putVariable name (some { old with lasting := true })
      if value.isSome then setVariable name value ⟨exported, false, false⟩

/-- Something saved put back. -/
def putBack : Saved → Sh Unit
  | .settings before => modify fun s => { s with settings := before }
  | .variable_ name none => do
    notice name []
    modify fun s => s.putVariable name none
  | .variable_ name (some old) => do
    notice name (old.value.getD [])
    modify fun s => s.putVariable name (some old)

/-- Commands end until so many are left that have variables of their own. -/
def leaveScopes (left : Nat) : Sh Unit := do
  let scopes := (← get).saved
  let ended := scopes.take (scopes.length - left)
  modify fun s => { s with saved := scopes.drop (scopes.length - left) }
  ended.forM fun scope => scope.forM putBack

end Sh

end BuildMender.Host
