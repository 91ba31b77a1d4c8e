import BuildMender.Text.Basic

/-!
# The grammar of arguments

What a program is called with is read by a grammar: switches, options that take a value, and positional
arguments, all of them known by name. An option is written `--name value`, `--name=value`, `-n value`,
`-nvalue` or `-n=value`; switches of one letter can be put together; after `--` everything is positional.

The value of an option is looked at when the next argument is settled, so that of two faults the one
that comes first on the line is reported, but an argument nobody knows is reported before a value that is
wrong. What concerns several arguments, conflicts and missing ones, is looked at last.
-/

namespace BuildMender.Cli

/-- Why arguments are refused, or answered without doing anything else. -/
inductive UsageError where
  | displayHelp
  | displayVersion
  /-- No arguments at all, where a command is needed. -/
  | displayHelpOnMissing
  | missingSubcommand
  | invalidSubcommand
  | unknownArgument
  | missingRequiredArgument
  | argumentConflict
  /-- A value that is missing, or is none of those to choose from. -/
  | invalidValue
  /-- A value of the wrong form. -/
  | valueValidation
  /-- A value given to a switch. -/
  | tooManyValues
deriving DecidableEq, Inhabited

namespace UsageError

/-- The word for a refusal. -/
def label : UsageError → Text
  | .displayHelp => "display_help"
  | .displayVersion => "display_version"
  | .displayHelpOnMissing => "display_help_on_missing_argument_or_subcommand"
  | .missingSubcommand => "missing_subcommand"
  | .invalidSubcommand => "invalid_subcommand"
  | .unknownArgument => "unknown_argument"
  | .missingRequiredArgument => "missing_required_argument"
  | .argumentConflict => "argument_conflict"
  | .invalidValue => "invalid_value"
  | .valueValidation => "value_validation"
  | .tooManyValues => "too_many_values"

/-- The exit code: asking for help or the version is no failure. -/
def exitCode : UsageError → Nat
  | .displayHelp | .displayVersion => 0
  | _ => 2

end UsageError

/-! ### Values -/

/-- What a value has to be. -/
inductive ValueForm where
  | text
  /-- Any text but the empty one. -/
  | path
  /-- An unsigned number below a bound. -/
  | number (bound : Nat)
  /-- A number, with a sign or without, that is not negative and below a bound. -/
  | position (bound : Nat)
  | choice (words : List Text)
deriving DecidableEq, Inhabited

/-- The value of a numeral that may have a sign, if it is not negative and below a bound. -/
def position? (bound : Nat) (t : Text) : Option Nat :=
  match t with
  | '-' :: digits =>
    if Text.startsWith "+" digits then none
    else (Text.unsigned? bound digits).filter (· = 0)
  | _ => Text.unsigned? bound t

/-- What is wrong with a value. -/
def ValueForm.fault? (f : ValueForm) (t : Text) : Option UsageError :=
  match f with
  | .text => none
  | .path => if t.isEmpty then some .invalidValue else none
  | .number bound => if (Text.unsigned? bound t).isSome then none else some .valueValidation
  | .position bound => if (position? bound t).isSome then none else some .valueValidation
  | .choice words => if words.contains t then none else some .invalidValue

/-! ### Grammars -/

/-- An argument. -/
structure Argument where
  name : Text
  letter : Option Char := none
  /-- What its value has to be; a switch takes none. -/
  value : Option ValueForm := none
  positional : Bool := false
  required : Bool := false
  /-- Whether it may be given more than once. -/
  many : Bool := false
deriving DecidableEq, Inhabited

/-- The arguments of a command. -/
structure Grammar where
  arguments : List Argument
  /-- Arguments that exclude each other. -/
  conflicts : List (Text × Text) := []
  /-- Arguments that need another one. -/
  needs : List (Text × Text) := []
  /-- Whether the version can be asked for. -/
  hasVersion : Bool := false
  /-- The names of commands, one of which has to follow if there are any. -/
  commands : List Text := []
deriving Inhabited

/-- The arguments that were given, with their values. -/
abbrev Given := List (Text × List Text)

namespace Grammar

/-- The option or switch of a name. -/
def named? (g : Grammar) (name : Text) : Option Argument :=
  g.arguments.find? fun a => !a.positional && a.name == name

/-- The option or switch of a letter. -/
def lettered? (g : Grammar) (c : Char) : Option Argument :=
  g.arguments.find? fun a => !a.positional && a.letter == some c

/-- The positional arguments. -/
def positionals (g : Grammar) : List Argument := g.arguments.filter Argument.positional

/-! ### Reading -/

/-- Where the reading of arguments stands. -/
structure Reading where
  given : Given := []
  /-- An argument whose values are not complete or not looked at yet. -/
  pending : Option (Argument × List Text) := none
  /-- Whether an option waits for its value. -/
  waiting : Bool := false
  /-- How many positional arguments are complete. -/
  position : Nat := 0
  /-- Whether everything is positional from here on. -/
  trailing : Bool := false
deriving Inhabited

/-- An argument with its values taken in. -/
def Reading.put (s : Reading) (a : Argument) (values : List Text) : Except UsageError Reading :=
  if a.value.isSome && values.isEmpty then .error .invalidValue
  else
    match s.given.lookup a.name with
    | some old =>
      if a.many then
        match values.findSome? fun v => a.value.bind fun f => f.fault? v with
        | some e => .error e
        | none =>
          .ok { s with given := s.given.map fun e =>
            if e.1 = a.name then (e.1, old ++ values) else e }
      else .error .argumentConflict
    | none =>
      match values.findSome? fun v => a.value.bind fun f => f.fault? v with
      | some e => .error e
      | none => .ok { s with given := s.given ++ [(a.name, values)] }

/-- The pending argument taken in. -/
def Reading.settle (s : Reading) : Except UsageError Reading :=
  match s.pending with
  | none => .ok s
  | some (a, values) => { s with pending := none, waiting := false }.put a values

/-- An argument with its values taken in after what is pending. -/
def Reading.take (s : Reading) (a : Argument) (values : List Text) : Except UsageError Reading :=
  s.settle.bind fun s => s.put a values

/-- An option that waits for its value. -/
def Reading.await (s : Reading) (a : Argument) : Except UsageError Reading :=
  s.settle.map fun s => { s with pending := some (a, []), waiting := true }

/-- An option or switch written with its name, and a value if there is one. -/
def long (g : Grammar) (name : Text) (attached : Option Text) (s : Reading) : Except UsageError Reading :=
  match g.named? name with
  | some a =>
    if a.value.isSome then
      match attached with
      | some v => s.take a [v]
      | none => s.await a
    else if attached.isSome then .error .tooManyValues
    else s.take a []
  | none =>
    if name = "help" then
      if attached.isSome then .error .tooManyValues else s.settle.bind fun _ => .error .displayHelp
    else if name = "version" && g.hasVersion then
      if attached.isSome then .error .tooManyValues else s.settle.bind fun _ => .error .displayVersion
    else .error .unknownArgument

/-- Switches written with their letters, and an option at the end. -/
def letters (g : Grammar) : Text → Reading → Except UsageError Reading
  | [], s => .ok s
  | c :: cs, s =>
    match g.lettered? c with
    | some a =>
      if a.value.isSome then
        if cs.isEmpty then s.await a else s.take a [(Text.after? "=" cs).getD cs]
      else
        match s.take a [] with
        | .error e => .error e
        | .ok s => letters g cs s
    | none =>
      if c = 'h' then s.settle.bind fun _ => .error .displayHelp
      else if c = 'V' && g.hasVersion then s.settle.bind fun _ => .error .displayVersion
      else .error .unknownArgument

/-- A positional argument. -/
def positional (g : Grammar) (t : Text) (s : Reading) : Except UsageError Reading :=
  match g.positionals[s.position]? with
  | none =>
    .error (if g.commands.isEmpty || (s.trailing && g.commands.contains t) then .unknownArgument
      else .invalidSubcommand)
  | some a =>
    if a.many then
      match s.pending with
      | some (b, values) =>
        if b = a then .ok { s with pending := some (a, values ++ [t]) }
        else s.settle.map fun s => { s with pending := some (a, [t]) }
      | none => .ok { s with pending := some (a, [t]) }
    else s.settle.map fun s => { s with pending := some (a, [t]), position := s.position + 1 }

/-- One argument that is no command. -/
def one (g : Grammar) (t : Text) (s : Reading) : Except UsageError Reading :=
  if s.trailing then g.positional t s
  else if t = "--" then .ok { s with trailing := true }
  else
    match t with
    | '-' :: '-' :: rest =>
      match Text.cut "=" rest with
      | some (name, v) => g.long name (some v) s
      | none => g.long rest none s
    | '-' :: c :: cs => g.letters (c :: cs) s
    | _ =>
      if s.waiting then
        .ok { s with pending := s.pending.map fun p => (p.1, p.2 ++ [t]), waiting := false }
      else g.positional t s

/-- Arguments up to a command: where the reading stands then, and the command with what follows it. -/
def read (g : Grammar) : List Text → Reading → Except UsageError (Reading × Option (Text × List Text))
  | [], s => .ok (s, none)
  | t :: ts, s =>
    if !s.trailing && !s.waiting && g.commands.contains t then .ok (s, some (t, ts))
    else
      match g.one t s with
      | .error e => .error e
      | .ok s => read g ts s

/-- **What concerns several arguments**: conflicts, then arguments that are missing. -/
def check (g : Grammar) (given : Given) : Except UsageError Unit :=
  let has (name : Text) : Bool := (given.lookup name).isSome
  if g.conflicts.any fun c => has c.1 && has c.2 then .error .argumentConflict
  else if g.arguments.any fun a => a.required && !has a.name then .error .missingRequiredArgument
  else if g.needs.any fun n => has n.1 && !has n.2 then .error .missingRequiredArgument
  else .ok ()

/-- The end of the arguments of a command, with or without another command behind them. -/
def finish (g : Grammar) (s : Reading) (hasCommand : Bool) : Except UsageError Given :=
  match s.settle with
  | .error e => .error e
  | .ok s =>
    if !hasCommand && !g.commands.isEmpty then
      .error (if s.given.isEmpty then .displayHelpOnMissing else .missingSubcommand)
    else (g.check s.given).map fun _ => s.given

end Grammar

end BuildMender.Cli
