import BuildMender.Cli.Grammar
import BuildMender.Preset
import BuildMender.Report.Form

/-!
# What the program is called to do

Each command has a grammar of its own, and some switches hold for all of them. `Task.ofArguments` reads
the arguments of the program as a task.
-/

namespace BuildMender.Cli

/-- The project a task is about, and the form of what it reports. -/
structure Subject where
  /-- The root of the project; the current directory if it is missing. -/
  root : Option Path := none
  form : ReportForm := .human
deriving DecidableEq, Inhabited

/-- How a preset is run. -/
structure RunArguments where
  subject : Subject := {}
  preset : Option Text := none
  /-- How long a build may take, in seconds. -/
  timeout : Option Nat := none
deriving DecidableEq, Inhabited

/-- What the program is called to do. -/
inductive Task where
  | run (action : BuildAction) (how : RunArguments)
  | fix (how : RunArguments) (maxIterations : Option Nat)
  | diagnose (log : Path) (errorsOnly : Bool) (form : ReportForm)
  | check (files : List Path) (mend : Bool) (subject : Subject)
  | deps (dir : Option Path) (list : Bool) (subject : Subject)
  | context (question : Text) (intent : Intent) (file : Option Path) (line : Option Nat)
      (preset : Option Text) (log : Option Path) (subject : Subject)
  | patch (file : Path) (targets : List Text) (apply : Bool) (subject : Subject)
  | settings (form : ReportForm)
deriving Inhabited

namespace Task

/-! ### Grammars -/

/-- The switches that every command understands. -/
def general : List Argument :=
  [{ name := "log-level", value := some .text }, { name := "verbose", letter := some 'v' },
    { name := "quiet", letter := some 'q' }]

/-- The switches of which only one makes sense. -/
def generalConflicts : List (Text × Text) := [("quiet", "verbose")]

/-- The forms of reports by their words. -/
def forms : List ReportForm := [.json, .yaml, .human]

/-- The intents by their words. -/
def intents : List Intent := [.compile, .fix, .assist]

/-- The form of the report. -/
def formArgument : Argument :=
  { name := "format", letter := some 'f', value := some (.choice (forms.map ReportForm.label)) }

/-- The root of the project and the form of the report. -/
def subjectArguments : List Argument :=
  [{ name := "root", letter := some 'r', value := some .path }, formArgument]

/-- The preset. -/
def presetArgument : Argument := { name := "preset", letter := some 'p', value := some .text }

/-- How a preset is run. -/
def runArguments : List Argument :=
  subjectArguments ++ [presetArgument, { name := "timeout", value := some (.number Text.bound64) }]

/-- The arguments of each command. -/
def commandArguments : List (Text × List Argument) :=
  [("configure", runArguments),
    ("build", runArguments),
    ("clean", runArguments),
    ("fix", runArguments ++ [{ name := "max-iterations", value := some (.number Text.bound64) }]),
    ("diagnose",
      [{ name := "LOG", value := some .path, positional := true, required := true }, presetArgument,
        { name := "errors-only" }, formArgument]),
    ("check",
      [{ name := "FILE", value := some .path, positional := true, required := true, many := true },
        { name := "fix" }] ++ subjectArguments),
    ("deps",
      [{ name := "BUILD_DIR", value := some .path, positional := true }, { name := "list" }] ++
        subjectArguments),
    ("context",
      [{ name := "QUESTION", value := some .text, positional := true, required := true },
        { name := "intent", letter := some 'i', value := some (.choice (intents.map Intent.label)) },
        { name := "file", value := some .path },
        { name := "line", value := some (.position Text.bound32) }, presetArgument,
        { name := "log", value := some .path }] ++ subjectArguments),
    ("patch",
      [{ name := "FILE", value := some .path, positional := true, required := true },
        { name := "target", letter := some 't', value := some .text, many := true },
        { name := "apply" }] ++ subjectArguments),
    ("config", [formArgument])]

/-- The name of the command that shows help. -/
def helpCommand : Text := "help"

/-- The names of the commands. -/
def commandNames : List Text := commandArguments.map Prod.fst ++ [helpCommand]

/-- The grammar in front of the command. -/
def grammar : Grammar :=
  { arguments := general, conflicts := generalConflicts, hasVersion := true, commands := commandNames }

/-- The grammar of a command. -/
def grammarOf (arguments : List Argument) : Grammar :=
  { arguments := arguments ++ general, conflicts := generalConflicts, needs := [("line", "file")] }

/-! ### From arguments to tasks -/

/-- The values of an argument. -/
def valuesOf (g : Given) (name : Text) : List Text := (g.lookup name).getD []

/-- The value of an argument. -/
def value? (g : Given) (name : Text) : Option Text := (valuesOf g name).head?

/-- Whether an argument was given. -/
def has (g : Given) (name : Text) : Bool := (g.lookup name).isSome

/-- The value of an argument as a path. -/
def path? (g : Given) (name : Text) : Option Path := (value? g name).map Path.mk

/-- The value of an argument as a number. -/
def number? (g : Given) (name : Text) : Option Nat := (value? g name).bind (position? Text.bound64)

/-- The form of the report. -/
def formOf (g : Given) : ReportForm :=
  ((value? g "format").bind fun w => forms.find? fun f => f.label == w).getD .human

/-- The project, and the form of the report. -/
def subjectOf (g : Given) : Subject := ⟨path? g "root", formOf g⟩

/-- How a preset is run. -/
def howOf (g : Given) : RunArguments := ⟨subjectOf g, value? g "preset", number? g "timeout"⟩

/-- The task of a command with its arguments. -/
def ofGiven (command : Text) (g : Given) : Task :=
  if command = "configure" then .run .configure (howOf g)
  else if command = "build" then .run .build (howOf g)
  else if command = "clean" then .run .clean (howOf g)
  else if command = "fix" then .fix (howOf g) (number? g "max-iterations")
  else if command = "diagnose" then
    .diagnose ((path? g "LOG").getD ⟨[]⟩) (has g "errors-only") (formOf g)
  else if command = "check" then
    .check ((valuesOf g "FILE").map Path.mk) (has g "fix") (subjectOf g)
  else if command = "deps" then .deps (path? g "BUILD_DIR") (has g "list") (subjectOf g)
  else if command = "context" then
    .context ((value? g "QUESTION").getD [])
      (((value? g "intent").bind fun w => intents.find? fun i => i.label == w).getD .assist)
      (path? g "file") (number? g "line") (value? g "preset") (path? g "log") (subjectOf g)
  else if command = "patch" then
    .patch ((path? g "FILE").getD ⟨[]⟩) (valuesOf g "target") (has g "apply") (subjectOf g)
  else .settings (formOf g)

/-- What asking for help about commands is answered with: commands have no commands of their own. -/
def help (names : List Text) : UsageError :=
  match names with
  | [] => .displayHelp
  | [name] => if commandNames.contains name then .displayHelp else .invalidSubcommand
  | _ => .invalidSubcommand

/-- **The task that arguments ask for.** What is wrong behind the command is reported before what is wrong
in front of it. -/
def ofArguments (arguments : List Text) : Except UsageError Task :=
  match grammar.read arguments {} with
  | .error e => .error e
  | .ok (s, none) => (grammar.finish s false).bind fun _ => .error .missingSubcommand
  | .ok (s, some (command, rest)) =>
    if command = helpCommand then .error (help rest)
    else
      let g := grammarOf ((commandArguments.lookup command).getD [])
      match (g.read rest {}).bind fun r => g.finish r.1 false with
      | .error e => .error e
      | .ok given => (grammar.finish s true).map fun _ => ofGiven command given

end Task

end BuildMender.Cli
