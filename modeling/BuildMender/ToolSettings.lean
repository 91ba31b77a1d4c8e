import BuildMender.Text.Case

/-!
# Settings of the tool

Environment variables set how long a build may take, how often the tool tries to mend one, when it
commits, how much of a log and how many diagnostics go into a prompt, how much is logged, and which
command answers requests. A variable that is missing or cannot be read leaves the default.
-/

namespace BuildMender

/-- The values of environment variables. -/
abbrev Environment := Text → Option Text

/-- When a patch that was applied is committed. -/
inductive CommitPolicy where
  | never
  /-- If the patch keeps the conventions. -/
  | compliant
  | always
deriving DecidableEq, Inhabited

namespace CommitPolicy

/-- The word for a policy. -/
def label : CommitPolicy → Text
  | .never => "never"
  | .compliant => "compliant"
  | .always => "always"

/-- The word for a policy with a capital. -/
def title : CommitPolicy → Text
  | .never => "Never"
  | .compliant => "Compliant"
  | .always => "Always"

/-- The policy of a word, in whatever case. -/
def ofWord? (word : Text) : Option CommitPolicy :=
  [never, compliant, always].find? fun p => p.label == Text.lowercase word

/-- Whether a policy lets a patch be committed, given whether the patch asks for it. -/
def allows (policy : CommitPolicy) (asked : Bool) : Bool :=
  match policy with
  | .never => false
  | .compliant => asked
  | .always => true

end CommitPolicy

/-- How much is logged. -/
inductive LogLevel where
  | trace
  | debug
  | info
  | warn
  | error
deriving DecidableEq, Inhabited

namespace LogLevel

/-- The name of a level in a log. -/
def label : LogLevel → Text
  | .trace => "TRACE"
  | .debug => "DEBUG"
  | .info => "INFO"
  | .warn => "WARN"
  | .error => "ERROR"

/-- The words for a level, the last of which is a long form. -/
def words : List (Text × LogLevel) :=
  [("trace", .trace), ("debug", .debug), ("info", .info), ("warn", .warn), ("error", .error),
    ("warning", .warn)]

/-- The level of a word, in whatever case and with blanks around it. -/
def ofWord? (word : Text) : Option LogLevel := words.lookup (Text.lowercase (Text.trim word))

/-- The level of a word, information if the word is none. -/
def ofWord (word : Text) : LogLevel := (ofWord? word).getD .info

end LogLevel

/-- How the log is written. -/
structure LogSettings where
  level : LogLevel := .info
  /-- One JSON object on each line. -/
  json : Bool := false
  /-- Whether the part of the program is shown. -/
  target : Bool := true
  /-- Whether the place in the program is shown. -/
  location : Bool := false
deriving DecidableEq, Inhabited

namespace LogSettings

/-- The settings that the environment asks for. -/
def ofEnvironment (env : Environment) : LogSettings :=
  { level := ((env "PLUGWRIGHT_LOG_LEVEL").map LogLevel.ofWord).getD .info
    json := (env "PLUGWRIGHT_LOG_JSON").any fun v =>
      ["1".toList, "true".toList, "yes".toList].contains (Text.lowercase v) }

/-- The settings after the arguments of the command line have been looked at: a level given there
counts first, then the wish for much, then the wish for little. -/
def ofArguments (env : Environment) (level : Option Text) (verbose quiet : Bool) : LogSettings :=
  let s := ofEnvironment env
  match level with
  | some word => { s with level := LogLevel.ofWord word }
  | none =>
    if verbose then { s with level := .debug, location := true }
    else if quiet then { s with level := .error }
    else s

end LogSettings

/-- The settings of the tool. -/
structure ToolSettings where
  /-- How long a build may take, in seconds. -/
  buildTimeout : Nat := 300
  /-- How often a build is mended at most. -/
  maxFixIterations : Nat := 3
  commitPolicy : CommitPolicy := .compliant
  /-- How many diagnostics are listed in a prompt. -/
  maxPromptDiagnostics : Nat := 25
  /-- How many characters of a build log are sent along. -/
  maxLogChars : Nat := 6000
  logLevel : Text := "info"
  /-- The command that answers requests. -/
  backendCommand : Option Text := none
deriving DecidableEq, Inhabited

namespace ToolSettings

/-- The number in a variable, if it has one. -/
def number (env : Environment) (name : Text) (default : Nat) : Nat :=
  ((env name).bind (Text.unsigned? Text.bound64)).getD default

/-- **The settings that the environment asks for.** -/
def ofEnvironment (env : Environment) : ToolSettings :=
  let d : ToolSettings := {}
  { buildTimeout := number env "PLUGWRIGHT_BUILD_TIMEOUT" d.buildTimeout
    maxFixIterations := number env "PLUGWRIGHT_MAX_FIX_ITERATIONS" d.maxFixIterations
    commitPolicy := ((env "PLUGWRIGHT_COMMIT_POLICY").bind CommitPolicy.ofWord?).getD d.commitPolicy
    maxPromptDiagnostics := number env "PLUGWRIGHT_MAX_PROMPT_DIAGNOSTICS" d.maxPromptDiagnostics
    maxLogChars := number env "PLUGWRIGHT_MAX_LOG_CHARS" d.maxLogChars
    logLevel := Text.lowercase ((env "PLUGWRIGHT_LOG_LEVEL").getD d.logLevel)
    backendCommand := (env "PLUGWRIGHT_AI_COMMAND").filter fun v => !(Text.trim v).isEmpty }

/-- What can be wrong with the settings. -/
inductive Flaw where
  | noTime
  | noIteration
  | noDiagnostic
  | unknownLevel (word : Text)
deriving DecidableEq

/-- What is wrong, in words. -/
def Flaw.message : Flaw → Text
  | .noTime => "Build timeout must be at least 1 second"
  | .noIteration => "Fix loop needs at least one iteration"
  | .noDiagnostic => "At least one diagnostic must fit in a prompt"
  | .unknownLevel word =>
    "Invalid log level: " ++ word ++ ". Valid options: trace, debug, info, warn, error"

/-- The first flaw of the settings. -/
def flaw? (s : ToolSettings) : Option Flaw :=
  if s.buildTimeout = 0 then some .noTime
  else if s.maxFixIterations = 0 then some .noIteration
  else if s.maxPromptDiagnostics = 0 then some .noDiagnostic
  else if ((LogLevel.words.take 5).lookup s.logLevel).isNone then some (.unknownLevel s.logLevel)
  else none

/-- The settings by name, in the order of the names. -/
def entries (s : ToolSettings) : List (Text × Text) :=
  (s.backendCommand.map fun c => ("ai_command".toList, c)).toList ++
    ([("build_timeout_secs", Text.decimal s.buildTimeout),
      ("commit_policy", s.commitPolicy.label),
      ("log_level", s.logLevel),
      ("max_fix_iterations", Text.decimal s.maxFixIterations),
      ("max_log_chars", Text.decimal s.maxLogChars),
      ("max_prompt_diagnostics", Text.decimal s.maxPromptDiagnostics)] : List (Text × Text))

/-- The settings for a reader. -/
def display (s : ToolSettings) : Text :=
  "Plugwright Configuration:\n" ++
    "  Build Timeout: " ++ Text.decimal s.buildTimeout ++ "s\n" ++
    "  Max Fix Iterations: " ++ Text.decimal s.maxFixIterations ++ "\n" ++
    "  Commit Policy: " ++ s.commitPolicy.title ++ "\n" ++
    "  Max Prompt Diagnostics: " ++ Text.decimal s.maxPromptDiagnostics ++ "\n" ++
    "  Max Log Chars: " ++ Text.decimal s.maxLogChars ++ "\n" ++
    "  Log Level: " ++ s.logLevel ++ "\n" ++
    "  AI Command: " ++ s.backendCommand.getD "(not set)" ++ "\n"

end ToolSettings

end BuildMender
