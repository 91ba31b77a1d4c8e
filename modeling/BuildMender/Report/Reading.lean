import BuildMender.Fix
import BuildMender.Report
import BuildMender.Request
import BuildMender.Seconds
import BuildMender.ToolSettings

/-!
# Reports for a reader

Each kind of result as text for a person: a headline, a rule under it, and what is worth knowing, line
by line.
-/

namespace BuildMender.Reading

/-- The sign of success. -/
def tick : Text := ['✓']

/-- The sign of failure. -/
def cross : Text := ['✗']

/-- The sign of a warning. -/
def warning : Text := ['⚠']

/-- The sign before a detail that others follow. -/
def branch : Text := ['├', '─']

/-- The sign before the last detail. -/
def leaf : Text := ['└', '─']

/-- The rule under a headline, and a blank line. -/
def rule : Text := List.replicate 40 '━' ++ ['\n', '\n']

/-- A line with a line feed at its end. -/
def line (t : Text) : Text := t ++ ['\n']

/-- A text that stands only under a condition. -/
def given (b : Bool) (t : Text) : Text := if b then t else []

/-- The lines of a list. -/
def each {α : Type} (l : List α) (f : α → Text) : Text := l.flatMap f

/-- A text filled up with spaces to a width. -/
def padded (width : Nat) (t : Text) : Text := t ++ List.replicate (width - t.length) ' '

/-- A word with a capital in front, where its first letter is an ASCII letter. -/
def capitalized : Text → Text
  | [] => []
  | c :: cs => (if 'a' ≤ c ∧ c ≤ 'z' then Char.ofNat (c.toNat - 32) else c) :: cs

/-- Names separated by commas. -/
def names (l : List Text) : Text := if l.isEmpty then "(none)" else Text.join ", " l

/-- A number. -/
def count (n : Nat) : Text := Text.decimal n

/-! ### Diagnostics -/

/-- The number of diagnostics of a level. -/
def level (ds : List Diagnostic) (s : Severity) : Text := count (ds.countP fun d => d.severity == s)

/-- A diagnostic, and the advice that goes with it. -/
def diagnostic (d : Diagnostic) : Text :=
  line ("  " ++ d.display) ++
    match d.violation with
    | some v => line ("    " ++ leaf ++ " " ++ v.kind.label ++ ": " ++ v.suggestion)
    | none => []

/-- Diagnostics, with their numbers by level in front. -/
def diagnostics (ds : List Diagnostic) : Text :=
  if ds.isEmpty then "No diagnostics found\n"
  else
    line ("Diagnostics: " ++ level ds .error ++ " error(s), " ++ level ds .warning ++
      " warning(s), " ++ level ds .info ++ " note(s)") ++ each ds diagnostic

/-! ### Dependencies -/

/-- A place, or that it is not set. -/
def place (p : Option Path) : Text := (p.map Path.text).getD "(unset)"

/-- A disagreement between the configuration and the cache. -/
def difference (e : Dependency × Dependency.Difference) : Text :=
  line ("  " ++ e.1.label ++ ": configured " ++ place e.2.configured ++ ", cache " ++
    place e.2.cached)

/-- What a dependency cache says. -/
def dependencies (c : DependencyCheck) : Text :=
  line "Dependencies:" ++
    given c.cache.roots.isEmpty (line "  (none found in cache)") ++
    each c.cache.roots.entries (fun e => line ("  " ++ padded 22 e.1.label ++ " " ++ e.2.text)) ++
    each c.cache.errors (fun e => line ("  " ++ cross ++ " " ++ e)) ++
    each (c.cache.warnings ++ c.placeWarnings) (fun w => line ("  " ++ warning ++ " " ++ w)) ++
    given c.comparison.hasChanges
      (line "\nDiffers from plugwright.json:" ++ each c.comparison.entries difference)

/-- What the dependency cache of a directory says. -/
def dependenciesOf (dir : Path) (c : DependencyCheck) : Text :=
  line ("Dependency cache: " ++ dir.text) ++ rule ++ dependencies c

/-- Build directories. -/
def buildDirs (dirs : List Path) : Text :=
  if dirs.isEmpty then "No build directories with a CMakeCache.txt found\n"
  else line "Build directories:" ++ each dirs fun d => line ("  " ++ d.text)

/-! ### Builds -/

/-- A result of a build. -/
def build (r : BuildResult) : Text :=
  line ((if r.success then tick else cross) ++ " " ++ capitalized r.action.label ++ " " ++
    (if r.success then "succeeded" else "failed" : Text) ++ " (" ++ r.presetId ++ ")") ++ rule ++
    line ("Command:      " ++ r.command) ++
    line ("Exit code:    " ++ Text.integer r.exitCode) ++
    line ("Termination:  " ++ r.termination.label) ++
    line ("Duration:     " ++ Seconds.display r.duration ++ "s") ++
    given (!r.diagnostics.isEmpty) (line [] ++ diagnostics r.diagnostics) ++
    match r.dependencyCheck with
    | some c => line [] ++ dependencies c
    | none => []

/-! ### Mending -/

/-- What became of a commit. -/
def commit : CommitOutcome → Text
  | .skipped => "skipped"
  | .committed m => "committed (" ++ ((Text.lines m).head?.getD []) ++ ")"
  | .failed r => "failed (" ++ r ++ ")"

/-- Why mending stopped. -/
def outcome : FixOutcome → Text
  | .succeeded => tick ++ " Build fixed"
  | .iterationsExhausted => cross ++ " Build still failing after all fix iterations"
  | .buildInterrupted t => cross ++ " Build interrupted (" ++ t.label ++ ")"
  | .backendFailed m => cross ++ " AI backend failed: " ++ m
  | .patchRejected r => cross ++ " Patch rejected: " ++ r

/-- An attempt. -/
def attempt (a : FixAttempt) : Text :=
  line ("Iteration " ++ count a.number ++ ": " ++ count a.errorsBefore ++ " error(s)" ++
      (match a.patchKind with
        | some k => ", " ++ k.label ++ " patch"
        | none => []) ++
      given a.applied ", applied" ++
      match a.errorsAfter with
      | some n => ", " ++ count n ++ " error(s) after rebuild"
      | none => []) ++
    given (!a.nonCompliantFiles.isEmpty)
      (line (branch ++ " Convention issues: " ++ Text.join ", " a.nonCompliantFiles)) ++
    match a.commit with
    | some c => line (leaf ++ " Commit: " ++ commit c)
    | none => []

/-- How mending a build went. -/
def fix (r : FixReport) : Text :=
  line (outcome r.outcome) ++ rule ++
    given r.attempts.isEmpty (line "No fix iterations were needed") ++
    each r.attempts attempt ++
    given (!r.finalResult.errors.isEmpty)
      (line "\nRemaining errors:" ++ each r.finalResult.errors fun d => line ("  " ++ d.display))

/-! ### Checks -/

/-- A violation. -/
def violation (v : Violation) : Text :=
  line ("  " ++ branch ++ " " ++ v.kind.label ++ given v.autoFixable " [auto-fixable]" ++
    ": " ++ v.suggestion)

/-- What a check found in a file. -/
def check (c : FileCheck) : Text :=
  if c.violations.isEmpty then line (tick ++ " " ++ c.path.text)
  else line (warning ++ " " ++ c.path.text ++ given c.fixed " (fixed)") ++
    each c.violations violation

/-! ### Requests -/

/-- A piece of a file. -/
def fileContext (c : FileContext) : Text :=
  line (branch ++ " " ++ c.path ++ " (" ++ c.kind.label ++ ", lines " ++ count c.startLine.toNat ++ "-" ++
    count c.endLine.toNat ++ given c.truncated ", truncated" ++ ")")

/-- What the backend receives. -/
def envelope (e : Envelope) : Text :=
  line ("Intent: " ++ e.intent.label) ++ rule ++
    line "System prompt:" ++ e.systemPrompt ++ "\n\nUser prompt:\n" ++ line e.userPrompt ++
    given (!e.fileContext.isEmpty) (line "\nFile context:" ++ each e.fileContext fileContext) ++
    line "\nProject structure:" ++
    line (branch ++ " Build dirs: " ++ names e.projectStructure.buildDirs) ++
    line (branch ++ " Presets:    " ++ names e.projectStructure.presets) ++
    line (branch ++ " UI dir:     " ++ e.projectStructure.interfaceDir) ++
    line (leaf ++ " Deps dir:   " ++ e.projectStructure.depsDir) ++
    match e.buildLog with
    | some log => line ("\nBuild log: " ++ count log.length ++ " chars")
    | none => []

/-! ### Patches -/

/-- What became of a patch. -/
def patch (s : PatchSummary) : Text :=
  line ("Patch " ++ s.id ++ " (" ++ s.patch.content.kind.label ++ ")") ++ rule ++
    line ("Status:    " ++ s.patch.status.label) ++
    line ("Compliant: " ++ (if s.patch.compliant then "yes" else "no" : Text)) ++
    line "Targets:" ++
    each s.patch.targets (fun t =>
      line ("  " ++ t ++ given (s.nonCompliantFiles.contains t) " (convention issues)")) ++
    (match s.validationError with
      | some e => line ("\n" ++ cross ++ " " ++ e)
      | none => []) ++
    match s.applied with
    | some r => line ("\n" ++ tick ++ " Applied to " ++ count r.files.length ++ " file(s)") ++
      line ("Commit: " ++ commit r.commit)
    | none => []

end BuildMender.Reading
