import BuildMender.Build.Watch
import BuildMender.Diagnostic.Extract
import BuildMender.Workspace

/-!
# Running builds

A builder runs a preset's command in a project: it starts the process, watches it, and makes a result
of what the watch has come to. Errors are looked for in the error stream; a build that failed and shows
none there is asked for those in its other stream, where some compilers write them. After a successful
configuration the dependency cache is read.

Commands are run on the machine (`Builder.onHost`), but nothing in a build rests on how: `Builder.runBy` is
a build for any way to run commands.
-/

namespace BuildMender

/-- How builds are run. -/
structure Builder where
  /-- How long a build may take, in milliseconds. -/
  timeout : Nat := 300000
  /-- The configured places of packages, to be compared with those in the cache. -/
  dependencies : Dependency.Roots := .empty
  /-- Variables that commands see. -/
  environment : List (Text × Text) := []
deriving Inhabited

namespace Builder

/-! ### Results -/

/-- The diagnostics in what was written. -/
def diagnosticsOf (w : Watch) : List Diagnostic :=
  let found := Diagnostic.extract w.stderr
  if w.exitCode ≠ 0 ∧ w.termination = some .exited ∧ !found.any Diagnostic.isError then
    (found ++ Diagnostic.extract w.stdout).mergeSort Diagnostic.precedes
  else found

/-- The result a watch has come to. -/
def resultOf (preset : Preset) (action : BuildAction) (command : Text) (w : Watch) : BuildResult :=
  { success := w.termination = some .exited && w.exitCode = 0
    exitCode := w.exitCode
    stdout := w.stdout
    stderr := w.stderr
    diagnostics := diagnosticsOf w
    presetId := preset.id
    action := action
    command := command
    termination := w.termination.getD .exited }

/-- The event that a build begins. -/
def startedEvent (preset : Preset) (action : BuildAction) (command : Text) : Progress :=
  .buildStarted preset.id action command

/-- The event that a build has ended. -/
def finishedEvent (r : BuildResult) : Progress :=
  .buildFinished r.presetId r.action r.exitCode r.termination r.errorCount

/-- What comes of a process once it was started: the result, and the events after the first. -/
def conclude (preset : Preset) (action : BuildAction) (command : Text) (w : Watch) :
    BuildResult × List Progress :=
  let r := resultOf preset action command w
  (r, w.shown ++ [finishedEvent r])

/-- **What comes of a build**: the result and the events, given why its process could not be started or
what was heard of it. -/
def report (b : Builder) (preset : Preset) (action : BuildAction) (command : Text)
    (heard : Except Text (List Signal)) : BuildResult × List Progress :=
  let w := match heard with
    | .error reason => Watch.refused reason
    | .ok signals => Watch.ofSignals b.timeout signals
  let r := conclude preset action command w
  (r.1, startedEvent preset action command :: r.2)

/-! ### Processes -/

/-- The command of an action, or the error that there is none. -/
def commandOf (preset : Preset) (action : BuildAction) : Except BuildError Text :=
  match preset.command? action with
  | some c => .ok c
  | none => .error (.missingCommand preset.id action)

/-- The process of a command started in some way, or why it could not be started. -/
def launchBy {ρ : Type} (start : CommandLine → Except Text ρ) (preset : Preset) (action : BuildAction)
    (command : Text) : Except Text ρ :=
  match CommandLine.parse command with
  | none => .error ("Preset " ++ preset.id ++ " has an empty " ++ action.label ++ " command")
  | some c =>
    match start c with
    | .error reason => .error ("Failed to start " ++ c.program ++ ": " ++ reason)
    | .ok r => .ok r

/-- A command started in a directory of the machine, or why it could not be. -/
def startOnHost (b : Builder) (disk : Disk) (directory : Path) (c : CommandLine) : Except Text Host.Record :=
  (Host.run disk {
    directory := directory, command := c, limit := some b.timeout, hearing := .lines
    environment := b.environment }).mapError Host.StartError.message

/-- The process of a command run in a directory of the machine, or why it could not be started. -/
def launch (b : Builder) (disk : Disk) (directory : Path) (preset : Preset) (action : BuildAction)
    (command : Text) : Except Text Host.Record :=
  launchBy (b.startOnHost disk directory) preset action command

/-- **A way to run commands** in a directory of a disk: why a command could not be started, or the disk that
it leaves and what is heard of it. -/
abbrev Running := Disk → Path → CommandLine → Except Text (Disk × List Signal)

/-- Commands run on the machine. -/
def onHost (b : Builder) : Running := fun disk directory c =>
  (b.startOnHost disk directory c).map fun r => (r.disk, Signal.ofRecord r)

/-! ### The dependency cache -/

/-- What the dependency cache of a build directory says. -/
def check (b : Builder) (files : FileView) (dir : Path) : DependencyCheck :=
  let cache := Dependency.Cache.ofDirectory files dir
  { cache := cache
    placeWarnings := if cache.success then Dependency.Cache.placeWarnings files cache.roots else []
    comparison := Dependency.compare b.dependencies cache.roots }

/-- The event that the dependency cache was read. -/
def checkedEvent (c : DependencyCheck) : Progress :=
  .cacheResolved c.cache.roots.entries.length (c.cache.warnings.length + c.placeWarnings.length)
    c.comparison.hasChanges

/-- A result with what the dependency cache says, after a successful configuration. -/
def withCheck (b : Builder) (root : Path) (preset : Preset) (r : BuildResult) (w : Workspace) :
    BuildResult × Workspace :=
  if r.success && r.action = .configure then
    let c := b.check w.disk.view (root.join preset.buildDir)
    ({ r with dependencyCheck := some c }, w.emit (checkedEvent c))
  else (r, w)

/-! ### Builds -/

/-- A build of a command, from beginning to end, where commands are run in some way. -/
def runCommandBy (b : Builder) (running : Running) (root : Path) (preset : Preset) (action : BuildAction)
    (command : Text) (w : Workspace) : BuildResult × Workspace :=
  let launched := launchBy (running w.disk root) preset action command
  let disk := match launched with
    | .ok (disk, _) => disk
    | .error _ => w.disk
  let r := b.report preset action command (launched.map Prod.snd)
  b.withCheck root preset r.1 ({ w with disk := disk }.emitAll r.2)

/-- A build of a command on the machine. -/
def runCommand (b : Builder) (root : Path) (preset : Preset) (action : BuildAction) (command : Text)
    (w : Workspace) : BuildResult × Workspace :=
  b.runCommandBy b.onHost root preset action command w

/-- **A preset's command run**, from beginning to end, where commands are run in some way. -/
def runBy (b : Builder) (running : Running) (root : Path) (preset : Preset) (action : BuildAction)
    (w : Workspace) : Except BuildError (BuildResult × Workspace) :=
  (commandOf preset action).map fun command => b.runCommandBy running root preset action command w

/-- A preset's command run on the machine. -/
def run (b : Builder) (root : Path) (preset : Preset) (action : BuildAction) (w : Workspace) :
    Except BuildError (BuildResult × Workspace) :=
  b.runBy b.onHost root preset action w

/-- What the dependency cache says is added to a result, and nothing else in it is changed. -/
theorem exists_withCheck (b : Builder) (root : Path) (preset : Preset) (r : BuildResult) (w : Workspace) :
    ∃ check, (b.withCheck root preset r w).1 = { r with dependencyCheck := check } := by
  rw [withCheck]
  split
  · exact ⟨_, rfl⟩
  · exact ⟨r.dependencyCheck, rfl⟩

/-- **The result of a build** is what its process came to, with what the dependency cache says. -/
theorem exists_runCommandBy (b : Builder) (running : Running) (root : Path) (preset : Preset)
    (action : BuildAction) (command : Text) (w : Workspace) : ∃ check,
    (b.runCommandBy running root preset action command w).1 =
      { (b.report preset action command
          ((launchBy (running w.disk root) preset action command).map Prod.snd)).1 with
        dependencyCheck := check } :=
  b.exists_withCheck root preset _ _

end Builder

end BuildMender
