import BuildMender.Backend.Command
import BuildMender.Build.Builder
import BuildMender.Cli.Task
import BuildMender.Fix.Loop
import BuildMender.Project.Load

/-!
# The program

A task is carried out in a world: files, the current directory, environment variables, and what can be
read from the input. It ends with an exit code and a report, or with the reason why there is none.
`Cli.run` is the whole program but for its contact with the machine it runs on.
-/

namespace BuildMender.Cli

/-- What a task finds around it. -/
structure World where
  workspace : Workspace
  /-- The current directory. -/
  directory : Path
  environment : Environment
  /-- Variables that the commands of projects see. -/
  «variables» : List (Text × Text) := []
  input : ByteArray := ⟨#[]⟩
  /-- The names of patches, in the order in which they are made. -/
  patchName : Nat → PatchId
  /-- The time at which patches are made. -/
  now : Text

/-- Why a task has no report. -/
inductive Failure where
  | notDirectory (root : Path)
  | project (e : Project.LoadError)
  | unknownPreset (id : Text)
  | noPreset
  | build (e : BuildError)
  | noBackend
  | backend (e : BackendError)
  | unreadable (p : Path) (e : FileError)
  | unreadableInput (e : FileError)
  | patch (e : PatchError)

/-- What is wrong, in words. -/
def Failure.message : Failure → Text
  | .notDirectory root => "Project root is not a directory: " ++ root.text
  | .project (.unreadable p e) =>
    (Project.LoadError.unreadable p e).message ++ ": " ++ e.message
  | .project e => e.message
  | .unknownPreset id => Project.unknownPreset id
  | .noPreset => "No presets defined in " ++ Project.fileName
  | .build e => e.message ++ "\n" ++ e.help
  | .noBackend =>
    "No AI command configured\nSet PLUGWRIGHT_AI_COMMAND to a program that reads the request JSON on stdin " ++
      "and prints a patch on stdout"
  | .backend e => e.message
  | .unreadable p e => "Failed to read " ++ p.text ++ ": " ++ e.message
  | .unreadableInput e => "Failed to read stdin: " ++ e.message
  | .patch e => e.message

/-- What a task that was carried out ends with. -/
structure Result where
  exitCode : Nat
  report : Report

/-- The exit code of failure. -/
def exitFailure : Nat := 1

/-- The exit code after a cancellation. -/
def exitInterrupted : Nat := 130

/-- The exit code of a check that succeeds or not. -/
def exitOf (success : Bool) : Nat := if success then 0 else exitFailure

namespace World

/-! ### Files -/

/-- The disk. -/
def disk (w : World) : Disk := w.workspace.disk

/-- The place of the current directory. -/
def here (w : World) : Place := Disk.placeOf w.directory

/-- The text of a file. -/
def readText (w : World) (p : Path) : Except Failure Text :=
  match w.disk.readBytes w.here p with
  | .error e => .error (.unreadable p e)
  | .ok b =>
    match Text.ofBytes? b with
    | some t => .ok t
    | none => .error (.unreadable p .notText)

/-- The path that stands for the input. -/
def inputPath : Path := ⟨['-']⟩

/-- The text of a file, or of the input. -/
def readInput (w : World) (p : Path) : Except Failure Text :=
  if p.same inputPath then
    match Text.ofBytes? w.input with
    | some t => .ok t
    | none => .error (.unreadableInput .notText)
  else w.readText p

/-! ### The project -/

/-- The settings of the tool. -/
def settings (w : World) : ToolSettings := .ofEnvironment w.environment

/-- The root of the project, spelled from the root of the disk without detours. -/
def rootOf (w : World) (s : Subject) : Except Failure Path :=
  let asked := s.root.getD w.directory
  match w.disk.find w.here asked with
  | .ok (at_, .directory) => .ok ⟨'/' :: Text.join "/" at_⟩
  | _ => .error (.notDirectory asked)

/-- The root of the project, and its description. -/
def projectOf (w : World) (s : Subject) : Except Failure (Path × Project) :=
  match w.rootOf s with
  | .error e => .error e
  | .ok root =>
    match Project.load w.disk root with
    | .error e => .error (.project e)
    | .ok c => .ok (root, c)

/-- The preset asked for, or the default one. -/
def presetOf (c : Project) (id : Option Text) : Except Failure Preset :=
  match id with
  | some id =>
    match c.preset? id with
    | some p => .ok p
    | none => .error (.unknownPreset id)
  | none =>
    match c.defaultPreset? with
    | some p => .ok p
    | none => .error .noPreset

/-! ### Tools -/

/-- What runs the builds of a project. -/
def builderOf (w : World) (c : Project) (how : RunArguments) : Builder :=
  { timeout := how.timeout.getD w.settings.buildTimeout * 1000, dependencies := c.dependencies
    environment := w.variables }

/-- What makes requests into envelopes. -/
def assemblerOf (w : World) (root : Path) (c : Project) (disk : Disk) : Assembler :=
  .ofSettings disk.view root c w.settings

/-- The patches of a project. -/
def patchesOf (w : World) (root : Path) (c : Project) : PatchManager :=
  { root := root, policy := w.settings.commitPolicy, conventions := c.conventions }

/-! ### Tasks -/

/-- What a task comes to, and the workspace after it. -/
abbrev Outcome := Except Failure Result × Workspace

/-- A preset's command run. -/
def runPreset (w : World) (action : BuildAction) (how : RunArguments) : Outcome :=
  match w.projectOf how.subject with
  | .error e => (.error e, w.workspace)
  | .ok (root, c) =>
    match presetOf c how.preset with
    | .error e => (.error e, w.workspace)
    | .ok p =>
      match (w.builderOf c how).run root p action w.workspace with
      | .error e => (.error (.build e), w.workspace)
      | .ok (r, ws) =>
        (.ok ⟨if r.success then 0 else if r.termination = .cancelled then exitInterrupted else exitFailure,
          .build r⟩, ws)

/-- What mending a build of a preset rests on. -/
def mendingOf (w : World) (root : Path) (c : Project) (p : Preset) (how : RunArguments)
    (backend : CommandBackend) (maxAttempts : Nat) : Mending Unit :=
  { build := fun ws _ =>
      let r := (w.builderOf c how).runCommand root p .build p.build ws
      (r.1, r.2, ())
    ask := fun e ws _ =>
      let r := backend.ask w.directory e ws.disk
      (r.1, { ws with disk := r.2 }, ())
    assemble := fun disk q => (w.assemblerOf root c disk).assemble q
    maxAttempts := maxAttempts
    patchName := w.patchName }

/-- The exit code of mending a build. -/
def exitOfFix : FixOutcome → Nat
  | .succeeded => 0
  | .buildInterrupted .cancelled => exitInterrupted
  | _ => exitFailure

/-- A build mended. -/
def fix (w : World) (how : RunArguments) (maxIterations : Option Nat) : Outcome :=
  match w.projectOf how.subject with
  | .error e => (.error e, w.workspace)
  | .ok (root, c) =>
    match presetOf c how.preset with
    | .error e => (.error e, w.workspace)
    | .ok p =>
      match w.settings.backendCommand with
      | none => (.error .noBackend, w.workspace)
      | some line =>
        match CommandBackend.ofText line with
        | .error e => (.error (.backend e), w.workspace)
        | .ok backend =>
          let m := w.mendingOf root c p how { backend with environment := w.variables } (maxIterations.getD w.settings.maxFixIterations)
          let r := m.run ⟨w.workspace, w.patchesOf root c, ()⟩
          (.ok ⟨exitOfFix r.1.outcome, .fix r.1⟩, r.2.workspace)

/-- The diagnostics of a log. -/
def diagnose (w : World) (log : Path) (errorsOnly : Bool) : Except Failure Result :=
  match w.readInput log with
  | .error e => .error e
  | .ok t =>
    let found := Diagnostic.extract t
    .ok ⟨0, .diagnostics (if errorsOnly then found.filter Diagnostic.isError else found)⟩

/-- A file that was asked for, as it is looked up on the disk. -/
def fullPath (root file : Path) : Path := if file.isAbsolute then file else root.join file

/-- A file that was asked for, as it is reported. -/
def shownPath (root file : Path) : Path := (root.relativeTo? (fullPath root file)).getD file

/-- A file checked, and mended if that is asked for and possible. -/
def checkFile (w : World) (root : Path) (c : Project) (mend : Bool) (file : Path) :
    Except Failure FileCheck × Workspace :=
  let full := fullPath root file
  let shown := shownPath root file
  match w.readText full with
  | .error e => (.error e, w.workspace)
  | .ok t =>
    let found := Convention.check c.conventions shown t
    if mend && found.any Violation.autoFixable then
      match PatchManager.mending c.conventions root full found w.disk with
      | (.error e, disk) => (.error (.patch e), { w.workspace with disk := disk })
      | (.ok false, _) => (.ok ⟨shown, found, false⟩, w.workspace)
      | (.ok true, disk) =>
        let ws := { w.workspace with disk := disk }
        match { w with workspace := ws }.readText full with
        | .error e => (.error e, ws)
        | .ok t => (.ok ⟨shown, Convention.check c.conventions shown t, true⟩, ws)
    else (.ok ⟨shown, found, false⟩, w.workspace)

/-- Files checked in turn, up to one that cannot be. -/
def checkFiles (w : World) (root : Path) (c : Project) (mend : Bool) :
    List Path → Except Failure (List FileCheck) × Workspace
  | [] => (.ok [], w.workspace)
  | file :: more =>
    match w.checkFile root c mend file with
    | (.error e, ws) => (.error e, ws)
    | (.ok check, ws) =>
      match checkFiles { w with workspace := ws } root c mend more with
      | (.error e, ws) => (.error e, ws)
      | (.ok checks, ws) => (.ok (check :: checks), ws)

/-- Files checked against the conventions of the project. -/
def check (w : World) (files : List Path) (mend : Bool) (s : Subject) : Outcome :=
  match w.projectOf s with
  | .error e => (.error e, w.workspace)
  | .ok (root, c) =>
    match w.checkFiles root c mend files with
    | (.error e, ws) => (.error e, ws)
    | (.ok checks, ws) => (.ok ⟨exitOf (checks.all fun c => c.violations.isEmpty), .check checks⟩, ws)

/-- What a dependency cache says, or which build directories have one. -/
def deps (w : World) (dir : Option Path) (list : Bool) (s : Subject) : Except Failure Result :=
  match w.projectOf s with
  | .error e => .error e
  | .ok (root, c) =>
    if list then .ok ⟨0, .buildDirs (Dependency.Cache.buildDirectories w.disk.view root)⟩
    else
      let asked : Except Failure Path := match dir with
        | some d => .ok d
        | none => (presetOf c none).map Preset.buildDir
      asked.map fun d =>
        let d := if d.isAbsolute then d else root.join d
        let check := Builder.check { dependencies := c.dependencies } w.disk.view d
        ⟨exitOf check.cache.success, .dependencies d check⟩

/-- The envelope of a question. -/
def context (w : World) (question : Text) (intent : Intent) (file : Option Path) (line : Option Nat)
    (preset : Option Text) (log : Option Path) (s : Subject) : Except Failure Result :=
  match w.projectOf s with
  | .error e => .error e
  | .ok (root, c) =>
    let found : Except Failure (Option Text) := match log with
      | some p => (w.readInput p).map some
      | none => .ok none
    found.map fun log =>
      let request : Request :=
        { intent := intent
          question := question
          activeFile := file.map fun p => ActiveFile.at p (UInt32.ofNat (line.getD 1))
          presetId := preset
          buildLog := log
          diagnostics := (log.map Diagnostic.extract).getD [] }
      ⟨0, .envelope ((w.assemblerOf root c w.disk).assemble request)⟩

/-- A patch looked at, and applied if that is asked for and nothing is wrong with it. -/
def patch (w : World) (file : Path) (targets : List Text) (apply : Bool) (s : Subject) : Outcome :=
  match w.projectOf s with
  | .error e => (.error e, w.workspace)
  | .ok (root, c) =>
    match w.readInput file with
    | .error e => (.error e, w.workspace)
    | .ok t =>
      let id := w.patchName 1
      let made := (w.patchesOf root c).insert id (Patch.ofText t targets true)
      let files := Mending.nonCompliantFiles made w.disk id
      let noted := (made.setCompliant id files.isEmpty).toOption.getD made
      let summary (m : PatchManager) (error : Option PatchError) (applied : Option ApplyReport) : Result :=
        ⟨exitOf error.isNone, .patch
          { id := id
            patch := (m.get? id).getD (Patch.ofText t targets true)
            createdAt := w.now
            nonCompliantFiles := files
            validationError := error.map PatchError.message
            applied := applied }⟩
      match noted.validate w.disk id with
      | .error e => (.ok (summary noted (some e) none), w.workspace)
      | .ok () =>
        if apply then
          match noted.apply id w.workspace with
          | (.error e, m, ws) => (.ok (summary m (some e) none), ws)
          | (.ok r, m, ws) => (.ok (summary m none (some r)), ws)
        else (.ok (summary noted none none), w.workspace)

/-- **A task carried out.** -/
def perform (w : World) : Task → Outcome
  | .run action how => w.runPreset action how
  | .fix how maxIterations => w.fix how maxIterations
  | .diagnose log errorsOnly _ => (w.diagnose log errorsOnly, w.workspace)
  | .check files mend s => w.check files mend s
  | .deps dir list s => (w.deps dir list s, w.workspace)
  | .context question intent file line preset log s =>
    (w.context question intent file line preset log s, w.workspace)
  | .patch file targets apply s => w.patch file targets apply s
  | .settings _ => (.ok ⟨0, .settings w.settings⟩, w.workspace)

end World

/-- The form of the report of a task. -/
def Task.form : Task → ReportForm
  | .run _ how | .fix how _ => how.subject.form
  | .diagnose _ _ f | .settings f => f
  | .check _ _ s | .deps _ _ s | .context _ _ _ _ _ _ s | .patch _ _ _ s => s.form

/-- What the program leaves. -/
structure Ending where
  exitCode : Nat
  output : Text := []
  failure : Option Failure := none
  /-- What is wrong with the settings, where they are shown. -/
  warning : Option Text := none
  workspace : Workspace

/-- What is warned of. -/
def warningOf (w : World) : Task → Option Text
  | .settings _ => w.settings.flaw?.map fun f => Project.invalid f.message
  | _ => none

/-- **The program**: a task carried out, and its report shown on a line of its own. -/
def run (w : World) (t : Task) : Ending :=
  match w.perform t with
  | (.error e, ws) => { exitCode := exitFailure, failure := some e, warning := warningOf w t, workspace := ws }
  | (.ok r, ws) =>
    { exitCode := r.exitCode, output := r.report.render t.form ++ "\n", warning := warningOf w t
      workspace := ws }

end BuildMender.Cli
