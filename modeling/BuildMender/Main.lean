import BuildMender.Cli
import BuildMender.Instant
import BuildMender.Patch.Name

/-!
# The command line

The contact of the program with the machine it runs on. The files under the current directory, and those
that the arguments name, are read into a disk; the task is carried out there; and what it changed is
written back. Commands of presets run in the closed world of `Host`, on that disk.
-/

namespace BuildMender.Main

/-- The environment variables the program looks at. -/
def watched : List String :=
  ["PLUGWRIGHT_BUILD_TIMEOUT", "PLUGWRIGHT_MAX_FIX_ITERATIONS", "PLUGWRIGHT_COMMIT_POLICY",
    "PLUGWRIGHT_MAX_PROMPT_DIAGNOSTICS", "PLUGWRIGHT_MAX_LOG_CHARS", "PLUGWRIGHT_LOG_LEVEL",
    "PLUGWRIGHT_AI_COMMAND"]

/-- The environment of the process. -/
def environment : IO Environment := do
  let pairs ← watched.filterMapM fun v => do
    return (← IO.getEnv v).map fun t => (v.toList, t.toList)
  return fun name => pairs.lookup name

/-- The place of a path, if something is there. -/
def placeOf? (path : String) : IO (Option Place) := do
  try
    let full ← IO.FS.realPath path
    return some (Disk.placeOf ⟨full.toString.toList⟩)
  catch _ => return none

/-- The path of a place. -/
def pathOf (at_ : Place) : String := String.ofList ('/' :: Text.join "/" at_)

/-- A disk with a file or a tree read into it. -/
partial def load (disk : Disk) (at_ : Place) : IO Disk := do
  let path : String := pathOf at_
  try
    let content ← IO.FS.readBinFile path
    return disk.addFile at_ content
  catch _ =>
    try
      let here ← IO.FS.realPath path
      (← here.readDir).foldlM (fun d e => load d (at_ ++ [e.fileName.toList])) (disk.makePlaces at_)
    catch _ => return disk

/-- What a task changed, written back. -/
def store (before after : Disk) : IO Unit := do
  for (at_, node) in after.nodes do
    if before.node? at_ != some node then
      match node with
      | .directory => IO.FS.createDirAll (pathOf at_)
      | .file content => IO.FS.writeBinFile (pathOf at_) content
  for (at_, node) in before.nodes.reverse do
    if (after.node? at_).isNone then
      match node with
      | .directory => IO.FS.removeDir (pathOf at_)
      | .file _ => IO.FS.removeFile (pathOf at_)

/-- All that can be read from the input. -/
partial def readAll (s : IO.FS.Stream) (sofar : ByteArray) : IO ByteArray := do
  let more ← s.read 65536
  if more.isEmpty then return sofar else readAll s (sofar ++ more)

/-- The time of day. -/
def now : IO Instant := do
  let (_, scratch) ← IO.FS.createTempFile
  let made := (← scratch.metadata).modified
  IO.FS.removeFile scratch
  return ⟨made.sec, made.nsec.toNat⟩

/-- What is shown instead of carrying out a task. -/
def showUsage (e : Cli.UsageError) : IO Unit := do
  match e with
  | .displayVersion => IO.println "plugwright 0.1.0"
  | .displayHelp | .displayHelpOnMissing =>
    let names := String.intercalate ", " (Cli.Task.commandNames.map String.ofList)
    IO.println s!"Usage: plugwright [OPTIONS] <COMMAND>\nCommands: {names}"
  | _ => IO.eprintln s!"error: {String.ofList e.label}"

/-- A task carried out on this machine. -/
def perform (arguments : List String) (task : Cli.Task) : IO UInt32 := do
  let here := (← placeOf? ".").getD []
  let named ← arguments.filterMapM placeOf?
  let before ← (here :: named).foldlM load { nodes := Disk.system }
  let input ← if arguments.contains "-" then readAll (← IO.getStdin) ⟨#[]⟩ else pure ⟨#[]⟩
  let seed ← IO.rand 0 (Nat.pow 2 62)
  let w : Cli.World := {
    workspace := { disk := before, runner := { otherwise := .error "failed to spawn git" } }
    directory := ⟨(pathOf here).toList⟩
    environment := ← environment
    input := input
    patchName := fun n => PatchId.ofNumber (seed * Nat.pow 2 64 + n)
    now := (← now).text }
  let e := Cli.run w task
  store before e.workspace.disk
  IO.print (String.ofList e.output)
  for warning in e.warning do
    IO.eprintln s!"WARN {String.ofList warning}"
  for failure in e.failure do
    IO.eprintln s!"ERROR {String.ofList failure.message}"
  return UInt32.ofNat e.exitCode

end BuildMender.Main

/-- The program. -/
def main (arguments : List String) : IO UInt32 := do
  match BuildMender.Cli.Task.ofArguments (arguments.map String.toList) with
  | .error e =>
    BuildMender.Main.showUsage e
    return UInt32.ofNat e.exitCode
  | .ok task => BuildMender.Main.perform arguments task
