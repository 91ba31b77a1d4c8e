import BuildMender.Convention.Mend
import BuildMender.Patch.Resolve
import BuildMender.ToolSettings
import BuildMender.Workspace

/-!
# Keeping and applying patches

A manager keeps the patches of one project. A patch is put in under a name, looked at, checked against
the conventions, and applied. Applying validates first; a patch that fails anywhere is invalid from
then on and has changed no file. After a patch was applied it is committed, if it asks for that and the
policy allows it; a commit that fails does not undo the patch.

A diff is applied by version control, from a scratch file that holds its text; if there can be no such
file, version control is not called. Edit steps are applied here. What looking at a patch and applying
edit steps do with files is written down as tasks (`PatchManager.validating`, `PatchManager.checking`,
`PatchManager.applySteps`).
-/

namespace BuildMender

/-- The patches of a project. -/
structure PatchManager where
  root : Path
  policy : CommitPolicy := .compliant
  conventions : Convention.Settings := {}
  /-- The patches by their names. -/
  patches : List (PatchId × Patch) := []
deriving Inhabited

namespace PatchManager

/-! ### Keeping patches -/

/-- The patch of a name. -/
def get? (m : PatchManager) (id : PatchId) : Option Patch := m.patches.lookup id

/-- A patch changed, if there is one of that name. -/
def update (m : PatchManager) (id : PatchId) (f : Patch → Patch) : PatchManager :=
  { m with patches := m.patches.map fun e => if e.1 == id then (e.1, f e.2) else e }

/-- A patch put in under a name. -/
def insert (m : PatchManager) (id : PatchId) (p : Patch) : PatchManager :=
  { m with patches := m.patches ++ [(id, p)] }

/-- The patch of a name, or the error that there is none. -/
def find (m : PatchManager) (id : PatchId) : Except PatchError Patch :=
  match m.get? id with
  | some p => .ok p
  | none => .error (.notFound id)

/-- Whether a patch keeps the conventions noted; it asks to be committed if it does. -/
def setCompliant (m : PatchManager) (id : PatchId) (compliant : Bool) : Except PatchError PatchManager :=
  (m.find id).map fun _ => m.update id fun p => { p with compliant := compliant, autoCommit := compliant }

/-! ### Looking at a patch -/

/-- The first thing wrong with the targets of a patch. -/
def checkTargets (root : Path) : List Text → FileTask PatchError Unit
  | [] => return ()
  | target :: more => do
    let p ← Patch.targetPath root target
    if ← FileTask.ask (.isFile p) then checkTargets root more
    else FileTask.fail (.missingTarget target)

/-- What is wrong with the content of a patch. -/
def contentError? : PatchContent → Option PatchError
  | .unifiedDiff diff => if Diff.hasMarkers diff then none else some .missingDiffMarkers
  | .editInstructions steps => if steps.isEmpty then some .noEditSteps else none

/-- What validating a patch does with files. -/
def validating (m : PatchManager) (id : PatchId) : FileTask PatchError Unit := do
  let p ← m.find id
  if p.status ≠ .pending then FileTask.fail (.alreadyResolved id p.status)
  else match contentError? p.content with
    | some e => FileTask.fail e
    | none =>
      if p.targets.isEmpty then FileTask.fail .noTargets else checkTargets m.root p.targets

/-- **Validation**: a patch that is still pending, says something, and is for files that are there. -/
def validate (m : PatchManager) (disk : Disk) (id : PatchId) : Except PatchError Unit :=
  ((m.validating id).run disk).1

/-- An entry put in a list that is sorted by name, over one of the same name. -/
def insertByName {α : Type} (name : Text) (a : α) : List (Text × α) → List (Text × α)
  | [] => [(name, a)]
  | (n, b) :: more =>
    match Path.compareText name n with
    | .lt => (name, a) :: (n, b) :: more
    | .eq => (n, a) :: more
    | .gt => (n, b) :: insertByName name a more

/-- The current contents of the targets of a diff, as far as they can be read. -/
def currentContents (root : Path) : List Text → FileTask PatchError (List (Text × Text))
  | [] => return []
  | target :: more => do
    let p ← Patch.targetPath root target
    let content ← FileTask.ask (.read p)
    let rest ← currentContents root more
    match content with
    | .ok content => return (target, content) :: rest
    | .error _ => return rest

/-- The contents a patch leaves, by file: those worked out from its steps, or for a diff the current
ones. -/
def contentsAfter (m : PatchManager) : PatchContent → List Text →
    FileTask PatchError (List (Text × Text))
  | .editInstructions steps, _ => do
    let ds ← Drafts.ofSteps m.root steps
    return ds.map fun d => (Patch.relativeName m.root d.1, d.2)
  | .unifiedDiff _, targets => currentContents m.root targets

/-- The violations in some contents, by file, in the order of the files' names. -/
def violations (conventions : Convention.Settings) (contents : List (Text × Text)) :
    List (Text × List Violation) :=
  let byName := contents.foldl (fun acc e => insertByName e.1 e.2 acc) []
  (byName.map fun e => (e.1, Convention.check conventions ⟨e.1⟩ e.2)).filter fun e => !e.2.isEmpty

/-- What checking a patch against the conventions does with files. -/
def checking (m : PatchManager) (id : PatchId) : FileTask PatchError (List (Text × List Violation)) := do
  let p ← m.find id
  let contents ← m.contentsAfter p.content p.targets
  return violations m.conventions contents

/-- **The violations a patch leaves**, by file, in the order of the files' names. -/
def compliance (m : PatchManager) (disk : Disk) (id : PatchId) :
    Except PatchError (List (Text × List Violation)) :=
  ((m.checking id).run disk).1

/-! ### Version control -/

/-- The program of version control. -/
def program : Text := "git"

/-- How the scratch file is named in a call. -/
def scratchName : Text := "<scratch>"

/-- The directory in which scratch files are made. -/
def scratchDirectory : Path := "/tmp"

/-- A call of version control, made in the root of the project. -/
def call (root : Path) (arguments : List Text) (scratch : Option Text) (operation : Text)
    (w : Workspace) : Except PatchError Unit × Workspace :=
  let (result, runner) := w.runner.run ⟨⟨program, arguments⟩, root, scratch⟩
  let w := { w with runner := runner }
  match result with
  | .error reason => (.error (.versionControl operation reason), w)
  | .ok output =>
    if output.success then (.ok (), w)
    else (.error (.versionControl operation output.failureReason), w)

/-- A diff as it is written to the scratch file. -/
def scratchText (diff : Text) : Text := if Text.endsWith "\n" diff then diff else diff ++ "\n"

/-- What is wrong with the scratch file, if it cannot be made or cannot be given its content. -/
def scratchError? (disk : Disk) : Option PatchError :=
  match disk.refuses .createScratch with
  | some e => some (.files scratchDirectory e)
  | none => (disk.refuses .fillScratch).map (.files ⟨scratchName⟩)

/-- A diff put in a scratch file, and from there checked and applied by version control. However that ends,
the scratch file is removed. -/
def applyDiff (root : Path) (diff : Text) (w : Workspace) : Except PatchError Unit × Workspace :=
  match scratchError? w.disk with
  | some e => (.error e, w)
  | none =>
    let scratch := some (scratchText diff)
    match call root ["apply", "--check", "--whitespace=nowarn", scratchName] scratch "apply --check" w with
    | (.error e, w) => (.error e, w)
    | (.ok (), w) => call root ["apply", "--whitespace=nowarn", scratchName] scratch "apply" w

/-- Edit steps worked out and written. -/
def applySteps (root : Path) (steps : List EditStep) : FileTask PatchError Unit := do
  let ds ← Drafts.ofSteps root steps
  Drafts.write root ds

/-! ### Commits -/

/-- The last line of a commit's message but one. -/
def trailer : Text := "Assisted-by: plugwright (AI-generated patch)"

/-- What a commit is about, by the roles of its files. -/
def subject (kinds : List SourceFile.Kind) : Text :=
  let all := fun k => !kinds.isEmpty && kinds.all (· == k)
  if all .interface then "Update UI components"
  else if all .header then "Update headers"
  else if all .implementation then "Update implementation"
  else if all .buildScript then "Update build configuration"
  else if kinds.contains .header && kinds.contains .implementation then
    "Update implementation and headers"
  else "Update project files"

/-- **The message of a commit.** -/
def commitMessage (conventions : Convention.Settings) (files : List Text) (compliant : Bool) : Text :=
  subject (files.map fun f => SourceFile.kind conventions.interfaceDir ⟨f⟩) ++ "\n\n" ++ trailer ++
    "\nConvention-compliant: " ++ (if compliant then "yes" else "no")

/-- A patch that was applied put under version control. -/
def commit (m : PatchManager) (p : Patch) (w : Workspace) : CommitOutcome × Workspace :=
  match call m.root ("add".toList :: "--".toList :: p.targets) none "add" w with
  | (.error e, w) => (.failed e.message, w)
  | (.ok (), w) =>
    let message := commitMessage m.conventions p.targets p.compliant
    match call m.root ["commit", "-m", message] none "commit" w with
    | (.error e, w) => (.failed e.message, w)
    | (.ok (), w) => (.committed message, w)

/-! ### Applying a patch -/

/-- A pending patch made invalid, and the rejection shown. -/
def reject (m : PatchManager) (id : PatchId) (e : PatchError) (w : Workspace) : PatchManager × Workspace :=
  (m.update id fun p => if p.status = .pending then { p with status := .invalid } else p,
    w.emit (.patchRejected id e.message))

/-- What a patch says carried out. -/
def carryOut (root : Path) (content : PatchContent) (w : Workspace) : Except PatchError Unit × Workspace :=
  match content with
  | .unifiedDiff diff => applyDiff root diff w
  | .editInstructions steps => w.perform (applySteps root steps)

/-- A patch validated and looked up. -/
def admitting (m : PatchManager) (id : PatchId) : FileTask PatchError Patch := do
  m.validating id
  m.find id

/-- **A patch applied**: validated, carried out, and committed if that is asked for and allowed. -/
def apply (m : PatchManager) (id : PatchId) (w : Workspace) :
    Except PatchError ApplyReport × PatchManager × Workspace :=
  match w.perform (m.admitting id) with
  | (.error e, w) =>
    let (m, w) := m.reject id e w
    (.error e, m, w)
  | (.ok p, w) =>
    match carryOut m.root p.content w with
    | (.error e, w) =>
      let (m, w) := m.reject id e w
      (.error e, m, w)
    | (.ok (), w) =>
      let m := m.update id fun p => { p with status := .valid }
      let w := w.emit (.patchApplied id p.targets.length)
      let (outcome, w) := if m.policy.allows p.autoCommit then m.commit p w else (.skipped, w)
      (.ok ⟨id, p.content.kind, p.targets, outcome⟩, m, w)

/-! ### Mending conventions -/

/-- The content of a file with one violation mended, if inserting text mends it. -/
def mend (conventions : Convention.Settings) (p : Path) (content : Text) (v : Violation) : Text :=
  if v.autoFixable then
    match v.kind with
    | .includeGuard => (Convention.insertGuard? conventions.includeGuard content).getD content
    | .metaObjectInclude =>
      (Convention.appendLine? (Convention.metaObjectLine conventions p) content).getD content
    | .headerSuffix | .interfaceDir => content
  else content

/-- **The violations of a file mended**, as far as inserting text mends them: whether that changed the file,
and the disk after it. The file is written only if it is changed. -/
def mending (conventions : Convention.Settings) (root p : Path) (vs : List Violation) (disk : Disk) :
    Except PatchError Bool × Disk :=
  let p := if p.isAbsolute then p else root.join p
  match disk.readText p with
  | .error e => (.error (.files p e), disk)
  | .ok content =>
    let mended := vs.foldl (mend conventions p) content
    if mended = content then (.ok false, disk)
    else match disk.writeText p mended with
      | (.ok (), disk) => (.ok true, disk)
      | (.error e, disk) => (.error (.files p e), disk)

/-- A file mended, with the disk only if all went well. -/
def mendFile (conventions : Convention.Settings) (root p : Path) (vs : List Violation) (disk : Disk) :
    Except PatchError (Bool × Disk) :=
  match mending conventions root p vs disk with
  | (.ok changed, disk) => .ok (changed, disk)
  | (.error e, _) => .error e

end PatchManager

end BuildMender
