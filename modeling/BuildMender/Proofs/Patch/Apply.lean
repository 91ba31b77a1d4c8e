import BuildMender.Proofs.Patch.Admission
import BuildMender.Proofs.Patch.Staging
import BuildMender.Proofs.Runner

/-!
# How applying a patch ends

Applying a patch can end in three ways, and `BuildMender.PatchManager.Applied` lists them with all that
each leaves behind: the patch is refused by its validation, or what it says cannot be carried out, or it
is carried out. Everything that is proved about applying starts from there
(`BuildMender.PatchManager.applied`), so that the stages of the work are looked into once.

The main result is that a patch of edit steps is carried out in full or not at all
(`BuildMender.PatchManager.apply_all_or_nothing`). Whatever goes wrong, and wherever: the disk that is
left is the disk that was there, and not one that merely has the same files.
-/

namespace BuildMender

/-- A patch after it was refused: one that was pending is invalid. -/
def Patch.refused (p : Patch) : Patch := if p.status = .pending then { p with status := .invalid } else p

/-- A patch after it was applied. -/
def Patch.applied (p : Patch) : Patch := { p with status := .valid }

/-- A patch after a request to apply it. -/
def Patch.ended : Except PatchError ApplyReport → Patch → Patch
  | .ok _ => Patch.applied
  | .error _ => Patch.refused

namespace Workspace

variable {w w' w'' : Workspace} {root : Path}

/-- Two workspaces with the same files, which the same paths have reached. -/
structure SameFiles (w w' : Workspace) : Prop where
  disk : w'.disk = w.disk
  reached : w'.reached = w.reached

theorem SameFiles.trans (h : SameFiles w w') (h' : SameFiles w' w'') : SameFiles w w'' :=
  ⟨h'.disk.trans h.disk, h'.reached.trans h.reached⟩

/-- What has been reached from one workspace to another lies below the root. -/
def StaysBelow (root : Path) (w w' : Workspace) : Prop :=
  ∃ more, w'.reached = w.reached ++ more ∧ ∀ p ∈ more, Path.Below root p

theorem SameFiles.staysBelow (h : SameFiles w w') (root : Path) : StaysBelow root w w' :=
  ⟨[], by rw [h.reached, List.append_nil], List.forall_mem_nil _⟩

theorem StaysBelow.trans (h : StaysBelow root w w') (h' : StaysBelow root w' w'') :
    StaysBelow root w w'' := by
  obtain ⟨more, hmore, hbelow⟩ := h
  obtain ⟨more', hmore', hbelow'⟩ := h'
  refine ⟨more ++ more', by rw [hmore', hmore, List.append_assoc], fun p hp => ?_⟩
  exact (List.mem_append.mp hp).elim (hbelow p) (hbelow' p)

/-- A task that stays below the root, run in a workspace. -/
theorem staysBelow_perform {ε α : Type} {t : FileTask ε α} {Q : α → Prop}
    (ht : t.Within (FileCall.StaysBelow root) Q) (w : Workspace) : StaysBelow root w (w.perform t).2 :=
  ⟨_, rfl, ht.below w.disk⟩

end Workspace

namespace PatchManager

open Drafts (Resolved written)
open Workspace (SameFiles StaysBelow)

variable {m : PatchManager} {id : PatchId} {p : Patch} {w w' : Workspace} {root : Path} {e : PatchError}

/-! ### Version control leaves the disk -/

/-- A call of version control is noted, and leaves the files alone. -/
theorem call_spec (root : Path) (arguments : List Text) (scratch : Option Text) (operation : Text)
    (w : Workspace) : SameFiles w (call root arguments scratch operation w).2 ∧
      (call root arguments scratch operation w).2.runner.calls =
        w.runner.calls ++ [⟨⟨program, arguments⟩, root, scratch⟩] := by
  have hcalls := w.runner.calls_run ⟨⟨program, arguments⟩, root, scratch⟩
  rw [call]
  cases hrun : w.runner.run ⟨⟨program, arguments⟩, root, scratch⟩ with
  | mk result runner =>
    rw [hrun] at hcalls
    dsimp only
    cases result with
    | error reason => exact ⟨⟨rfl, rfl⟩, hcalls⟩
    | ok output =>
      dsimp only
      split <;> exact ⟨⟨rfl, rfl⟩, hcalls⟩

theorem sameFiles_applyDiff (root : Path) (diff : Text) (w : Workspace) :
    SameFiles w (applyDiff root diff w).2 := by
  have hcheck := (call_spec root ["apply", "--check", "--whitespace=nowarn", scratchName]
    (some (scratchText diff)) "apply --check" w).1
  rw [applyDiff]
  split
  · exact ⟨rfl, rfl⟩
  dsimp only
  split
  · rename_i hc
    rwa [hc] at hcheck
  · rename_i w₁ hc
    rw [hc] at hcheck
    exact hcheck.trans (call_spec root _ _ _ w₁).1

/-- The call that puts the targets of a patch under version control. -/
def addCall (m : PatchManager) (p : Patch) : Call :=
  ⟨⟨program, "add".toList :: "--".toList :: p.targets⟩, m.root, none⟩

/-- A commit begins with the targets being put under version control, and leaves the files alone. -/
theorem commit_spec (m : PatchManager) (p : Patch) (w : Workspace) : SameFiles w (m.commit p w).2 ∧
    ∃ more, (m.commit p w).2.runner.calls = w.runner.calls ++ m.addCall p :: more := by
  obtain ⟨hfiles, hcalls⟩ := call_spec m.root ("add".toList :: "--".toList :: p.targets) none "add" w
  rw [commit]
  split
  · rename_i hadd
    rw [hadd] at hfiles hcalls
    exact ⟨hfiles, [], hcalls⟩
  · rename_i w₁ hadd
    rw [hadd] at hfiles hcalls
    obtain ⟨hfiles', hcalls'⟩ := call_spec m.root
      ["commit", "-m", commitMessage m.conventions p.targets p.compliant] none "commit" w₁
    rw [hcalls, List.append_assoc] at hcalls'
    dsimp only
    split
    · rename_i hcommit
      rw [hcommit] at hfiles' hcalls'
      exact ⟨hfiles.trans hfiles', _, hcalls'⟩
    · rename_i hcommit
      rw [hcommit] at hfiles' hcalls'
      exact ⟨hfiles.trans hfiles', _, hcalls'⟩

/-! ### Carrying a patch out -/

/-- What a patch that was carried out has done to the disk. A diff is for version control to apply. -/
def Carried (root : Path) (d d' : Disk) : PatchContent → Prop
  | .unifiedDiff _ => d' = d
  | .editInstructions steps => ∃ ds, Resolved d root steps ds ∧ d' = written d ds

/-- **A patch is carried out, or nothing is changed.** Edit steps need no version control. -/
theorem carryOut_cases (root : Path) (content : PatchContent) (w : Workspace) :
    ∃ w', StaysBelow root w w' ∧ (content.kind = .editInstructions → w'.runner = w.runner) ∧
      ((∃ e, carryOut root content w = (.error e, w') ∧ w'.disk = w.disk) ∨
        carryOut root content w = (.ok (), w') ∧ Carried root w.disk w'.disk content) := by
  cases content with
  | unifiedDiff diff =>
    have hfiles := sameFiles_applyDiff root diff w
    refine ⟨(applyDiff root diff w).2, hfiles.staysBelow root, nofun, ?_⟩
    rw [carryOut]
    cases hdiff : applyDiff root diff w with
    | mk result w' =>
      rw [hdiff] at hfiles
      cases result with
      | error e => exact Or.inl ⟨e, rfl, hfiles.disk⟩
      | ok u => exact Or.inr ⟨rfl, hfiles.disk⟩
  | editInstructions steps =>
    refine ⟨(w.perform (applySteps root steps)).2,
      Workspace.staysBelow_perform (within_applySteps root steps) w, fun _ => rfl, ?_⟩
    rw [carryOut, Workspace.perform]
    rcases run_applySteps root steps w.disk with ⟨e, hrun⟩ | ⟨ds, hds, hrun⟩
    · rw [hrun]
      exact Or.inl ⟨e, rfl, rfl⟩
    · rw [hrun]
      exact Or.inr ⟨rfl, ds, hds, rfl⟩

/-! ### The three ends -/

/-- **How applying a patch ends**, with what is left. -/
inductive Applied (m : PatchManager) (id : PatchId) (w : Workspace) :
    Except PatchError ApplyReport × PatchManager × Workspace → Prop where
  /-- Validation refused the patch. -/
  | refused {e : PatchError} {w' : Workspace} (reached : StaysBelow m.root w w')
      (invalid : m.validate w.disk id = .error e) (disk : w'.disk = w.disk)
      (runner : w'.runner = w.runner) :
      Applied m id w (.error e, m.update id Patch.refused, w')
  /-- What the patch says could not be carried out. -/
  | failed {p : Patch} {e : PatchError} {w' : Workspace} (reached : StaysBelow m.root w w')
      (admits : m.Admits w.disk id p) (disk : w'.disk = w.disk)
      (runner : p.content.kind = .editInstructions → w'.runner = w.runner) :
      Applied m id w (.error e, m.update id Patch.refused, w')
  /-- The patch was carried out. -/
  | carried {p : Patch} {outcome : CommitOutcome} {w' : Workspace} (reached : StaysBelow m.root w w')
      (admits : m.Admits w.disk id p) (disk : Carried m.root w.disk w'.disk p.content)
      (calls : p.content.kind = .editInstructions → ∃ more, w'.runner.calls = w.runner.calls ++
        if m.policy.allows p.autoCommit then m.addCall p :: more else []) :
      Applied m id w (.ok ⟨id, p.content.kind, p.targets, outcome⟩, m.update id Patch.applied, w')

/-- What validation does with the files, as a task in a workspace. -/
theorem exists_admitting (m : PatchManager) (id : PatchId) (w : Workspace) :
    ∃ w₁, w.perform (m.admitting id) = (((m.admitting id).run w.disk).1, w₁) ∧
      StaysBelow m.root w w₁ ∧ w₁.disk = w.disk ∧ w₁.runner = w.runner := by
  have hlooks := (within_admitting m id).mono (fun _ hc => hc.staysBelow) fun _ h => h
  exact ⟨_, rfl, Workspace.staysBelow_perform hlooks w, run_admitting_snd m id w.disk, rfl⟩

/-- **A patch that validation lets through** is carried out, and committed if that is asked for and
allowed. Validation leaves the files and the commands of the workspace alone. -/
theorem apply_of_admits (h : m.Admits w.disk id p) :
    ∃ w₁, StaysBelow m.root w w₁ ∧ w₁.disk = w.disk ∧ w₁.runner = w.runner ∧
      m.apply id w = match carryOut m.root p.content w₁ with
        | (.error e, w₂) => (.error e, m.update id Patch.refused, w₂.emit (.patchRejected id e.message))
        | (.ok (), w₂) =>
          let c := if m.policy.allows p.autoCommit then
            m.commit p (w₂.emit (.patchApplied id p.targets.length))
            else (.skipped, w₂.emit (.patchApplied id p.targets.length))
          (.ok ⟨id, p.content.kind, p.targets, c.1⟩, m.update id Patch.applied, c.2) := by
  have hrun : (m.admitting id).run w.disk = (.ok p, w.disk) := admitting_eq_ok.mpr ⟨rfl, h⟩
  obtain ⟨w₁, hperform, hreached, hdisk, hrunner⟩ := exists_admitting m id w
  refine ⟨w₁, hreached, hdisk, hrunner, ?_⟩
  rw [apply, hperform, hrun]
  dsimp only
  generalize carryOut m.root p.content w₁ = carried
  obtain ⟨result, w₂⟩ := carried
  cases result <;> rfl

/-- **Applying a patch** ends in one of the three ways. -/
theorem applied (m : PatchManager) (id : PatchId) (w : Workspace) : Applied m id w (m.apply id w) := by
  cases hadmit : ((m.admitting id).run w.disk).1 with
  | error e =>
    obtain ⟨w₁, hperform, hreached, hdisk, hrunner⟩ := exists_admitting m id w
    rw [apply, hperform, hadmit]
    exact .refused hreached (admitting_fst_eq_error hadmit) hdisk hrunner
  | ok p =>
    have hp : m.Admits w.disk id p :=
      (admitting_eq_ok.mp (Prod.ext hadmit (run_admitting_snd m id w.disk))).2
    obtain ⟨w₁, hreached, hdisk, hrunner, happly⟩ := apply_of_admits hp
    obtain ⟨w₂, hreached₂, hrunner₂, ⟨e, hcarry, hdisk₂⟩ | ⟨hcarry, hcarried⟩⟩ :=
      carryOut_cases m.root p.content w₁
    · rw [happly, hcarry]
      exact .failed (hreached.trans hreached₂) hp (hdisk₂.trans hdisk) fun hk =>
        (hrunner₂ hk).trans hrunner
    · rw [hdisk] at hcarried
      rw [happly, hcarry]
      by_cases hallowed : m.policy.allows p.autoCommit
      · -- the patch asks to be committed, and may be
        obtain ⟨hfiles, more, hcalls⟩ := commit_spec m p (w₂.emit (.patchApplied id p.targets.length))
        have hend : Carried m.root w.disk
            (m.commit p (w₂.emit (.patchApplied id p.targets.length))).2.disk p.content := by
          rw [hfiles.disk]
          exact hcarried
        have hlast := (hreached.trans hreached₂).trans (hfiles.staysBelow m.root)
        dsimp only
        rw [if_pos hallowed]
        refine .carried hlast hp hend fun hk => ⟨more, ?_⟩
        rw [if_pos hallowed, ← hrunner, ← hrunner₂ hk]
        exact hcalls
      · dsimp only
        rw [if_neg hallowed]
        refine .carried (hreached.trans hreached₂) hp hcarried fun hk => ⟨[], ?_⟩
        rw [if_neg hallowed, List.append_nil, ← hrunner, ← hrunner₂ hk]
        rfl

section Applied

variable {r : Except PatchError ApplyReport × PatchManager × Workspace}

theorem Applied.staysBelow (h : Applied m id w r) : StaysBelow m.root w r.2.2 := by
  cases h <;> assumption

/-- The outcome decides what becomes of the patch. -/
theorem Applied.manager_eq (h : Applied m id w r) : r.2.1 = m.update id (Patch.ended r.1) := by
  cases h <;> rfl

/-- Only a pending patch is carried out. -/
theorem Applied.pending_of_ok {report : ApplyReport} (h : Applied m id w r)
    (hp : m.get? id = some p) (hr : r.1 = .ok report) : p.status = .pending := by
  cases h with
  | refused reached invalid disk runner => cases hr
  | failed reached admits disk runner => cases hr
  | carried reached admits disk calls =>
    obtain rfl := Option.some.inj (hp.symm.trans admits.get?_eq)
    exact admits.pending

/-- A patch that is not pending gets no further than its validation. -/
theorem Applied.unchanged_of_resolved (h : Applied m id w r) (hp : m.get? id = some p)
    (hs : p.status ≠ .pending) : r.2.2.disk = w.disk ∧ r.2.2.runner = w.runner := by
  cases h with
  | refused reached invalid disk runner => exact ⟨disk, runner⟩
  | failed reached admits disk runner =>
    obtain rfl := Option.some.inj (hp.symm.trans admits.get?_eq)
    exact absurd admits.pending hs
  | carried reached admits disk calls =>
    obtain rfl := Option.some.inj (hp.symm.trans admits.get?_eq)
    exact absurd admits.pending hs

end Applied

/-! ### All or nothing -/

/-- **A patch of edit steps is carried out in full or not at all.** If applying it fails, at whatever
stage and for whatever reason, the disk is the one there was, no command was run, and the patch is
invalid if it was pending. -/
theorem apply_all_or_nothing (hp : m.get? id = some p) (hk : p.content.kind = .editInstructions)
    (he : (m.apply id w).1 = .error e) :
    (m.apply id w).2.2.disk = w.disk ∧ (m.apply id w).2.2.runner = w.runner ∧
      (p.status = .pending → (m.apply id w).2.1.get? id = some { p with status := .invalid }) := by
  have hrefused : p.status = .pending →
      (m.update id Patch.refused).get? id = some { p with status := .invalid } := by
    intro hs
    rw [get?_update_self hp, Patch.refused, if_pos hs]
  have hends := applied m id w
  generalize m.apply id w = r at hends he ⊢
  cases hends with
  | refused reached invalid disk runner => exact ⟨disk, runner, hrefused⟩
  | failed reached admits disk runner =>
    obtain rfl := Option.some.inj (hp.symm.trans admits.get?_eq)
    exact ⟨disk, runner hk, hrefused⟩
  | carried reached admits disk calls => cases he

/-! ### A small project -/

/-- A project with two files. -/
def smallProject : Disk :=
  { nodes := [(["p"], .directory), (["p", "a.cpp"], .file (Text.toBytes "int a;\n")),
      (["p", "b.cpp"], .file (Text.toBytes "int b;\n"))] }

/-- A block that replaces one text by another in a file. -/
def block (file search replacement : Text) : Text :=
  "FILE: " ++ file ++ "\n<<<<<<< SEARCH\n" ++ search ++ "\n=======\n" ++ replacement ++
    "\n>>>>>>> REPLACE\n"

/-- The project's manager with one patch, named `1`. -/
def holding (text : Text) (targets : List Text) : PatchManager :=
  ({ root := "/p" } : PatchManager).insert "1" (Patch.ofText text targets true)

/-- A patch whose first file could be changed and whose second could not. -/
def halfGood : PatchManager :=
  holding (block "a.cpp" "int a;" "int c;" ++ block "b.cpp" "int d;" "int e;") []

/-- The first file of such a patch keeps its content, and version control is not called. -/
theorem halfGood_changes_nothing :
    (halfGood.apply "1" ⟨smallProject, {}, [], []⟩).1 = .error (.searchTextNotFound "b.cpp" "int d;") ∧
      (halfGood.apply "1" ⟨smallProject, {}, [], []⟩).2.2.disk = smallProject ∧
      (halfGood.apply "1" ⟨smallProject, {}, [], []⟩).2.2.runner.calls = [] ∧
      ((halfGood.apply "1" ⟨smallProject, {}, [], []⟩).2.1.get? "1").map Patch.status =
        some .invalid := by
  have hget : halfGood.get? "1" =
      some (Patch.ofText (block "a.cpp" "int a;" "int c;" ++ block "b.cpp" "int d;" "int e;") [] true) := by
    decide +kernel
  have hfails : (halfGood.apply "1" ⟨smallProject, {}, [], []⟩).1 =
      .error (.searchTextNotFound "b.cpp" "int d;") := by
    decide +kernel
  obtain ⟨hdisk, hrunner, hstatus⟩ := apply_all_or_nothing hget (by decide +kernel) hfails
  refine ⟨hfails, hdisk, by rw [hrunner], ?_⟩
  rw [hstatus (by decide +kernel)]
  rfl

end PatchManager

end BuildMender
