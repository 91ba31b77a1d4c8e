import BuildMender.Proofs.Patch.Apply

/-!
# The commands of a patch

Applying a patch runs at most four commands of version control: two that check and apply a diff, and two
that add and commit the files. Each of them may fail, and each waits for the one before it. So what is run
is settled by two lists, those that apply what the patch says (`BuildMender.PatchManager.applying`) and
those that put it under version control (`BuildMender.PatchManager.committing`), and by the number of the
first call that fails.

Some of what can go wrong comes before any command: a diff needs a scratch file, and edit steps are worked out
and written without version control (`BuildMender.PatchManager.obstacle?`).

The one thing to know is that the two lists fail differently. A call of the first list that fails is an
error of the patch, which is invalid then, and none of the second list is made. A call of the second list
that fails comes too late for that: the patch is applied and valid, and only the report says that there is
no commit (`BuildMender.PatchManager.calls_up_to_refusal`).
-/

namespace BuildMender

open Runner (FirstRefusal UpToRefusal)

namespace PatchManager

variable {m : PatchManager} {id : PatchId} {p : Patch} {w : Workspace} {root : Path} {i : Nat}
  {reason : Text} {plan : List Command} {r : Runner}

/-! ### Commands in turn -/

/-- A command of version control: its arguments, its scratch file if it has one, and what it is called
in an error. -/
structure Command where
  arguments : List Text
  scratch : Option Text
  operation : Text

/-- The call of a command in the root of the project. -/
def Command.call (root : Path) (c : Command) : Call := ⟨⟨program, c.arguments⟩, root, c.scratch⟩

/-- The error that a command failed for a reason. -/
def Command.error (c : Command) (reason : Text) : PatchError := .versionControl c.operation reason

/-- **Commands run one after another**, up to one that fails: what is wrong, and the runner after them. -/
def inTurn (root : Path) : List Command → Runner → Except PatchError Unit × Runner
  | [], r => (.ok (), r)
  | c :: more, r =>
    match r.refusal? 0 with
    | none => inTurn root more (r.run (c.call root)).2
    | some reason => (.error (c.error reason), (r.run (c.call root)).2)

/-- One command ends as the runner has laid down, and changes nothing but the runner. -/
theorem call_eq (root : Path) (c : Command) (w : Workspace) :
    call root c.arguments c.scratch c.operation w =
      ((inTurn root [c] w.runner).1, { w with runner := (inTurn root [c] w.runner).2 }) := by
  rw [PatchManager.call, inTurn, Runner.refusal?, ← Runner.run_fst w.runner (c.call root), Command.call]
  cases w.runner.run ⟨⟨program, c.arguments⟩, root, c.scratch⟩ with
  | mk result runner =>
    cases result with
    | error reason => rfl
    | ok output => by_cases ho : output.success <;> simp [ho, Command.error, inTurn]

/-- More commands are run after some none of which fails. -/
theorem inTurn_append (root : Path) (plan more : List Command) (r : Runner) :
    inTurn root (plan ++ more) r = match inTurn root plan r with
      | (.error e, r) => (.error e, r)
      | (.ok (), r) => inTurn root more r := by
  induction plan generalizing r with
  | nil => rfl
  | cons c plan ih =>
    rw [List.cons_append, inTurn, inTurn]
    cases r.refusal? 0 with
    | none => exact ih _
    | some reason => rfl

/-- **Commands none of which fails** are all run. -/
theorem inTurn_of_accepted (root : Path) (h : ∀ i < plan.length, r.refusal? i = none) :
    inTurn root plan r = (.ok (), r.after (plan.map (Command.call root))) := by
  induction plan generalizing r with
  | nil => rfl
  | cons c more ih =>
    have hmore : ∀ i < more.length, (r.run (c.call root)).2.refusal? i = none := by
      intro i hi
      rw [Runner.refusal?_run]
      exact h (i + 1) (Nat.succ_lt_succ hi)
    rw [inTurn, h 0 (Nat.succ_pos _)]
    exact ih hmore

/-- **The first command that fails** is the last one that is run, and what is wrong with it is what is
wrong with all. -/
theorem inTurn_of_refusal (root : Path) (h : r.FirstRefusal i reason) (hi : i < plan.length) :
    inTurn root plan r = (.error (plan[i].error reason),
      r.after ((plan.take (i + 1)).map (Command.call root))) := by
  induction plan generalizing r i with
  | nil => exact absurd hi (Nat.not_lt_zero i)
  | cons c more ih =>
    rw [inTurn]
    cases i with
    | zero =>
      rw [h.2]
      rfl
    | succ i =>
      have hfirst : r.refusal? 0 = none := h.1 0 (Nat.succ_pos i)
      have hmore := (Runner.firstRefusal_run (c := c.call root) hfirst).mpr h
      rw [hfirst]
      exact ih hmore (Nat.lt_of_succ_lt_succ hi)

/-- **What is run** is the plan up to the first call that fails. -/
theorem exists_made (root : Path) (plan : List Command) (r : Runner) :
    ∃ made, (inTurn root plan r).2.calls = r.calls ++ made ∧
      r.UpToRefusal (plan.map (Command.call root)) made := by
  rcases r.exists_firstRefusal plan.length with ⟨i, hi, reason, h⟩ | hall
  · refine ⟨(plan.take (i + 1)).map (Command.call root), ?_, ?_⟩
    · rw [inTurn_of_refusal root h hi, Runner.calls_after]
    · rw [List.map_take]
      exact Runner.upToRefusal_take h (by rwa [List.length_map])
  · refine ⟨plan.map (Command.call root), ?_, Runner.upToRefusal_all (by rwa [List.length_map])⟩
    rw [inTurn_of_accepted root hall, Runner.calls_after]

/-! ### The commands of a patch -/

/-- The commands that carry out what a patch says. Edit steps need none. -/
def applying : PatchContent → List Command
  | .unifiedDiff diff =>
    [⟨["apply", "--check", "--whitespace=nowarn", scratchName], some (scratchText diff), "apply --check"⟩,
      ⟨["apply", "--whitespace=nowarn", scratchName], some (scratchText diff), "apply"⟩]
  | .editInstructions _ => []

/-- The commands that put the targets of a patch under version control, whether or not that is asked
for. -/
def adding (m : PatchManager) (p : Patch) : List Command :=
  [⟨"add".toList :: "--".toList :: p.targets, none, "add"⟩,
    ⟨["commit", "-m", commitMessage m.conventions p.targets p.compliant], none, "commit"⟩]

/-- **The commands that put a patch under version control**: none, if the policy and the patch do not ask
for it. -/
def committing (m : PatchManager) (p : Patch) : List Command :=
  if m.policy.allows p.autoCommit then m.adding p else []

/-- **What is in the way of a patch** before version control is called: there can be no scratch file for its
diff, or its edit steps cannot be worked out and written. -/
def obstacle? (root : Path) (d : Disk) : PatchContent → Option PatchError
  | .unifiedDiff _ => scratchError? d
  | .editInstructions steps =>
    match ((applySteps root steps).run d).1 with
    | .error e => some e
    | .ok () => none

theorem applyDiff_eq (root : Path) (diff : Text) (h : scratchError? w.disk = none) :
    applyDiff root diff w = ((inTurn root (applying (.unifiedDiff diff)) w.runner).1,
      { w with runner := (inTurn root (applying (.unifiedDiff diff)) w.runner).2 }) := by
  have hcheck := call_eq root ⟨["apply", "--check", "--whitespace=nowarn", scratchName],
    some (scratchText diff), "apply --check"⟩ w
  rw [applyDiff, h, applying, inTurn]
  dsimp only at hcheck ⊢
  rw [hcheck, inTurn]
  cases w.runner.refusal? 0 with
  | some reason => rfl
  | none => exact call_eq root ⟨["apply", "--whitespace=nowarn", scratchName], some (scratchText diff),
      "apply"⟩ _

/-- What becomes of a commit, given how its commands ended. -/
def outcomeOf (message : Text) : Except PatchError Unit → CommitOutcome
  | .ok () => .committed message
  | .error e => .failed e.message

/-- The message of the commit of a patch. -/
def messageOf (m : PatchManager) (p : Patch) : Text := commitMessage m.conventions p.targets p.compliant

theorem commit_eq (m : PatchManager) (p : Patch) (w : Workspace) :
    m.commit p w = (outcomeOf (m.messageOf p) (inTurn m.root (m.adding p) w.runner).1,
      { w with runner := (inTurn m.root (m.adding p) w.runner).2 }) := by
  have hadd := call_eq m.root ⟨"add".toList :: "--".toList :: p.targets, none, "add"⟩ w
  rw [commit, adding, inTurn]
  dsimp only at hadd ⊢
  rw [hadd, inTurn]
  cases w.runner.refusal? 0 with
  | some reason => rfl
  | none =>
    have hcommit := call_eq m.root ⟨["commit", "-m", m.messageOf p], none, "commit"⟩
      { w with runner := (w.runner.run (Command.call m.root
        ⟨"add".toList :: "--".toList :: p.targets, none, "add"⟩)).2 }
    dsimp only [inTurn, messageOf] at hcommit ⊢
    rw [hcommit]
    split <;> simp_all [outcomeOf]

/-! ### What one request runs -/

/-- Carrying a patch out runs the commands that apply it, if nothing is in the way. Edit steps need none. -/
theorem exists_carryOut (h : obstacle? root w.disk p.content = none) :
    ∃ w', carryOut root p.content w = ((inTurn root (applying p.content) w.runner).1, w') ∧
      w'.runner = (inTurn root (applying p.content) w.runner).2 := by
  cases hcontent : p.content with
  | unifiedDiff diff => exact ⟨_, applyDiff_eq root diff (by rwa [hcontent] at h), rfl⟩
  | editInstructions steps =>
    refine ⟨(w.perform (applySteps root steps)).2, ?_, rfl⟩
    rw [hcontent, obstacle?] at h
    split at h
    · cases h
    · rename_i hrun
      rw [carryOut, Workspace.perform, hrun]
      rfl

/-- **What is in the way of a patch** is the error, and no command is run. -/
theorem exists_carryOut_of_obstacle {e : PatchError} (h : obstacle? root w.disk p.content = some e) :
    ∃ w', carryOut root p.content w = (.error e, w') ∧ w'.runner = w.runner := by
  cases hcontent : p.content with
  | unifiedDiff diff =>
    rw [hcontent] at h
    have hscratch : scratchError? w.disk = some e := h
    exact ⟨w, by rw [carryOut, applyDiff, hscratch], rfl⟩
  | editInstructions steps =>
    refine ⟨(w.perform (applySteps root steps)).2, ?_, rfl⟩
    rw [hcontent, obstacle?] at h
    split at h
    · rename_i hrun
      obtain rfl := Option.some.inj h
      rw [carryOut, Workspace.perform, hrun]
    · cases h

theorem apply_of_obstacle {e : PatchError} (h : m.Admits w.disk id p)
    (he : obstacle? m.root w.disk p.content = some e) :
    (m.apply id w).1 = .error e ∧ (m.apply id w).2.2.runner = w.runner := by
  obtain ⟨w₁, -, hdisk, hrunner, happly⟩ := apply_of_admits h
  obtain ⟨w₂, hcarry, hrunner₂⟩ := exists_carryOut_of_obstacle (hdisk.symm ▸ he)
  rw [happly, hcarry]
  exact ⟨rfl, hrunner₂.trans hrunner⟩

/-- **What applying a patch comes to** that validation lets through, in terms of its commands: if nothing is in
the way, it fails if one of those does that apply it, and otherwise the commands that commit it are run after
them. -/
theorem apply_eq_inTurn (h : m.Admits w.disk id p) (hclear : obstacle? m.root w.disk p.content = none) :
    (m.apply id w).2.2.runner =
        (inTurn m.root (applying p.content ++ m.committing p) w.runner).2 ∧
      (m.apply id w).1 = (match inTurn m.root (applying p.content) w.runner with
        | (.error e, _) => .error e
        | (.ok (), r) => .ok ⟨id, p.content.kind, p.targets,
            if m.policy.allows p.autoCommit then
              outcomeOf (m.messageOf p) (inTurn m.root (m.adding p) r).1
            else .skipped⟩) := by
  obtain ⟨w₁, -, hdisk, hrunner, happly⟩ := apply_of_admits h
  obtain ⟨w₂, hcarry, hrunner₂⟩ := exists_carryOut (hdisk.symm ▸ hclear)
  rw [hrunner] at hcarry hrunner₂
  rw [happly, hcarry, inTurn_append]
  cases hturn : inTurn m.root (applying p.content) w.runner with
  | mk result r =>
    rw [hturn] at hrunner₂
    cases result with
    | error e => exact ⟨hrunner₂, rfl⟩
    | ok u =>
      have hr : w₂.runner = r := hrunner₂
      dsimp only
      by_cases hallowed : m.policy.allows p.autoCommit
      · rw [if_pos hallowed, if_pos hallowed, commit_eq, committing, if_pos hallowed, ← hr]
        exact ⟨rfl, rfl⟩
      · rw [if_neg hallowed, if_neg hallowed, committing, if_neg hallowed]
        exact ⟨hrunner₂, rfl⟩

/-- The status of a pending patch after a request to apply it. -/
theorem status_of_apply (hp : m.get? id = some p) (hs : p.status = .pending) (w : Workspace) :
    ((m.apply id w).2.1.get? id).map Patch.status =
      some (match (m.apply id w).1 with
        | .ok _ => .valid
        | .error _ => .invalid) := by
  rw [(applied m id w).manager_eq, get?_update_self hp]
  cases (m.apply id w).1 with
  | ok report => rfl
  | error e => simp [Patch.ended, Patch.refused, hs]

/-- What became of a commit, by the answers of the runner to the two commands. -/
theorem outcomeOf_adding (m : PatchManager) (p : Patch) (r : Runner) :
    (r.refusal? 0 = none ∧ r.refusal? 1 = none ∧
        outcomeOf (m.messageOf p) (inTurn m.root (m.adding p) r).1 = .committed (m.messageOf p)) ∨
      ¬(r.refusal? 0 = none ∧ r.refusal? 1 = none) ∧
        ∃ reason, outcomeOf (m.messageOf p) (inTurn m.root (m.adding p) r).1 = .failed reason := by
  have hlength : (m.adding p).length = 2 := rfl
  rcases r.exists_firstRefusal 2 with ⟨i, hi, reason, h⟩ | hall
  · rw [inTurn_of_refusal m.root h (hlength ▸ hi)]
    refine Or.inr ⟨fun hnone => ?_, _, rfl⟩
    have hrefused := h.2
    have hcases : i = 0 ∨ i = 1 := by omega
    rcases hcases with rfl | rfl
    · rw [hnone.1] at hrefused
      cases hrefused
    · rw [hnone.2] at hrefused
      cases hrefused
  · rw [inTurn_of_accepted m.root (hlength ▸ hall)]
    exact Or.inl ⟨hall 0 (by omega), hall 1 (by omega), rfl⟩

/-- **The calls of one request**, for a pending patch that validation lets through. If there is something in
the way of it before version control is called, that is the error, the patch is invalid, and there are no
calls. If there is not:

* the calls are the plan up to the first call that fails, where the plan is to check and to apply a diff
  and then, if the policy and the patch ask for it, to add the targets and to commit;
* if a call fails that applies a diff, that is the error, the patch is invalid, and nothing is added or
  committed;
* if none does, the patch is applied and valid; the report says that it was committed if both the other
  calls were made and did not fail, that it could not be if one of them failed, and that it was left at
  that if the plan has none. -/
theorem calls_up_to_refusal (hp : m.get? id = some p) (hv : m.validate w.disk id = .ok ()) :
    (∀ e, obstacle? m.root w.disk p.content = some e →
      (m.apply id w).1 = .error e ∧ ((m.apply id w).2.1.get? id).map Patch.status = some .invalid ∧
      (m.apply id w).2.2.runner.calls = w.runner.calls) ∧
    (obstacle? m.root w.disk p.content = none →
      (∃ made, (m.apply id w).2.2.runner.calls = w.runner.calls ++ made ∧
        w.runner.UpToRefusal ((applying p.content ++ m.committing p).map (Command.call m.root)) made) ∧
      (∀ i reason, w.runner.FirstRefusal i reason → ∀ hi : i < (applying p.content).length,
        (m.apply id w).1 = .error (.versionControl (applying p.content)[i].operation reason) ∧
        ((m.apply id w).2.1.get? id).map Patch.status = some .invalid ∧
        (m.apply id w).2.2.runner.calls =
          w.runner.calls ++ ((applying p.content).take (i + 1)).map (Command.call m.root)) ∧
      ((∀ i < (applying p.content).length, w.runner.refusal? i = none) →
        ∃ outcome, (m.apply id w).1 = .ok ⟨id, p.content.kind, p.targets, outcome⟩ ∧
          ((m.apply id w).2.1.get? id).map Patch.status = some .valid ∧
          (outcome = .skipped ↔ ¬m.policy.allows p.autoCommit) ∧
          ((∃ message, outcome = .committed message) ↔ m.policy.allows p.autoCommit ∧
            w.runner.refusal? (applying p.content).length = none ∧
            w.runner.refusal? ((applying p.content).length + 1) = none) ∧
          ((∃ reason, outcome = .failed reason) ↔ m.policy.allows p.autoCommit ∧
            ¬(w.runner.refusal? (applying p.content).length = none ∧
              w.runner.refusal? ((applying p.content).length + 1) = none)))) := by
  obtain ⟨p', hadmits⟩ := validate_eq_ok.mp hv
  obtain rfl := Option.some.inj (hp.symm.trans hadmits.get?_eq)
  have hstatus := status_of_apply hp hadmits.pending w
  refine ⟨fun e he => ?_, fun hclear => ?_⟩
  · obtain ⟨hresult, hrunner⟩ := apply_of_obstacle hadmits he
    rw [hresult] at hstatus
    exact ⟨hresult, hstatus, by rw [hrunner]⟩
  obtain ⟨hrunner, hresult⟩ := apply_eq_inTurn hadmits hclear
  refine ⟨?_, fun i reason h hi => ?_, fun hall => ?_⟩
  · rw [hrunner]
    exact exists_made m.root _ _
  · rw [inTurn_of_refusal m.root h hi] at hresult
    rw [hresult] at hstatus
    refine ⟨hresult, hstatus, ?_⟩
    rw [hrunner, inTurn_append, inTurn_of_refusal m.root h hi, Runner.calls_after]
  · rw [inTurn_of_accepted m.root hall] at hresult
    rw [hresult] at hstatus
    refine ⟨_, hresult, hstatus, ?_⟩
    by_cases hallowed : m.policy.allows p.autoCommit
    · -- the two commands come behind those that applied the patch
      have hout := outcomeOf_adding m p
        (w.runner.after ((applying p.content).map (Command.call m.root)))
      simp only [Runner.refusal?_after, List.length_map, Nat.add_zero] at hout
      rw [if_pos hallowed]
      rcases hout with ⟨hadd, hcommit, hout⟩ | ⟨hrefused, reason, hout⟩
      · simp [hout, hallowed, hadd, hcommit]
      · simp [hout, hallowed, hrefused]
    · simp [hallowed]

/-- A diff of one line. -/
def smallDiff : Text := "--- a/a.cpp\n+++ b/a.cpp\n@@ -1 +1 @@\n-int a;\n+int c;\n"

/-- The project's workspace, where all is well but for the commit, the fourth call. -/
def commitless : Workspace :=
  ⟨smallProject, { results := [.ok {}, .ok {}, .ok {}, .error "no such program"] }, [], []⟩

/-- The same workspace on a machine that has no room for a scratch file. -/
def scratchless : Workspace :=
  { commitless with
    disk := { smallProject with
      refuses := fun deed => if deed = .createScratch then some .permissionDenied else none } }

/-- A diff that is applied and cannot be committed is applied; without a scratch file it is not, and version
control is not called. -/
theorem smallDiff_applied_commitless :
    (∃ reason, ((holding smallDiff []).apply "1" commitless).1 =
      .ok ⟨"1", .unifiedDiff, ["a.cpp"], .failed reason⟩) ∧
    (((holding smallDiff []).apply "1" commitless).2.1.get? "1").map Patch.status = some .valid ∧
    ((holding smallDiff []).apply "1" scratchless).1 = .error (.files "/tmp" .permissionDenied) ∧
    ((holding smallDiff []).apply "1" scratchless).2.2.runner.calls = [] := by
  have hget : (holding smallDiff []).get? "1" = some (Patch.ofText smallDiff [] true) := by
    decide +kernel
  have hdiff : (Patch.ofText smallDiff [] true).content = .unifiedDiff smallDiff := by decide +kernel
  have hvalid : (holding smallDiff []).validate commitless.disk "1" = .ok () := by decide +kernel
  have hvalid' : (holding smallDiff []).validate scratchless.disk "1" = .ok () := by decide +kernel
  obtain ⟨outcome, happlied, hstatus, -, -, hfailed⟩ :=
    ((calls_up_to_refusal hget hvalid).2 (by rw [hdiff]; rfl)).2.2 (by decide +kernel)
  obtain ⟨reason, rfl⟩ := hfailed.mpr (by decide +kernel)
  obtain ⟨hrefused, -, hcalls⟩ :=
    (calls_up_to_refusal hget hvalid').1 (.files "/tmp" .permissionDenied) (by rw [hdiff]; rfl)
  exact ⟨⟨reason, happlied⟩, hstatus, hrefused, hcalls⟩

end PatchManager

end BuildMender
