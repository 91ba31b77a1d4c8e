import BuildMender.Cli
import BuildMender.Proofs.Fix.Account
import BuildMender.Proofs.Patch.Compliance

/-!
# What gets committed

There are two ways to a commit: the loop that mends a build, and the task that applies a patch from a
file. Both put the patch in, note whether it keeps the conventions, and apply it. Under the policy that
only what keeps them is committed, both commit nothing else: whenever a commit is made, every file that
the steps of the patch touch keeps the conventions on the disk that is left
(`BuildMender.commits_keep_conventions`).

What one patch does is settled first, for any manager (`BuildMender.PatchManager.commitsKeep_taking`).
For the loop it remains to see that the manager is the same in every attempt, up to the patches that it
has: an attempt puts in one patch under a new name, and touches no other.
-/

namespace BuildMender

/-- A call that commits. -/
def Call.IsCommit (c : Call) : Prop :=
  c.command.program = PatchManager.program ∧ c.command.arguments.head? = some ("commit" : String).toList

instance (c : Call) : Decidable c.IsCommit := inferInstanceAs (Decidable (_ ∧ _))

namespace PatchManager

variable {m m' : PatchManager} {id : PatchId} {text : Text} {targets : List Text} {w w' : Workspace}
  {d : Disk}

/-! ### A patch taken in -/

/-- **A patch taken in**: put in under a name, with note taken of whether it keeps the conventions. -/
def taking (m : PatchManager) (id : PatchId) (text : Text) (targets : List Text) (d : Disk) :
    PatchManager :=
  let made := m.insert id (Patch.ofText text targets true)
  (made.setCompliant id (Mending.nonCompliantFiles made d id).isEmpty).toOption.getD made

/-- Two managers of one project under one policy, whatever their patches. -/
structure SameProject (m m' : PatchManager) : Prop where
  root : m'.root = m.root
  policy : m'.policy = m.policy
  conventions : m'.conventions = m.conventions

theorem SameProject.trans {m'' : PatchManager} (h : SameProject m m') (h' : SameProject m' m'') :
    SameProject m m'' :=
  ⟨h'.root.trans h.root, h'.policy.trans h.policy, h'.conventions.trans h.conventions⟩

theorem get?_insert_self (hnew : m.get? id = none) (p : Patch) : (m.insert id p).get? id = some p := by
  rw [get?_insert, hnew, if_pos rfl, Option.none_or]

/-- The patch that was put in is there, so that the note can be taken. -/
theorem taking_eq (hnew : m.get? id = none) (text : Text) (targets : List Text) (d : Disk) :
    m.taking id text targets d = (m.insert id (Patch.ofText text targets true)).update id
      (noted (Mending.nonCompliantFiles (m.insert id (Patch.ofText text targets true)) d id).isEmpty) := by
  rw [taking]
  rcases setCompliant_cases (m.insert id (Patch.ofText text targets true)) id
    (Mending.nonCompliantFiles (m.insert id (Patch.ofText text targets true)) d id).isEmpty with
    ⟨hnone, -⟩ | h
  · rw [get?_insert_self hnew] at hnone
    cases hnone
  · exact h

theorem sameProject_taking (hnew : m.get? id = none) (text : Text) (targets : List Text) (d : Disk) :
    SameProject m (m.taking id text targets d) := by
  rw [taking_eq hnew]
  exact ⟨rfl, rfl, rfl⟩

theorem sameProject_apply (m : PatchManager) (id : PatchId) (w : Workspace) :
    SameProject m (m.apply id w).2.1 := by
  rw [(applied m id w).manager_eq]
  exact ⟨rfl, rfl, rfl⟩

/-- A name that is not taken stays so, if it is not the name of the patch. -/
theorem get?_apply_taking {id' : PatchId} (hnew : m.get? id = none) (hne : id' ≠ id)
    (hnone : m.get? id' = none) :
    ((m.taking id text targets d).apply id w).2.1.get? id' = none := by
  rw [(applied _ id w).manager_eq, get?_update, if_neg hne, taking_eq hnew, get?_update, if_neg hne,
    get?_insert, if_neg hne, hnone, Option.none_or]

/-! ### Commits -/

/-- **Commits keep the conventions** from one workspace to another, where a patch of edit steps was taken
in and applied in between: if a commit was made, the files of its steps keep them; and if the patch could
not even be checked, nothing was called. -/
structure CommitsKeep (m : PatchManager) (text : Text) (targets : List Text) (w w' : Workspace) :
    Prop where
  clean : (∃ c ∈ w'.runner.calls.drop w.runner.calls.length, c.IsCommit) →
    ∀ s ∈ EditStep.parse text, KeepsConventions m.conventions m.root w'.disk (m.root.join ⟨s.file⟩)
  unchecked : ∀ id e, m.get? id = none →
    (m.insert id (Patch.ofText text targets true)).compliance w.disk id = .error e →
      w'.runner.calls = w.runner.calls

/-- Where nothing was called there is nothing to show. -/
theorem commitsKeep_of_calls (h : w'.runner.calls = w.runner.calls) :
    CommitsKeep m text targets w w' := by
  refine ⟨?_, fun _ _ _ _ => h⟩
  rintro ⟨c, hc, -⟩
  rw [h, List.drop_length] at hc
  cases hc

theorem content_ofText (hk : PatchKind.ofText text = .editInstructions) (targets : List Text)
    (compliant : Bool) : (Patch.ofText text targets compliant).content =
      .editInstructions (EditStep.parse text) := by
  rw [Patch.ofText, PatchContent.ofText, hk]

/-- How checking a patch that was just put in comes out, which does not depend on the other patches. -/
theorem compliance_insert (hnew : m.get? id = none) (hk : PatchKind.ofText text = .editInstructions)
    (targets : List Text) (d : Disk) :
    (m.insert id (Patch.ofText text targets true)).compliance d id =
      ((Drafts.ofSteps m.root (EditStep.parse text)).run d).1.map fun ds =>
        violations m.conventions (ds.map fun e => (Patch.relativeName m.root e.1, e.2)) :=
  compliance_of_steps (get?_insert_self hnew _) (content_ofText hk targets true) d

/-- The other patches do not matter. -/
theorem CommitsKeep.of_sameProject (h : CommitsKeep m' text targets w w') (hm : SameProject m m')
    (hk : PatchKind.ofText text = .editInstructions) (hnew : m'.get? id = none) :
    CommitsKeep m text targets w w' where
  clean hc s hs := by
    have := h.clean hc s hs
    rwa [hm.conventions, hm.root] at this
  unchecked id' e hnew' he := by
    rw [compliance_insert hnew' hk, ← hm.root, ← hm.conventions] at he
    exact h.unchecked id e hnew (by rw [compliance_insert hnew hk, he])

/-- **A patch that is taken in and applied** is committed only if the files of its steps keep the
conventions, under the policy that asks for it. -/
theorem commitsKeep_taking (hpolicy : m.policy = .compliant) (hnew : m.get? id = none)
    (hk : PatchKind.ofText text = .editInstructions) (targets : List Text) (w : Workspace) :
    CommitsKeep m text targets w ((m.taking id text targets w.disk).apply id w).2.2 := by
  have hproject := sameProject_taking hnew text targets w.disk
  have htaking := taking_eq hnew text targets w.disk
  have hget : (m.taking id text targets w.disk).get? id = some (noted (Mending.nonCompliantFiles
      (m.insert id (Patch.ofText text targets true)) w.disk id).isEmpty
        (Patch.ofText text targets true)) := by
    rw [htaking, get?_update_self (get?_insert_self hnew _)]
  generalize m.taking id text targets w.disk = m' at hproject hget
  generalize hcompliant : (Mending.nonCompliantFiles (m.insert id (Patch.ofText text targets true)) w.disk
    id).isEmpty = compliant at hget
  have hcontent : (noted compliant (Patch.ofText text targets true)).content =
      .editInstructions (EditStep.parse text) := content_ofText hk targets true
  have hkind : (noted compliant (Patch.ofText text targets true)).content.kind = .editInstructions := by
    rw [hcontent]
    rfl
  by_cases hcalls : (m'.apply id w).2.2.runner.calls = w.runner.calls
  · exact commitsKeep_of_calls hcalls
  · -- it was noted that the patch keeps the conventions, since the policy lets no other be committed
    obtain ⟨hok, hallowed⟩ := applied_of_calls_ne hget hkind hcalls
    rw [hproject.policy, hpolicy] at hallowed
    obtain rfl : compliant = true := hallowed
    obtain ⟨hadmits, ds, hsteps, hwrite⟩ := (apply_ok_iff_of_steps hget hcontent).mp hok
    have hdisk := disk_apply_of_steps hadmits hcontent hsteps hwrite
    obtain ⟨-, hds⟩ := Drafts.resolved_ofSteps hsteps
    rw [hproject.root] at hsteps hds
    refine ⟨fun _ s hs => ?_, fun id' e hnew' he => ?_⟩
    · rw [Mending.nonCompliantFiles, compliance_insert hnew hk, hsteps] at hcompliant
      have hnone := List.map_eq_nil_iff.mp (List.isEmpty_iff.mp hcompliant)
      rw [hdisk]
      exact keepsConventions_written hds hnone hs
    · -- the check cannot have failed on the steps that were worked out
      rw [compliance_insert hnew' hk, hsteps] at he
      cases he

end PatchManager

/-! ### The loop -/

/-- The workspace that the next deed finds: the one before a build, or in the end the last one. -/
def Deed.nextWorkspace (last : Workspace) : List Deed → Workspace
  | .built w _ :: _ => w
  | _ => last

namespace Mending

open PatchManager (SameProject CommitsKeep)

variable {ρ : Type} {m : Mending ρ} {n : Nat} {patches : PatchManager} {b b₁ b₂ b' : Bench ρ}
  {response : Text}

/-- A bench before an attempt: the manager is that of the project, and no name of an attempt to come is
taken. -/
structure Ready (m : Mending ρ) (patches : PatchManager) (n : Nat) (b : Bench ρ) : Prop where
  project : SameProject patches b.patches
  free : ∀ k, n ≤ k → b.patches.get? (m.patchName k) = none

theorem Ready.askAt {r : BuildResult} {answer : Except BackendError Text} (hb : Ready m patches n b)
    (ask : m.askAt r (begun n r b) = (answer, b₁)) : Ready m patches n b₁ := by
  obtain rfl : (m.askAt r (begun n r b)).2 = b₁ := congrArg Prod.snd ask
  exact ⟨hb.project, hb.free⟩

theorem Ready.buildAt {r : BuildResult} (hb : Ready m patches n b) (build : m.buildAt b = (r, b₁)) :
    Ready m patches n b₁ := by
  obtain rfl : (m.buildAt b).2 = b₁ := congrArg Prod.snd build
  exact ⟨hb.project, hb.free⟩

/-- **One patch of the loop**: its commit keeps the conventions, and the bench is ready for the next. -/
theorem Ready.applyAt (hb : Ready m patches n b) (hnames : Function.Injective m.patchName)
    (hpolicy : patches.policy = .compliant) (result : Except PatchError ApplyReport)
    (apply : applyAt (m.patchName n) (register response (m.patchName n) b).2 = (result, b₂)) :
    Ready m patches (n + 1) b₂ ∧ (PatchKind.ofText response = .editInstructions →
      CommitsKeep patches response [] b.workspace b₂.workspace) := by
  have hnew := hb.free n (Nat.le_refl n)
  obtain rfl : (Mending.applyAt (m.patchName n) (register response (m.patchName n) b).2).2 = b₂ :=
    congrArg Prod.snd apply
  refine ⟨⟨?_, fun k hk => ?_⟩, fun hedits => ?_⟩
  · have htaking := PatchManager.sameProject_taking hnew response [] b.workspace.disk
    exact (hb.project.trans htaking).trans (PatchManager.sameProject_apply _ _ _)
  · have hne : m.patchName k ≠ m.patchName n := fun h => by
      have := hnames h
      omega
    exact PatchManager.get?_apply_taking hnew hne (hb.free k (by omega))
  · have hkeep := PatchManager.commitsKeep_taking (hb.project.policy.trans hpolicy) hnew hedits []
      b.workspace
    exact hkeep.of_sameProject hb.project hedits hnew

/-- **Every patch of the loop** is committed only if it keeps the conventions. -/
theorem Course.commitsKeep {left : Nat} {r final : BuildResult} {as : List FixAttempt}
    {ds before rest : List Deed} {outcome : FixOutcome} {w : Workspace}
    (h : m.Course left n r b as ds outcome final b') (hb : Ready m patches n b)
    (hnames : Function.Injective m.patchName) (hpolicy : patches.policy = .compliant)
    (hds : ds = before ++ .asked (.ok response) w :: rest)
    (hk : PatchKind.ofText response = .editInstructions) :
    CommitsKeep patches response [] w (Deed.nextWorkspace b'.workspace rest) := by
  -- the answer is the first one, or one behind the build that followed the first one
  induction h generalizing before with
  | succeeded | interrupted | exhausted => simp at hds
  | backendFailed =>
    rcases before with _ | ⟨d, before⟩ <;> simp at hds
  | patchRejected failed ask apply =>
    rcases before with _ | ⟨d, before⟩
    · simp only [List.nil_append, List.cons.injEq, Deed.asked.injEq, Except.ok.injEq] at hds
      obtain ⟨⟨rfl, rfl⟩, rfl⟩ := hds
      exact ((hb.askAt ask).applyAt hnames hpolicy _ apply).2 hk
    · simp at hds
  | rebuilt failed ask apply build course ih =>
    rcases before with _ | ⟨d, before⟩
    · simp only [List.nil_append, List.cons.injEq, Deed.asked.injEq, Except.ok.injEq] at hds
      obtain ⟨⟨rfl, rfl⟩, rfl⟩ := hds
      exact ((hb.askAt ask).applyAt hnames hpolicy _ apply).2 hk
    · rcases before with _ | ⟨d', before⟩
      · simp at hds
      · simp only [List.cons_append, List.cons.injEq] at hds
        obtain ⟨-, -, hds⟩ := hds
        exact ih (((hb.askAt ask).applyAt hnames hpolicy _ apply).1.buildAt build) hds

end Mending

/-! ### Both ways to a commit -/

/-- The task that applies a patch from a file takes it in and applies it, or leaves all as it is. -/
theorem Cli.World.patch_cases {w : Cli.World} {file root : Path} {s : Cli.Subject} {c : Project}
    {text : Text} (hproject : w.projectOf s = .ok (root, c)) (hinput : w.readInput file = .ok text)
    (targets : List Text) : (w.patch file targets true s).2 = w.workspace ∨
      (w.patch file targets true s).2 = (((w.patchesOf root c).taking (w.patchName 1) text targets
        w.workspace.disk).apply (w.patchName 1) w.workspace).2.2 := by
  rw [patch, hproject]
  dsimp only
  rw [hinput]
  dsimp only
  split
  · exact Or.inl rfl
  · rw [if_pos rfl]
    refine Or.inr ?_
    split
    · rename_i happly
      exact (congrArg (fun r => r.2.2) happly).symm
    · rename_i happly
      exact (congrArg (fun r => r.2.2) happly).symm

open PatchManager (CommitsKeep)

/-- **Nothing is committed that breaks the conventions**, under the policy that asks for it.

* In a run of the loop, between an answer that holds edit steps and what is done next, whatever the builds,
  the backend, version control and the files are like, if no two attempts share the name of a patch.
* By the task that applies a patch from a file, for edit steps and any targets that are given with them. -/
theorem commits_keep_conventions :
    (∀ {ρ : Type} (m : Mending ρ) (b : Bench ρ), b.patches.policy = .compliant →
      Function.Injective m.patchName → (∀ n, b.patches.get? (m.patchName n) = none) →
      ∀ before response w rest, m.deeds b = before ++ .asked (.ok response) w :: rest →
        PatchKind.ofText response = .editInstructions →
          CommitsKeep b.patches response [] w (Deed.nextWorkspace (m.run b).2.workspace rest)) ∧
    ∀ (w : Cli.World) (file : Path) (targets : List Text) (s : Cli.Subject) root c text,
      w.settings.commitPolicy = .compliant → w.projectOf s = .ok (root, c) → w.readInput file = .ok text →
        PatchKind.ofText text = .editInstructions →
          CommitsKeep (w.patchesOf root c) text targets w.workspace (w.patch file targets true s).2 := by
  constructor
  · intro ρ m b hpolicy hnames hfree before response w rest hds hk
    obtain ⟨as, ds, outcome, final, b', hcourse, hrun, hdeeds, -⟩ := m.course_run b
    have hready : Mending.Ready m b.patches 1 (m.buildAt b).2 := ⟨⟨rfl, rfl, rfl⟩, fun k _ => hfree k⟩
    rw [hrun]
    rw [hdeeds] at hds
    rcases before with _ | ⟨d, before⟩
    · simp at hds
    · exact hcourse.commitsKeep hready hnames hpolicy (List.cons.inj hds).2 hk
  · intro w file targets s root c text hpolicy hproject hinput hk
    have hkeep : CommitsKeep (w.patchesOf root c) text targets w.workspace
        (((w.patchesOf root c).taking (w.patchName 1) text targets w.workspace.disk).apply
          (w.patchName 1) w.workspace).2.2 :=
      PatchManager.commitsKeep_taking hpolicy rfl hk targets w.workspace
    rcases Cli.World.patch_cases hproject hinput targets with h | h
    · exact PatchManager.commitsKeep_of_calls (by rw [h])
    · rwa [h]

/-- The loop that mends a build with one patch, whose names are all different. -/
def Mending.tallied : Mending (List BuildResult × List (Except BackendError Text)) :=
  { Mending.scripted 3 with patchName := fun n => List.replicate n '1' }

/-- The small project in a world of its own, with the same patch on the input. -/
def Cli.World.small : Cli.World where
  workspace := ⟨PatchManager.smallProject, {}, [], []⟩
  directory := "/p"
  environment := fun _ => none
  input := Text.toBytes (PatchManager.block "a.cpp" "int a;" "int c;")
  patchName := fun _ => "1"
  now := []

/-- Both ways lead to a commit of a file that keeps the conventions. -/
theorem small_commits_keep_conventions :
    (∃ d₀ w₁ w₂ r, Mending.tallied.deeds Mending.mendable =
        [d₀, .asked (.ok (PatchManager.block "a.cpp" "int a;" "int c;")) w₁, .built w₂ r] ∧
      (∃ c ∈ w₂.runner.calls.drop w₁.runner.calls.length, c.IsCommit) ∧
      ∀ s ∈ EditStep.parse (PatchManager.block "a.cpp" "int a;" "int c;"),
        KeepsConventions {} "/p" w₂.disk (Path.join "/p" ⟨s.file⟩)) ∧
    (∃ c ∈ (Cli.World.small.patch Cli.World.inputPath [] true {}).2.runner.calls, c.IsCommit) ∧
      ∀ s ∈ EditStep.parse (PatchManager.block "a.cpp" "int a;" "int c;"),
        KeepsConventions {} "/p" (Cli.World.small.patch Cli.World.inputPath [] true {}).2.disk
          (Path.join "/p" ⟨s.file⟩) := by
  have hk : PatchKind.ofText (PatchManager.block "a.cpp" "int a;" "int c;") = .editInstructions := by
    decide +kernel
  constructor
  · have hmade : (Mending.tallied.deeds Mending.mendable).map
        (fun d => (d.answer?, d.workspace.runner.calls)) =
        [(none, []), (some (.ok (PatchManager.block "a.cpp" "int a;" "int c;")), []),
          (none, [⟨⟨"git", ["add", "--", "a.cpp"]⟩, "/p", none⟩, ⟨⟨"git", ["commit", "-m",
            PatchManager.commitMessage {} ["a.cpp"] true]⟩, "/p", none⟩])] := by
      decide +kernel
    have hnames : Function.Injective Mending.tallied.patchName := fun n n' h => by
      have hlength := congrArg List.length h
      simpa [Mending.tallied] using hlength
    have hkeep := commits_keep_conventions.1 Mending.tallied Mending.mendable rfl hnames fun _ => rfl
    generalize Mending.tallied.deeds Mending.mendable = deeds at hmade hkeep
    obtain ⟨d₀, deeds, rfl, -, hmade⟩ := List.map_eq_cons_iff.mp hmade
    obtain ⟨d₁, deeds, rfl, h₁, hmade⟩ := List.map_eq_cons_iff.mp hmade
    obtain ⟨d₂, deeds, rfl, h₂, hmade⟩ := List.map_eq_cons_iff.mp hmade
    obtain rfl := List.map_eq_nil_iff.mp hmade
    cases d₁ with
    | built w₁ r₁ => cases (Prod.mk.inj h₁).1
    | asked answer w₁ =>
      cases d₂ with
      | asked answer w₂ => cases (Prod.mk.inj h₂).1
      | built w₂ r =>
        obtain rfl := Option.some.inj (Prod.mk.inj h₁).1
        have hcalls₁ : w₁.runner.calls = [] := (Prod.mk.inj h₁).2
        have hcalls₂ : w₂.runner.calls = _ := (Prod.mk.inj h₂).2
        have hcommit : ∃ c ∈ w₂.runner.calls.drop w₁.runner.calls.length, c.IsCommit := by
          rw [hcalls₁, hcalls₂]
          decide +kernel
        exact ⟨d₀, w₁, w₂, r, rfl, hcommit, (hkeep [d₀] _ w₁ [.built w₂ r] rfl hk).clean hcommit⟩
  · have hcommit : ∃ c ∈ (Cli.World.small.patch Cli.World.inputPath [] true {}).2.runner.calls,
        c.IsCommit := by
      decide +kernel
    have hproject : Cli.World.small.projectOf {} = .ok ("/p", {}) := by
      rfl
    have hinput : Cli.World.small.readInput Cli.World.inputPath =
        .ok (PatchManager.block "a.cpp" "int a;" "int c;") := by
      rfl
    have hkeep := commits_keep_conventions.2 Cli.World.small Cli.World.inputPath [] {} _ _ _ rfl hproject
      hinput hk
    exact ⟨hcommit, hkeep.clean hcommit⟩

end BuildMender
