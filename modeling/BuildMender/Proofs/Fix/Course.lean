import BuildMender.Fix.Loop

/-!
# The course of mending

The loop has others do the work: it has builds run, it asks the backend, and it has patches applied. To
speak of what they were asked to do, they are made to write it down (`BuildMender.Mending.recorded`). The
loop itself is not touched for that, and it does not notice: it runs as it would
(`BuildMender.Mending.course_attempts`), since what the two components are is no business of the loop.

What the loop can do is then said once, as `BuildMender.Mending.Course`: one constructor for each way in
which it ends, and one for a turn that is followed by another. Everything that is proved about a run is an
induction over its course. A course begins with a build that has been run already; that is the shape in
which the recursion of the loop meets it.
-/

namespace BuildMender

/-- Something that the loop had others do. -/
inductive Deed where
  /-- A build in a workspace, and its result. -/
  | built (before : Workspace) (r : BuildResult)
  /-- The answer of the backend, and the workspace after it. -/
  | asked (answer : Except BackendError Text) (after : Workspace)

namespace Deed

/-- The result, if the deed is a build. -/
def result? : Deed → Option BuildResult
  | .built _ r => some r
  | .asked _ _ => none

/-- The answer, if the deed is that the backend was asked. -/
def answer? : Deed → Option (Except BackendError Text)
  | .built _ _ => none
  | .asked answer _ => some answer

/-- The workspace that goes with a deed: the one before a build, or the one after an answer. -/
def workspace : Deed → Workspace
  | .built w _ => w
  | .asked _ w => w

/-- The results of the builds among some deeds. -/
def results (ds : List Deed) : List BuildResult := ds.filterMap result?

/-- The answers of the backend among some deeds. -/
def answers (ds : List Deed) : List (Except BackendError Text) := ds.filterMap answer?

@[simp] theorem results_nil : results [] = [] := rfl

@[simp] theorem results_built (w : Workspace) (r : BuildResult) (ds : List Deed) :
    results (.built w r :: ds) = r :: results ds := rfl

@[simp] theorem results_asked (answer : Except BackendError Text) (w : Workspace) (ds : List Deed) :
    results (.asked answer w :: ds) = results ds := rfl

@[simp] theorem answers_nil : answers [] = [] := rfl

@[simp] theorem answers_built (w : Workspace) (r : BuildResult) (ds : List Deed) :
    answers (.built w r :: ds) = answers ds := rfl

@[simp] theorem answers_asked (answer : Except BackendError Text) (w : Workspace) (ds : List Deed) :
    answers (.asked answer w :: ds) = answer :: answers ds := rfl

end Deed

/-- A bench whose components write down what they do, after some deeds. -/
def Bench.recording {ρ : Type} (b : Bench ρ) (ds : List Deed) : Bench (ρ × List Deed) :=
  ⟨b.workspace, b.patches, (b.rest, ds)⟩

namespace Mending

variable {ρ : Type}

/-! ### Recording -/

/-- **The same builds and the same backend, with what they do written down.** -/
def recorded (m : Mending ρ) : Mending (ρ × List Deed) where
  build w s :=
    let r := m.build w s.1
    (r.1, r.2.1, r.2.2, s.2 ++ [.built w r.1])
  ask e w s :=
    let r := m.ask e w s.1
    (r.1, r.2.1, r.2.2, s.2 ++ [.asked r.1 r.2.1])
  assemble := m.assemble
  maxAttempts := m.maxAttempts
  patchName := m.patchName

/-- **What was done in a run**, in order. -/
def deeds (m : Mending ρ) (b : Bench ρ) : List Deed := (m.recorded.run (b.recording [])).2.rest.2

theorem buildAt_recorded (m : Mending ρ) (b : Bench ρ) (ds : List Deed) :
    m.recorded.buildAt (b.recording ds) =
      ((m.buildAt b).1, (m.buildAt b).2.recording (ds ++ [.built b.workspace (m.buildAt b).1])) := rfl

theorem askAt_recorded (m : Mending ρ) (r : BuildResult) (b : Bench ρ) (ds : List Deed) :
    m.recorded.askAt r (b.recording ds) = ((m.askAt r b).1,
      (m.askAt r b).2.recording (ds ++ [.asked (m.askAt r b).1 (m.askAt r b).2.workspace])) := rfl

theorem applyAt_recording (id : PatchId) (b : Bench ρ) (ds : List Deed) :
    applyAt id (b.recording ds) = ((applyAt id b).1, (applyAt id b).2.recording ds) := rfl

/-! ### The course of a run -/

/-- A build that failed by itself, so that there is something to mend. -/
def Failed (r : BuildResult) : Prop := r.success = false ∧ r.termination = .exited

/-- The bench when an attempt begins. -/
def begun (n : Nat) (r : BuildResult) (b : Bench ρ) : Bench ρ :=
  { b with workspace := b.workspace.emit (.fixIterationStarted n r.errorCount) }

/-- What an attempt is called before anything is known of it. -/
def blank (n : Nat) (r : BuildResult) : FixAttempt := { number := n, errorsBefore := r.errorCount }

/-- An attempt for which there is a patch. -/
def proposed (m : Mending ρ) (n : Nat) (r : BuildResult) (response : Text) (b : Bench ρ) : FixAttempt :=
  { blank n r with
    patchId := some (m.patchName n)
    patchKind := some (PatchKind.ofText response)
    nonCompliantFiles := (register response (m.patchName n) b).1 }

/-- An attempt whose patch was applied, and after which a build was run. -/
def made (m : Mending ρ) (n : Nat) (r : BuildResult) (response : Text) (b : Bench ρ)
    (report : ApplyReport) (r' : BuildResult) : FixAttempt :=
  { m.proposed n r response b with
    applied := true, commit := some report.commit, errorsAfter := some r'.errorCount }

/-- **The course of mending** after a build: how many attempts are left, the number of the next one, the
result of the build, and the bench; then the attempts that are made, what is done in them, why it ends
there, the last result, and the bench in the end. -/
inductive Course (m : Mending ρ) : Nat → Nat → BuildResult → Bench ρ →
    List FixAttempt → List Deed → FixOutcome → BuildResult → Bench ρ → Prop where
  /-- The build succeeds. -/
  | succeeded {left n : Nat} {r : BuildResult} {b : Bench ρ} (success : r.success = true) :
      Course m left n r b [] [] .succeeded r b
  /-- The build did not end by itself. -/
  | interrupted {left n : Nat} {r : BuildResult} {b : Bench ρ} (failure : r.success = false)
      (termination : r.termination ≠ .exited) :
      Course m left n r b [] [] (.buildInterrupted r.termination) r b
  /-- No attempt is left. -/
  | exhausted {n : Nat} {r : BuildResult} {b : Bench ρ} (failed : Failed r) :
      Course m 0 n r b [] [] .iterationsExhausted r b
  /-- The backend gives no answer. -/
  | backendFailed {left n : Nat} {r : BuildResult} {b b₁ : Bench ρ} {e : BackendError}
      (failed : Failed r) (ask : m.askAt r (begun n r b) = (.error e, b₁)) :
      Course m (left + 1) n r b [blank n r] [.asked (.error e) b₁.workspace]
        (.backendFailed e.message) r b₁
  /-- The patch is refused. -/
  | patchRejected {left n : Nat} {r : BuildResult} {b b₁ b₂ : Bench ρ} {response : Text}
      {e : PatchError} (failed : Failed r) (ask : m.askAt r (begun n r b) = (.ok response, b₁))
      (apply : applyAt (m.patchName n) (register response (m.patchName n) b₁).2 = (.error e, b₂)) :
      Course m (left + 1) n r b [m.proposed n r response b₁] [.asked (.ok response) b₁.workspace]
        (.patchRejected e.message) r b₂
  /-- The patch is applied, and another build is run. -/
  | rebuilt {left n : Nat} {r r' final : BuildResult} {b b₁ b₂ b₃ b' : Bench ρ} {response : Text}
      {report : ApplyReport} {as : List FixAttempt} {ds : List Deed} {outcome : FixOutcome}
      (failed : Failed r) (ask : m.askAt r (begun n r b) = (.ok response, b₁))
      (apply : applyAt (m.patchName n) (register response (m.patchName n) b₁).2 = (.ok report, b₂))
      (build : m.buildAt b₂ = (r', b₃)) (rest : Course m left (n + 1) r' b₃ as ds outcome final b') :
      Course m (left + 1) n r b (m.made n r response b₁ report r' :: as)
        (.asked (.ok response) b₁.workspace :: .built b₂.workspace r' :: ds) outcome final b'

/-! ### One attempt -/

/-- An attempt whose backend fails stops the loop. -/
theorem attempt_of_ask_error {m : Mending ρ} {n : Nat} {r : BuildResult} {b b₁ : Bench ρ}
    {e : BackendError} (ask : m.askAt r (begun n r b) = (.error e, b₁)) :
    m.attempt n r b = (blank n r, .stop (.backendFailed e.message), b₁) := by
  rw [attempt]
  simp only [show ({ b with workspace := b.workspace.emit (.fixIterationStarted n r.errorCount) } :
    Bench ρ) = begun n r b from rfl, ask]
  rfl

/-- An attempt whose patch is refused stops the loop. -/
theorem attempt_of_apply_error {m : Mending ρ} {n : Nat} {r : BuildResult} {b b₁ b₂ : Bench ρ}
    {response : Text} {e : PatchError} (ask : m.askAt r (begun n r b) = (.ok response, b₁))
    (apply : applyAt (m.patchName n) (register response (m.patchName n) b₁).2 = (.error e, b₂)) :
    m.attempt n r b = (m.proposed n r response b₁, .stop (.patchRejected e.message), b₂) := by
  rw [attempt]
  simp only [show ({ b with workspace := b.workspace.emit (.fixIterationStarted n r.errorCount) } :
    Bench ρ) = begun n r b from rfl, ask, apply]
  rfl

/-- An attempt whose patch is applied is followed by a build. -/
theorem attempt_of_apply_ok {m : Mending ρ} {n : Nat} {r r' : BuildResult} {b b₁ b₂ b₃ : Bench ρ}
    {response : Text} {report : ApplyReport} (ask : m.askAt r (begun n r b) = (.ok response, b₁))
    (apply : applyAt (m.patchName n) (register response (m.patchName n) b₁).2 = (.ok report, b₂))
    (build : m.buildAt b₂ = (r', b₃)) :
    m.attempt n r b = (m.made n r response b₁ report r', .rebuilt r', b₃) := by
  rw [attempt]
  simp only [show ({ b with workspace := b.workspace.emit (.fixIterationStarted n r.errorCount) } :
    Bench ρ) = begun n r b from rfl, ask, apply, build]
  rfl

/-- A build that succeeds ends the loop, whatever is left. -/
theorem attempts_of_success {m : Mending ρ} {r : BuildResult} (success : r.success) (left : Nat)
    (done : List FixAttempt) (b : Bench ρ) : m.attempts left done r b = (⟨.succeeded, done, r⟩, b) := by
  rw [attempts.eq_def]
  exact if_pos success

/-- So does a build that did not end by itself. -/
theorem attempts_of_interrupted {m : Mending ρ} {r : BuildResult} (failure : ¬r.success)
    (termination : r.termination ≠ .exited) (left : Nat) (done : List FixAttempt) (b : Bench ρ) :
    m.attempts left done r b = (⟨.buildInterrupted r.termination, done, r⟩, b) := by
  rw [attempts.eq_def]
  exact (if_neg failure).trans (if_pos termination)

/-- And a failed build, if no attempt is left. -/
theorem attempts_zero_of_failed {m : Mending ρ} {r : BuildResult} (failed : Failed r)
    (done : List FixAttempt) (b : Bench ρ) :
    m.attempts 0 done r b = (⟨.iterationsExhausted, done, r⟩, b) := by
  have hfailed : ¬r.success := by simp [failed.1]
  rw [attempts]
  exact (if_neg hfailed).trans (if_neg (not_not_intro failed.2))

/-- A failed build with an attempt left is followed by that attempt. -/
theorem attempts_of_failed {m : Mending ρ} {r : BuildResult} (failed : Failed r) (left : Nat)
    (done : List FixAttempt) (b : Bench ρ) :
    m.attempts (left + 1) done r b =
      match m.attempt (done.length + 1) r b with
      | (a, .stop outcome, b) => (⟨outcome, done ++ [a], r⟩, b)
      | (a, .rebuilt r, b) => m.attempts left (done ++ [a]) r b := by
  have hfailed : ¬r.success := by simp [failed.1]
  rw [attempts]
  exact (if_neg hfailed).trans (if_neg (not_not_intro failed.2))

/-! ### One attempt, recorded -/

section Recorded

variable {m : Mending ρ} {n : Nat} {r r' : BuildResult} {b b₁ b₂ b₃ : Bench ρ} {response : Text}

theorem askAt_recorded_of_eq {answer : Except BackendError Text}
    (ask : m.askAt r (begun n r b) = (answer, b₁)) (ds : List Deed) :
    m.recorded.askAt r (begun n r (b.recording ds)) =
      (answer, b₁.recording (ds ++ [.asked answer b₁.workspace])) := by
  have h := m.askAt_recorded r (begun n r b) ds
  rwa [ask] at h

theorem applyAt_recorded_of_eq {result : Except PatchError ApplyReport}
    (apply : applyAt (m.patchName n) (register response (m.patchName n) b₁).2 = (result, b₂))
    (ds : List Deed) : applyAt (m.recorded.patchName n)
      (register response (m.recorded.patchName n) (b₁.recording ds)).2 = (result, b₂.recording ds) := by
  have h := applyAt_recording (m.patchName n) (register response (m.patchName n) b₁).2 ds
  rwa [apply] at h

theorem buildAt_recorded_of_eq (build : m.buildAt b₂ = (r', b₃)) (ds : List Deed) :
    m.recorded.buildAt (b₂.recording ds) = (r', b₃.recording (ds ++ [.built b₂.workspace r'])) := by
  rw [buildAt_recorded, build]

end Recorded

/-! ### The loop -/

/-- **The loop takes a course**, and the same one when it is recorded. -/
theorem course_attempts (m : Mending ρ) (left : Nat) (done : List FixAttempt) (r : BuildResult)
    (b : Bench ρ) (before : List Deed) :
    ∃ as ds outcome final b', Course m left (done.length + 1) r b as ds outcome final b' ∧
      m.attempts left done r b = (⟨outcome, done ++ as, final⟩, b') ∧
      m.recorded.attempts left done r (b.recording before) =
        (⟨outcome, done ++ as, final⟩, b'.recording (before ++ ds)) := by
  -- over the attempts that are left, since each turn that is followed by another takes one
  induction left generalizing done r b before with
  | zero =>
    by_cases hs : r.success
    · exact ⟨[], [], _, r, b, .succeeded hs, by simp [attempts_of_success hs],
        by simp [attempts_of_success hs]⟩
    by_cases ht : r.termination = .exited
    · have hfailed : Failed r := ⟨eq_false_of_ne_true hs, ht⟩
      exact ⟨[], [], _, r, b, .exhausted hfailed, by simp [attempts_zero_of_failed hfailed],
        by simp [attempts_zero_of_failed hfailed]⟩
    · exact ⟨[], [], _, r, b, .interrupted (eq_false_of_ne_true hs) ht,
        by simp [attempts_of_interrupted hs ht], by simp [attempts_of_interrupted hs ht]⟩
  | succ left ih =>
    by_cases hs : r.success
    · exact ⟨[], [], _, r, b, .succeeded hs, by simp [attempts_of_success hs],
        by simp [attempts_of_success hs]⟩
    by_cases ht : r.termination = .exited
    · have hfailed : Failed r := ⟨eq_false_of_ne_true hs, ht⟩
      rw [attempts_of_failed hfailed, attempts_of_failed hfailed]
      rcases hask : m.askAt r (begun (done.length + 1) r b) with ⟨e | response, b₁⟩
      · refine ⟨_, _, _, r, b₁, .backendFailed hfailed hask, ?_, ?_⟩
        · rw [attempt_of_ask_error hask]
        · rw [attempt_of_ask_error (askAt_recorded_of_eq hask before)]
      rcases happly : applyAt (m.patchName (done.length + 1))
        (register response (m.patchName (done.length + 1)) b₁).2 with ⟨e | report, b₂⟩
      · refine ⟨_, _, _, r, b₂, .patchRejected hfailed hask happly, ?_, ?_⟩
        · rw [attempt_of_apply_error hask happly]
        · rw [attempt_of_apply_error (askAt_recorded_of_eq hask before) (applyAt_recorded_of_eq happly _)]
          rfl
      rcases hbuild : m.buildAt b₂ with ⟨r', b₃⟩
      let a := m.made (done.length + 1) r response b₁ report r'
      obtain ⟨as, ds, outcome, final, b', hcourse, hrun, hrerun⟩ := ih (done ++ [a]) r' b₃
        (before ++ [.asked (.ok response) b₁.workspace] ++ [.built b₂.workspace r'])
      rw [List.length_append, List.length_singleton] at hcourse
      refine ⟨_, _, outcome, final, b', .rebuilt hfailed hask happly hbuild hcourse, ?_, ?_⟩
      · rw [attempt_of_apply_ok hask happly hbuild]
        refine Eq.trans hrun ?_
        rw [List.append_assoc, List.singleton_append]
      · rw [attempt_of_apply_ok (askAt_recorded_of_eq hask before) (applyAt_recorded_of_eq happly _)
          (buildAt_recorded_of_eq hbuild _)]
        refine Eq.trans hrerun ?_
        simp only [List.append_assoc, List.cons_append, List.nil_append, a]
    · exact ⟨[], [], _, r, b, .interrupted (eq_false_of_ne_true hs) ht,
        by simp [attempts_of_interrupted hs ht], by simp [attempts_of_interrupted hs ht]⟩

/-- **A run takes a course from its first build**; writing down what is done changes nothing in it. -/
theorem course_run (m : Mending ρ) (b : Bench ρ) :
    ∃ as ds outcome final b',
      Course m (max m.maxAttempts 1) 1 (m.buildAt b).1 (m.buildAt b).2 as ds outcome final b' ∧
      m.run b = (⟨outcome, as, final⟩, b') ∧
      m.deeds b = .built b.workspace (m.buildAt b).1 :: ds ∧
      m.recorded.run (b.recording []) = ((m.run b).1, (m.run b).2.recording (m.deeds b)) := by
  obtain ⟨as, ds, outcome, final, b', hcourse, hrun, hrerun⟩ := m.course_attempts
    (max m.maxAttempts 1) [] (m.buildAt b).1 (m.buildAt b).2 [.built b.workspace (m.buildAt b).1]
  have hrun : m.run b = (⟨outcome, as, final⟩, b') := hrun
  have hrerun : m.recorded.run (b.recording []) = (⟨outcome, as, final⟩,
      b'.recording (.built b.workspace (m.buildAt b).1 :: ds)) := hrerun
  refine ⟨as, ds, outcome, final, b', hcourse, hrun, ?_, ?_⟩
  · rw [deeds, hrerun]
    rfl
  · rw [hrun, deeds, hrerun]
    rfl

end Mending

end BuildMender
