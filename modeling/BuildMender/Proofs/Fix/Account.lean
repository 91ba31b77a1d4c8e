import BuildMender.Build.Builder
import BuildMender.Proofs.Fix.Course
import BuildMender.Proofs.Patch.Apply
import Mathlib.Data.List.Chain

/-!
# What a report says of a run

A report is made on the way: an attempt enters it at one of three places, and the result it ends with is
overwritten in each turn. Against it stands what was done, the deeds of the run
(`BuildMender.Mending.deeds`), which the loop does not see. `BuildMender.FixReport.Accounts` says that the
two agree: as many attempts as answers, one build more than patches that were applied, each attempt with
the number of errors of the build before it, and the last build's result in the end.

Each part is an induction over the course of the run. The one thing to know about a course is how it
ends (`BuildMender.Mending.Course.endings`): all of its attempts were applied, or only the last was not,
and then the outcome says who refused.
-/

namespace BuildMender

/-- A build that succeeds has ended by itself. -/
theorem Builder.exited_of_success {b : Builder} {running : Running} {root : Path} {preset : Preset}
    {action : BuildAction} {command : Text} {w : Workspace}
    (h : (b.runCommandBy running root preset action command w).1.success = true) :
    (b.runCommandBy running root preset action command w).1.termination = .exited := by
  have hresult (watch : Watch) (hs : (resultOf preset action command watch).success = true) :
      (resultOf preset action command watch).termination = .exited := by
    have hexited : watch.termination = some .exited := by
      simp only [resultOf, Bool.and_eq_true, decide_eq_true_eq] at hs
      exact hs.1
    simp [resultOf, hexited]
  obtain ⟨check, hrun⟩ := b.exists_runCommandBy running root preset action command w
  rw [hrun] at h ⊢
  exact hresult _ h

/-- **A report accounts for the deeds of a run** that was allowed so many attempts. -/
structure FixReport.Accounts (bound : Nat) (deeds : List Deed) (report : FixReport) : Prop where
  /-- There are no more attempts than are allowed; none counts as one. -/
  atMost : report.attempts.length ≤ max bound 1
  /-- They are numbered from 1. -/
  numbered : report.attempts.map (·.number) = List.range' 1 report.attempts.length
  /-- The backend was asked once in each. -/
  askedOnce : (Deed.answers deeds).length = report.attempts.length
  /-- There was a build first, and one for every patch that was applied. -/
  builtOnce : (Deed.results deeds).length = 1 + (report.attempts.filter (·.applied)).length
  /-- Every attempt but perhaps the last was applied and has the errors after it. -/
  appliedBefore : ∀ a ∈ report.attempts.dropLast, a.applied = true ∧ a.errorsAfter.isSome
  /-- An attempt has the errors of the build before its answer. -/
  errorsBefore : ∀ before answer after rest, deeds = before ++ .asked answer after :: rest →
    ∃ a r, report.attempts[(Deed.answers before).length]? = some a ∧
      (Deed.results before).getLast? = some r ∧ a.errorsBefore = r.errorCount
  /-- These are the errors after the attempt before it. -/
  errorsAfter : report.attempts.IsChain fun a a' => a.errorsAfter = some a'.errorsBefore
  /-- The last attempt was not applied exactly if somebody refused. -/
  unapplied : (∃ a, report.attempts.getLast? = some a ∧ a.applied = false) ↔
    (∃ message, report.outcome = .backendFailed message) ∨ ∃ reason, report.outcome = .patchRejected reason
  /-- Where the backend failed there is no patch. -/
  patchless : ∀ message, report.outcome = .backendFailed message →
    ∃ a, report.attempts.getLast? = some a ∧ a.patchId = none
  /-- Where the patch was refused there is one. -/
  patched : ∀ reason, report.outcome = .patchRejected reason →
    ∃ a, report.attempts.getLast? = some a ∧ a.patchId.isSome
  /-- The result is that of the last build. -/
  finalResult : (Deed.results deeds).getLast? = some report.finalResult
  succeeded : report.outcome = .succeeded ↔ report.finalResult.success = true
  interrupted : ∀ termination, report.outcome = .buildInterrupted termination ↔
    report.finalResult.termination = termination ∧ termination ≠ .exited
  /-- Attempts are used up only if as many were made as are allowed, and all were applied. -/
  exhausted : report.outcome = .iterationsExhausted →
    report.attempts.length = max bound 1 ∧ ∀ a ∈ report.attempts, a.applied = true

namespace Mending

namespace Course

variable {ρ : Type} {m : Mending ρ} {left n : Nat} {r final : BuildResult} {b b' : Bench ρ}
  {as : List FixAttempt} {ds : List Deed} {outcome : FixOutcome}

/-! ### The attempts of a course -/

theorem length_le (h : m.Course left n r b as ds outcome final b') : as.length ≤ left := by
  induction h with
  | succeeded | interrupted | exhausted => exact Nat.zero_le _
  | backendFailed | patchRejected => exact Nat.succ_le_succ (Nat.zero_le _)
  | rebuilt _ _ _ _ _ ih => exact Nat.succ_le_succ ih

theorem map_number (h : m.Course left n r b as ds outcome final b') :
    as.map (·.number) = List.range' n as.length := by
  induction h with
  | succeeded | interrupted | exhausted | backendFailed | patchRejected => rfl
  | rebuilt _ _ _ _ _ ih =>
    rw [List.map_cons, ih, List.length_cons, List.range'_succ]
    rfl

/-- If the attempts are used up, all that were left have been made. -/
theorem length_eq_of_exhausted (h : m.Course left n r b as ds outcome final b')
    (hout : outcome = .iterationsExhausted) : as.length = left := by
  induction h with
  | succeeded | interrupted | backendFailed | patchRejected => cases hout
  | exhausted => rfl
  | rebuilt _ _ _ _ _ ih => rw [List.length_cons, ih hout]

/-- The first attempt has the errors of the build that the course begins with. -/
theorem errorsBefore_of_head? {a : FixAttempt} (h : m.Course left n r b as ds outcome final b')
    (ha : as.head? = some a) : a.errorsBefore = r.errorCount := by
  cases h with
  | succeeded | interrupted | exhausted => cases ha
  | backendFailed | patchRejected | rebuilt =>
    obtain rfl := Option.some.inj ha
    rfl

theorem isChain (h : m.Course left n r b as ds outcome final b') :
    as.IsChain fun a a' => a.errorsAfter = some a'.errorsBefore := by
  induction h with
  | succeeded | interrupted | exhausted => exact List.isChain_nil
  | backendFailed | patchRejected => exact List.isChain_singleton _
  | rebuilt _ _ _ _ rest ih =>
    refine List.isChain_cons.mpr ⟨fun a ha => ?_, ih⟩
    rw [rest.errorsBefore_of_head? ha]
    rfl

/-- **How a course ends**: all attempts were applied, or all but the last, whose end was that somebody
refused. -/
theorem endings (h : m.Course left n r b as ds outcome final b') :
    ((∀ a ∈ as, a.applied = true ∧ a.errorsAfter.isSome) ∧
      (∀ message, outcome ≠ .backendFailed message) ∧ ∀ reason, outcome ≠ .patchRejected reason) ∨
    ∃ init a, as = init ++ [a] ∧ (∀ a ∈ init, a.applied = true ∧ a.errorsAfter.isSome) ∧
      a.applied = false ∧
      ((∃ message, outcome = .backendFailed message) ∧ a.patchId = none ∨
        (∃ reason, outcome = .patchRejected reason) ∧ a.patchId.isSome) := by
  induction h with
  | succeeded | interrupted | exhausted => exact Or.inl ⟨by simp, by simp, by simp⟩
  | @backendFailed _ n r _ _ e =>
    exact Or.inr ⟨[], blank n r, rfl, by simp, rfl, Or.inl ⟨⟨e.message, rfl⟩, rfl⟩⟩
  | @patchRejected _ n r _ b₁ _ response e =>
    exact Or.inr ⟨[], m.proposed n r response b₁, rfl, by simp, rfl, Or.inr ⟨⟨e.message, rfl⟩, rfl⟩⟩
  | rebuilt _ _ _ _ _ ih =>
    rcases ih with ⟨hall, hout⟩ | ⟨init, a, rfl, hinit, hlast⟩
    · refine Or.inl ⟨fun a ha => ?_, hout⟩
      rcases List.mem_cons.mp ha with rfl | ha
      · exact ⟨rfl, rfl⟩
      · exact hall a ha
    · refine Or.inr ⟨_ :: init, a, rfl, fun a' ha => ?_, hlast⟩
      rcases List.mem_cons.mp ha with rfl | ha
      · exact ⟨rfl, rfl⟩
      · exact hinit a' ha

/-- Only the last attempt may not have been applied. -/
theorem applied_of_mem_dropLast {a : FixAttempt} (h : m.Course left n r b as ds outcome final b')
    (ha : a ∈ as.dropLast) : a.applied = true ∧ a.errorsAfter.isSome := by
  rcases h.endings with ⟨hall, -⟩ | ⟨init, last, rfl, hinit, -⟩
  · exact hall a (List.dropLast_subset _ ha)
  · exact hinit a (by simpa using ha)

/-- The last attempt was not applied exactly if somebody refused. -/
theorem unapplied_iff (h : m.Course left n r b as ds outcome final b') :
    (∃ a, as.getLast? = some a ∧ a.applied = false) ↔
      (∃ message, outcome = .backendFailed message) ∨ ∃ reason, outcome = .patchRejected reason := by
  rcases h.endings with ⟨hall, hbackend, hpatch⟩ | ⟨init, last, rfl, -, hlast, hout⟩
  · refine iff_of_false ?_ ?_
    · rintro ⟨a, ha, hunapplied⟩
      have := (hall a (List.mem_of_getLast? ha)).1
      simp [hunapplied] at this
    · rintro (⟨message, h⟩ | ⟨reason, h⟩)
      · exact hbackend message h
      · exact hpatch reason h
  · exact iff_of_true ⟨last, by simp, hlast⟩ (hout.imp And.left And.left)

theorem patchless_of_backendFailed {message : Text} (h : m.Course left n r b as ds outcome final b')
    (hmessage : outcome = .backendFailed message) : ∃ a, as.getLast? = some a ∧ a.patchId = none := by
  rcases h.endings with ⟨-, hbackend, -⟩ | ⟨init, last, rfl, -, -, ⟨-, hnone⟩ | ⟨⟨reason, hreason⟩, -⟩⟩
  · exact absurd hmessage (hbackend message)
  · exact ⟨last, by simp, hnone⟩
  · cases hmessage.symm.trans hreason

theorem patched_of_patchRejected {reason : Text} (h : m.Course left n r b as ds outcome final b')
    (hreason : outcome = .patchRejected reason) : ∃ a, as.getLast? = some a ∧ a.patchId.isSome := by
  rcases h.endings with ⟨-, -, hpatch⟩ | ⟨init, last, rfl, -, -, ⟨⟨message, hmessage⟩, -⟩ | ⟨-, hsome⟩⟩
  · exact absurd hreason (hpatch reason)
  · cases hmessage.symm.trans hreason
  · exact ⟨last, by simp, hsome⟩

/-- If the attempts are used up, all of them were applied. -/
theorem applied_of_exhausted {a : FixAttempt} (h : m.Course left n r b as ds outcome final b')
    (hout : outcome = .iterationsExhausted) (ha : a ∈ as) : a.applied = true := by
  rcases h.endings with ⟨hall, -⟩ | ⟨init, last, rfl, -, -, hrefused⟩
  · exact (hall a ha).1
  · simp [hout] at hrefused

/-! ### Attempts and deeds -/

theorem length_answers (h : m.Course left n r b as ds outcome final b') :
    (Deed.answers ds).length = as.length := by
  induction h with
  | succeeded | interrupted | exhausted | backendFailed | patchRejected => rfl
  | rebuilt _ _ _ _ _ ih => simp [ih]

theorem length_results (h : m.Course left n r b as ds outcome final b') :
    (Deed.results ds).length = (as.filter (·.applied)).length := by
  induction h with
  | succeeded | interrupted | exhausted | backendFailed | patchRejected => rfl
  | rebuilt _ _ _ _ _ ih =>
    rw [List.filter_cons_of_pos rfl, List.length_cons, ← ih]
    rfl

/-- The result in the end is that of the last build, or the one that the course began with. -/
theorem getLast?_results (h : m.Course left n r b as ds outcome final b') :
    (r :: Deed.results ds).getLast? = some final := by
  induction h with
  | succeeded | interrupted | exhausted | backendFailed | patchRejected => rfl
  | rebuilt _ _ _ _ _ ih =>
    rw [Deed.results_asked, Deed.results_built, List.getLast?_cons_cons]
    exact ih

/-- The attempt that belongs to an answer has the errors of the last build before it. -/
theorem errorsBefore {before rest : List Deed} {answer : Except BackendError Text} {w : Workspace}
    (h : m.Course left n r b as ds outcome final b') (hds : ds = before ++ .asked answer w :: rest) :
    ∃ a last, as[(Deed.answers before).length]? = some a ∧
      (r :: Deed.results before).getLast? = some last ∧ a.errorsBefore = last.errorCount := by
  -- the split is at the first answer, or behind the build that followed it
  induction h generalizing before with
  | succeeded | interrupted | exhausted => simp at hds
  | @backendFailed _ n r | @patchRejected _ n r =>
    rcases before with _ | ⟨d, before⟩
    · exact ⟨_, r, rfl, rfl, rfl⟩
    · simp at hds
  | @rebuilt _ n r r' _ _ _ _ _ _ _ _ _ _ _ _ _ _ _ _ ih =>
    rcases before with _ | ⟨d, before⟩
    · exact ⟨_, r, rfl, rfl, rfl⟩
    · rcases before with _ | ⟨d', before⟩
      · simp at hds
      · simp only [List.cons_append, List.cons.injEq] at hds
        obtain ⟨rfl, rfl, hds⟩ := hds
        obtain ⟨a, last, ha, hlast, herrors⟩ := ih hds
        refine ⟨a, last, ?_, ?_, herrors⟩
        · simpa using ha
        · rw [Deed.results_asked, Deed.results_built, List.getLast?_cons_cons]
          exact hlast

/-! ### The outcome of a course -/

/-- **What the outcome says of the last result.** -/
theorem outcome_cases (h : m.Course left n r b as ds outcome final b') :
    (outcome = .succeeded ∧ final.success = true) ∨
    (outcome = .buildInterrupted final.termination ∧ final.success = false ∧
      final.termination ≠ .exited) ∨
    (outcome ≠ .succeeded ∧ (∀ t, outcome ≠ .buildInterrupted t) ∧ Failed final) := by
  induction h with
  | succeeded success => exact Or.inl ⟨rfl, success⟩
  | interrupted failure termination => exact Or.inr (Or.inl ⟨rfl, failure, termination⟩)
  | exhausted failed | backendFailed failed | patchRejected failed =>
    exact Or.inr (Or.inr ⟨by simp, by simp, failed⟩)
  | rebuilt _ _ _ _ _ ih => exact ih

theorem succeeded_iff (h : m.Course left n r b as ds outcome final b') :
    outcome = .succeeded ↔ final.success = true := by
  rcases h.outcome_cases with ⟨hout, hsuccess⟩ | ⟨hout, hsuccess, -⟩ | ⟨hout, -, hsuccess, -⟩
  · exact iff_of_true hout hsuccess
  · exact iff_of_false (by simp [hout]) (by simp [hsuccess])
  · exact iff_of_false hout (by simp [hsuccess])

/-- The outcome tells that the last build was interrupted, and how, if a build that succeeds is one that
ended by itself. -/
theorem interrupted_iff {termination : Termination} (h : m.Course left n r b as ds outcome final b')
    (honest : final.success = true → final.termination = .exited) :
    outcome = .buildInterrupted termination ↔
      final.termination = termination ∧ termination ≠ .exited := by
  rcases h.outcome_cases with ⟨hout, hsuccess⟩ | ⟨hout, -, hne⟩ | ⟨-, hout, -, hexited⟩
  · refine iff_of_false (by simp [hout]) fun h => h.2 ?_
    exact h.1.symm.trans (honest hsuccess)
  · refine ⟨fun h => ?_, fun h => ?_⟩
    · cases hout.symm.trans h
      exact ⟨rfl, hne⟩
    · exact hout.trans (congrArg _ h.1)
  · refine iff_of_false (hout termination) fun h => h.2 ?_
    exact h.1.symm.trans hexited

end Course

/-! ### The account -/

variable {ρ : Type}

/-- **The report of a run accounts for what was done in it**, whatever the builds, the backend, version
control and the files are like, if a build that succeeds is one that ended by itself, as every build of a
`BuildMender.Builder` is (`BuildMender.Builder.exited_of_success`). -/
theorem run_accounts (m : Mending ρ) (b : Bench ρ)
    (honest : ∀ r ∈ Deed.results (m.deeds b), r.success = true → r.termination = .exited) :
    m.recorded.run (b.recording []) = ((m.run b).1, (m.run b).2.recording (m.deeds b)) ∧
      (m.run b).1.Accounts m.maxAttempts (m.deeds b) := by
  obtain ⟨as, ds, outcome, final, b', hcourse, hrun, hdeeds, hrecorded⟩ := m.course_run b
  refine ⟨hrecorded, ?_⟩
  rw [hdeeds, Deed.results_built] at honest
  rw [hrun, hdeeds]
  have hlast := hcourse.getLast?_results
  have hhonest : final.success = true → final.termination = .exited :=
    honest final (List.mem_of_getLast? hlast)
  constructor
  case atMost => exact hcourse.length_le
  case numbered => exact hcourse.map_number
  case askedOnce => exact hcourse.length_answers
  case builtOnce =>
    rw [Deed.results_built, List.length_cons, hcourse.length_results, Nat.add_comm]
  case appliedBefore => exact fun a ha => hcourse.applied_of_mem_dropLast ha
  case errorsBefore =>
    intro before answer after rest hsplit
    rcases before with _ | ⟨d, before⟩
    · simp at hsplit
    · obtain ⟨rfl, hds⟩ := List.cons.inj hsplit
      have hattempt := hcourse.errorsBefore hds
      exact hattempt
  case errorsAfter => exact hcourse.isChain
  case unapplied => exact hcourse.unapplied_iff
  case patchless => exact fun message hmessage => hcourse.patchless_of_backendFailed hmessage
  case patched => exact fun reason hreason => hcourse.patched_of_patchRejected hreason
  case finalResult => exact hlast
  case succeeded => exact hcourse.succeeded_iff
  case interrupted => exact fun termination => hcourse.interrupted_iff hhonest
  case exhausted =>
    intro hout
    exact ⟨hcourse.length_eq_of_exhausted hout, fun a ha => hcourse.applied_of_exhausted hout ha⟩

/-- A loop whose builds and answers are laid down. When the results are used up, builds fail. -/
def scripted (maxAttempts : Nat) : Mending (List BuildResult × List (Except BackendError Text)) where
  build w s := (s.1.headD {}, w, s.1.tail, s.2)
  ask _ w s := (s.2.headD (.error Backend.exhausted), w, s.1, s.2.tail)
  assemble := fun _ _ => default
  maxAttempts := maxAttempts
  patchName := Text.decimal

/-- A build fails, a patch for it is at hand, and the next build succeeds. -/
def mendable : Bench (List BuildResult × List (Except BackendError Text)) :=
  ⟨⟨PatchManager.smallProject, {}, [], []⟩, { root := "/p" },
    [{ exitCode := 1 }, { success := true }], [.ok (PatchManager.block "a.cpp" "int a;" "int c;")]⟩

/-- A build that is mended by one patch takes two builds. -/
theorem mendable_takes_two_builds :
    ((scripted 3).run mendable).1.outcome = .succeeded ∧
      ((scripted 3).run mendable).1.attempts.length = 1 ∧
      (Deed.results ((scripted 3).deeds mendable)).length = 2 := by
  have haccounts := ((scripted 3).run_accounts mendable (by decide +kernel)).2
  refine ⟨haccounts.succeeded.mpr (by decide +kernel), by decide +kernel, ?_⟩
  rw [haccounts.builtOnce]
  decide +kernel

end Mending

end BuildMender
