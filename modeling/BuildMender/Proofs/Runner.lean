import BuildMender.Process

/-!
# Calls and their answers

A runner is a script: its answers are laid down before the first call is made. So what a number of calls
will come to can be said beforehand, by the number of the call (`BuildMender.Runner.refusal?`), and a call
that is made only moves the numbers by one (`BuildMender.Runner.refusal?_run`).

Calls that depend on each other are made one after another until one fails. The calls that are made then
are a beginning of those that were planned, and `BuildMender.Runner.UpToRefusal` says which: the longest
one in which no call but the last fails.
-/

namespace BuildMender

namespace Runner

variable {r : Runner} {i j : Nat} {plan more made : List Call} {reason : Text}

/-! ### Answers to come -/

/-- The answer to the call with a number, counted from the next one. -/
def answer (r : Runner) (i : Nat) : Except Text CommandOutput := r.results[i]?.getD r.otherwise

/-- **Why the call with a number will fail**, if it will: it cannot be started, or it ends with an exit
code other than zero. -/
def refusal? (r : Runner) (i : Nat) : Option Text :=
  match r.answer i with
  | .error reason => some reason
  | .ok output => if output.success then none else some output.failureReason

theorem run_fst (r : Runner) (c : Call) : (r.run c).1 = r.answer 0 := by
  rw [run, answer]
  cases r.results <;> rfl

@[simp] theorem calls_run (r : Runner) (c : Call) : (r.run c).2.calls = r.calls ++ [c] := by
  rw [run]
  cases r.results <;> rfl

/-- A call that was made leaves the answers to those after it. -/
@[simp] theorem refusal?_run (r : Runner) (c : Call) (i : Nat) :
    (r.run c).2.refusal? i = r.refusal? (i + 1) := by
  have hanswer : (r.run c).2.answer i = r.answer (i + 1) := by
    rw [run, answer, answer]
    cases h : r.results with
    | nil => simp
    | cons result more => simp
  rw [refusal?, refusal?, hanswer]

/-! ### Calls made one after another -/

/-- The runner after some calls. -/
def after (r : Runner) (cs : List Call) : Runner := cs.foldl (fun r c => (r.run c).2) r

@[simp] theorem after_nil (r : Runner) : r.after [] = r := rfl

@[simp] theorem after_cons (r : Runner) (c : Call) (cs : List Call) :
    r.after (c :: cs) = (r.run c).2.after cs := rfl

@[simp] theorem calls_after (r : Runner) (cs : List Call) : (r.after cs).calls = r.calls ++ cs := by
  induction cs generalizing r with
  | nil => simp
  | cons c cs ih => simp [ih]

@[simp] theorem refusal?_after (r : Runner) (cs : List Call) (i : Nat) :
    (r.after cs).refusal? i = r.refusal? (cs.length + i) := by
  induction cs generalizing r with
  | nil => simp
  | cons c cs ih =>
    rw [after_cons, ih, refusal?_run, List.length_cons]
    congr 1
    omega

/-! ### The first call that fails -/

/-- **The first call that will fail**, and why. -/
def FirstRefusal (r : Runner) (i : Nat) (reason : Text) : Prop :=
  (∀ j < i, r.refusal? j = none) ∧ r.refusal? i = some reason

/-- Among so many calls one will be the first to fail, or none will fail. -/
theorem exists_firstRefusal (r : Runner) (n : Nat) :
    (∃ i < n, ∃ reason, r.FirstRefusal i reason) ∨ ∀ i < n, r.refusal? i = none := by
  induction n with
  | zero => exact Or.inr fun i hi => absurd hi (Nat.not_lt_zero i)
  | succ n ih =>
    rcases ih with ⟨i, hi, h⟩ | hall
    · exact Or.inl ⟨i, by omega, h⟩
    · cases hn : r.refusal? n with
      | some reason => exact Or.inl ⟨n, by omega, reason, hall, hn⟩
      | none =>
        refine Or.inr fun i hi => ?_
        rcases Nat.lt_succ_iff_lt_or_eq.mp hi with hlt | rfl
        · exact hall i hlt
        · exact hn

/-- Behind a first call that does not fail, the numbers are one less. -/
theorem firstRefusal_run {c : Call} (h : r.refusal? 0 = none) :
    (r.run c).2.FirstRefusal i reason ↔ r.FirstRefusal (i + 1) reason := by
  simp only [FirstRefusal, refusal?_run]
  refine and_congr_left fun _ => ⟨fun hall j hj => ?_, fun hall j hj => hall (j + 1) (by omega)⟩
  cases j with
  | zero => exact h
  | succ j => exact hall j (by omega)

/-- **The longest beginning of a plan that ends at the first call that fails**: it is a beginning, no
call in it but the last fails, and if it is not the whole plan, then its last call does. -/
structure UpToRefusal (r : Runner) (plan made : List Call) : Prop where
  isBeginning : made <+: plan
  accepted : ∀ i, i + 1 < made.length → r.refusal? i = none
  refused : made ≠ plan → ∃ i, made.length = i + 1 ∧ r.refusal? i ≠ none

/-- All of a plan in which nothing fails. -/
theorem upToRefusal_all (h : ∀ i < plan.length, r.refusal? i = none) : r.UpToRefusal plan plan where
  isBeginning := List.prefix_refl plan
  accepted i hi := h i (by omega)
  refused hne := absurd rfl hne

/-- A plan up to the call that is the first to fail. -/
theorem upToRefusal_take (h : r.FirstRefusal i reason) (hi : i < plan.length) :
    r.UpToRefusal plan (plan.take (i + 1)) := by
  have hlen : (plan.take (i + 1)).length = i + 1 := by
    rw [List.length_take]
    omega
  refine ⟨List.take_prefix (i + 1) plan, fun j hj => h.1 j (by omega), fun _ => ⟨i, hlen, ?_⟩⟩
  rw [h.2]
  exact Option.some_ne_none reason

end Runner

end BuildMender
