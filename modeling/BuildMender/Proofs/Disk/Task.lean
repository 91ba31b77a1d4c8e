import BuildMender.FileTask

/-!
# What tasks do, call by call

A task is run by answering its calls one after another. Two ways of reasoning about that are settled
here, and no later proof looks inside a run.

* **On one disk**: a task that is carried on runs on from the disk it left
  (`BuildMender.FileTask.run_bind`).
* **On every disk**: `BuildMender.FileTask.Within` bounds the calls of a task and its result. It is read
  off the task alone, call by call, and holds then for the paths that the task reaches on any disk
  (`BuildMender.FileTask.Within.reached`). A task all of whose calls only look leaves each disk as it is
  (`BuildMender.FileTask.Within.run_snd`).
-/

namespace BuildMender

/-- A call that changes nothing. -/
def FileCall.Reads : FileCall → Prop
  | .isFile _ => True
  | .read _ => True
  | .rights _ => True
  | _ => False

/-- Such a call leaves the disk as it is. -/
theorem Disk.answer_snd_of_reads {c : FileCall} (h : c.Reads) (d : Disk) : (d.answer c).2 = d := by
  cases c with
  | isFile p => rfl
  | read p => rfl
  | rights p =>
    rw [Disk.answer]
    split <;> rfl
  | create dir => exact h.elim
  | fill p content => exact h.elim
  | rename p target => exact h.elim
  | remove p => exact h.elim

namespace FileTask

variable {ε α β : Type} {d d' : Disk}

/-! ### Running -/

@[simp] theorem run_pure (a : α) (d : Disk) : (pure a : FileTask ε α).run d = (.ok a, d) := rfl

@[simp] theorem run_fail (e : ε) (d : Disk) : (fail e : FileTask ε α).run d = (.error e, d) := rfl

@[simp] theorem run_lift (r : Except ε α) (d : Disk) :
    (liftM r : FileTask ε α).run d = (r, d) := rfl

@[simp] theorem run_ask (c : FileCall) (d : Disk) :
    (ask c : FileTask ε c.Answer).run d = (.ok (d.answer c).1, (d.answer c).2) := rfl

/-- **A task carried on** runs on from the disk that it left, unless it failed. -/
theorem run_bind (t : FileTask ε α) (f : α → FileTask ε β) (d : Disk) :
    (t >>= f).run d = match t.run d with
      | (.ok a, d) => (f a).run d
      | (.error e, d) => (.error e, d) := by
  induction t generalizing d with
  | done result => cases result <;> rfl
  | call c next ih => exact ih _ _

theorem run_bind_of_ok {t : FileTask ε α} {a : α} (h : t.run d = (.ok a, d')) (f : α → FileTask ε β) :
    (t >>= f).run d = (f a).run d' := by
  rw [run_bind, h]

theorem run_bind_of_error {t : FileTask ε α} {e : ε} (h : t.run d = (.error e, d'))
    (f : α → FileTask ε β) : (t >>= f).run d = (.error e, d') := by
  rw [run_bind, h]

/-- A task that was carried on and succeeded had succeeded before. -/
theorem run_bind_eq_ok {t : FileTask ε α} {f : α → FileTask ε β} {b : β} :
    (t >>= f).run d = (.ok b, d') ↔ ∃ a d₁, t.run d = (.ok a, d₁) ∧ (f a).run d₁ = (.ok b, d') := by
  rw [run_bind]
  obtain ⟨r, d₁⟩ := t.run d
  cases r with
  | error e => simp
  | ok a =>
    refine ⟨fun h => ⟨a, d₁, rfl, h⟩, ?_⟩
    rintro ⟨a', d₂, he, h⟩
    cases he
    exact h

/-! ### What a task may do, on any disk -/

/-- **A task kept within bounds**: every call that it makes satisfies `P`, and its result, if it has one,
satisfies `Q`. Each call may be answered by a disk of its own, so the bounds hold even if others change
the disk between two calls. -/
def Within (P : FileCall → Prop) (Q : α → Prop) : FileTask ε α → Prop
  | .done (.ok a) => Q a
  | .done (.error _) => True
  | .call c next => P c ∧ ∀ d : Disk, (next (d.answer c).1).Within P Q

variable {P P' : FileCall → Prop} {Q : α → Prop} {R : β → Prop}

theorem within_pure {a : α} (h : Q a) : (pure a : FileTask ε α).Within P Q := h

theorem within_lift {r : Except ε α} (h : ∀ a, r = .ok a → Q a) :
    (liftM r : FileTask ε α).Within P Q := by
  cases r with
  | ok a => exact h a rfl
  | error e => trivial

theorem within_ask {c : FileCall} {f : c.Answer → FileTask ε α} (hc : P c)
    (h : ∀ d : Disk, (f (d.answer c).1).Within P Q) : (ask c >>= f).Within P Q :=
  ⟨hc, h⟩

/-- A task carried on is kept within bounds if both parts are. -/
theorem Within.bind {t : FileTask ε α} {f : α → FileTask ε β} (ht : t.Within P Q)
    (hf : ∀ a, Q a → (f a).Within P R) : (t >>= f).Within P R := by
  induction t with
  | done result =>
    cases result with
    | ok a => exact hf a ht
    | error e => trivial
  | call c next ih => exact ⟨ht.1, fun d => ih _ (ht.2 d)⟩

/-- Bounds may be widened. -/
theorem Within.mono {Q' : α → Prop} {t : FileTask ε α} (ht : t.Within P Q) (hP : ∀ c, P c → P' c)
    (hQ : ∀ a, Q a → Q' a) : t.Within P' Q' := by
  induction t with
  | done result =>
    cases result with
    | ok a => exact hQ a ht
    | error e => trivial
  | call c next ih => exact ⟨hP c ht.1, fun d => ih _ (ht.2 d)⟩

/-- A task kept within bounds reaches only the paths of calls within them. -/
theorem Within.reached {t : FileTask ε α} (ht : t.Within P Q) {p : Path} (hp : p ∈ t.reached d) :
    ∃ c d', P c ∧ p ∈ FileCall.paths d' c := by
  induction t generalizing d with
  | done result => cases hp
  | call c next ih =>
    rcases List.mem_append.mp hp with hp | hp
    · exact ⟨c, d, ht.1, hp⟩
    · exact ih _ (ht.2 d) hp

/-- **A task that only looks** leaves the disk as it is. -/
theorem Within.run_snd {t : FileTask ε α} (ht : t.Within FileCall.Reads Q) (d : Disk) :
    (t.run d).2 = d := by
  induction t generalizing d with
  | done result => rfl
  | call c next ih => rw [run, ih _ (ht.2 d), Disk.answer_snd_of_reads ht.1]

end FileTask

end BuildMender
