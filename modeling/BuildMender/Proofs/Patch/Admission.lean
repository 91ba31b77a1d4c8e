import BuildMender.Proofs.Patch.Resolve
import BuildMender.Patch.Manager

/-!
# Looking at a patch

Validating a patch and checking it against the conventions are done by tasks that only look, and that
look at files below the root only (`BuildMender.PatchManager.within_validating`,
`BuildMender.PatchManager.within_checking`). Applying begins with the first of them.

What validation lets through is said once, as `BuildMender.PatchManager.Admits`: a patch that is pending
and says something, each of whose targets is a file inside the project. It says nothing about the files
that the steps of the patch name.
-/

namespace BuildMender

open Path (Below)

namespace PatchManager

variable {m : PatchManager} {id id' : PatchId} {p : Patch} {d d' : Disk} {root : Path}

/-! ### The patches by their names -/

/-- **A patch changed** is the only one changed. -/
theorem get?_update (m : PatchManager) (id id' : PatchId) (f : Patch → Patch) :
    (m.update id f).get? id' = if id' = id then (m.get? id').map f else m.get? id' := by
  rw [get?, get?, update, lookup_map_update m.patches id id' f]
  by_cases h : id' = id <;> simp [h]

theorem get?_update_self (hp : m.get? id = some p) (f : Patch → Patch) :
    (m.update id f).get? id = some (f p) := by
  rw [get?_update, if_pos rfl, hp, Option.map_some]

theorem get?_insert (m : PatchManager) (id id' : PatchId) (p : Patch) :
    (m.insert id p).get? id' = (m.get? id').or (if id' = id then some p else none) := by
  rw [get?, get?, insert, List.lookup_append, List.lookup_cons, List.lookup_nil]
  by_cases h : id' = id
  · simp [h]
  · simp [h, beq_false_of_ne h]

theorem find_eq_ok : m.find id = .ok p ↔ m.get? id = some p := by
  rw [find]
  cases m.get? id <;> simp

/-! ### Validation -/

theorem within_checkTargets (root : Path) (targets : List Text) :
    (checkTargets root targets).Within (FileCall.LooksBelow root) fun _ => True := by
  induction targets with
  | nil => trivial
  | cons target more ih =>
    refine FileTask.Within.bind (FileTask.within_lift fun p hp => hp) fun p hp => ?_
    obtain ⟨hesc, rfl⟩ := Patch.targetPath_eq_ok.mp hp
    refine FileTask.within_ask (Path.below_join hesc) fun d => ?_
    split
    · exact ih
    · trivial

theorem within_validating (m : PatchManager) (id : PatchId) :
    (m.validating id).Within (FileCall.LooksBelow m.root) fun _ => True := by
  refine FileTask.Within.bind (FileTask.within_lift fun p hp => hp) fun p _ => ?_
  split
  · trivial
  · split
    · trivial
    · split
      · trivial
      · exact within_checkTargets m.root p.targets

theorem checkTargets_eq_ok {targets : List Text} : (checkTargets root targets).run d = (.ok (), d') ↔
    d' = d ∧ ∀ t ∈ targets, Path.escapes ⟨t⟩ = false ∧ d.hasFile (root.join ⟨t⟩) := by
  induction targets with
  | nil =>
    refine ⟨fun h => ?_, ?_⟩
    · cases h
      exact ⟨rfl, nofun⟩
    · rintro ⟨rfl, -⟩
      rfl
  | cons target more ih =>
    rw [checkTargets, FileTask.run_bind, FileTask.run_lift]
    by_cases hesc : Path.escapes ⟨target⟩
    · rw [Patch.targetPath_of_escapes root hesc]
      simp [hesc]
    · rw [Patch.targetPath_eq_ok.mpr ⟨eq_false_of_ne_true hesc, rfl⟩]
      dsimp only
      rw [FileTask.run_bind, FileTask.run_ask, Disk.answer]
      dsimp only
      by_cases hfile : d.hasFile (root.join ⟨target⟩)
      · rw [if_pos hfile, ih]
        simp only [List.forall_mem_cons, hesc, hfile, true_and, and_self]
      · rw [if_neg hfile]
        simp [hfile]

/-- **What validation lets through**: a pending patch that says something, all of whose targets are files
inside the project. -/
structure Admits (m : PatchManager) (d : Disk) (id : PatchId) (p : Patch) : Prop where
  get?_eq : m.get? id = some p
  pending : p.status = .pending
  content : contentError? p.content = none
  targets_ne_nil : p.targets ≠ []
  targets : ∀ t ∈ p.targets, Path.escapes ⟨t⟩ = false ∧ d.hasFile (m.root.join ⟨t⟩)

theorem validating_eq_ok :
    (m.validating id).run d = (.ok (), d') ↔ d' = d ∧ ∃ p, m.Admits d id p := by
  rw [validating, FileTask.run_bind, FileTask.run_lift]
  cases hget : m.get? id with
  | none =>
    rw [find, hget]
    refine ⟨nofun, ?_⟩
    rintro ⟨-, p, hp⟩
    exact absurd (hget.symm.trans hp.get?_eq) nofun
  | some p =>
    rw [find_eq_ok.mpr hget]
    dsimp only
    -- the checks are made in this order, and each has to be passed
    have hadmits : (∃ p, m.Admits d id p) ↔ p.status = .pending ∧ contentError? p.content = none ∧
        p.targets ≠ [] ∧ ∀ t ∈ p.targets, Path.escapes ⟨t⟩ = false ∧ d.hasFile (m.root.join ⟨t⟩) := by
      constructor
      · rintro ⟨p', hp'⟩
        obtain rfl := Option.some.inj (hget.symm.trans hp'.get?_eq)
        exact ⟨hp'.pending, hp'.content, hp'.targets_ne_nil, hp'.targets⟩
      · rintro ⟨hs, hc, hne, ht⟩
        exact ⟨p, hget, hs, hc, hne, ht⟩
    rw [hadmits]
    by_cases hs : p.status = .pending
    · rw [if_neg (not_not_intro hs)]
      cases hc : contentError? p.content with
      | some e => simp
      | none =>
        by_cases ht : p.targets = []
        · simp [ht]
        · simp [hs, ht, checkTargets_eq_ok]
    · rw [if_pos hs]
      simp [hs]

/-- Validation succeeds exactly for what it lets through. -/
theorem validate_eq_ok : m.validate d id = .ok () ↔ ∃ p, m.Admits d id p := by
  have hsnd := (within_validating m id).run_snd_of_looksBelow d
  rw [validate]
  constructor
  · intro h
    exact (validating_eq_ok.mp (Prod.ext h hsnd)).2
  · intro h
    rw [validating_eq_ok.mpr ⟨rfl, h⟩]

theorem within_admitting (m : PatchManager) (id : PatchId) :
    (m.admitting id).Within (FileCall.LooksBelow m.root) fun _ => True :=
  (within_validating m id).bind fun _ _ => FileTask.within_lift fun _ _ => trivial

theorem run_admitting_snd (m : PatchManager) (id : PatchId) (d : Disk) :
    ((m.admitting id).run d).2 = d :=
  (within_admitting m id).run_snd_of_looksBelow d

/-- **A patch is admitted** if validation lets it through. -/
theorem admitting_eq_ok : (m.admitting id).run d = (.ok p, d') ↔ d' = d ∧ m.Admits d id p := by
  rw [admitting, FileTask.run_bind_eq_ok]
  constructor
  · rintro ⟨u, d₁, hv, hp⟩
    obtain ⟨rfl, p', hp'⟩ := validating_eq_ok.mp hv
    rw [FileTask.run_lift, Prod.mk.injEq, find_eq_ok, hp'.get?_eq] at hp
    obtain ⟨hp, rfl⟩ := hp
    exact ⟨rfl, Option.some.inj hp ▸ hp'⟩
  · rintro ⟨rfl, hp⟩
    refine ⟨(), d', validating_eq_ok.mpr ⟨rfl, p, hp⟩, ?_⟩
    rw [FileTask.run_lift, find_eq_ok.mpr hp.get?_eq]

/-- A patch is refused with the error of its validation. -/
theorem admitting_fst_eq_error {e : PatchError} (h : ((m.admitting id).run d).1 = .error e) :
    m.validate d id = .error e := by
  have hsnd := (within_validating m id).run_snd_of_looksBelow d
  rw [admitting, FileTask.run_bind] at h
  rw [validate]
  cases hv : (m.validating id).run d with
  | mk result d₁ =>
    rw [hv] at h
    cases result with
    | error e' => exact congrArg Except.error (Except.error.inj h)
    | ok u =>
      obtain ⟨-, p, hp⟩ := validating_eq_ok.mp hv
      dsimp only at h
      rw [FileTask.run_lift, find_eq_ok.mpr hp.get?_eq] at h
      cases h

/-! ### Compliance -/

theorem within_currentContents (root : Path) (targets : List Text) :
    (currentContents root targets).Within (FileCall.LooksBelow root) fun _ => True := by
  induction targets with
  | nil => trivial
  | cons target more ih =>
    refine FileTask.Within.bind (FileTask.within_lift fun p hp => hp) fun p hp => ?_
    obtain ⟨hesc, rfl⟩ := Patch.targetPath_eq_ok.mp hp
    refine FileTask.within_ask (Path.below_join hesc) fun d => ih.bind fun rest _ => ?_
    split <;> trivial

theorem within_checking (m : PatchManager) (id : PatchId) :
    (m.checking id).Within (FileCall.LooksBelow m.root) fun _ => True := by
  refine FileTask.Within.bind (FileTask.within_lift fun p hp => hp) fun p _ => ?_
  refine FileTask.Within.bind (Q := fun _ => True) ?_ fun contents _ => trivial
  cases p.content with
  | unifiedDiff diff => exact within_currentContents m.root p.targets
  | editInstructions steps => exact (Drafts.within_ofSteps m.root steps).bind fun ds _ => trivial

end PatchManager

end BuildMender
