import BuildMender.Patch.Resolve
import BuildMender.Proofs.Disk.Place
import BuildMender.Proofs.Disk.Task
import Mathlib.Data.List.Nodup

/-!
# What edit steps come to

Working out steps looks at files and changes none. Two things are settled about it here.

* Every file it looks at lies below the root, and so does every file for which it leaves a draft; such a
  file names something below the root, so that its parent lies there too
  (`BuildMender.Drafts.within_ofSteps`).
* The draft of a file is what the steps for that file, and no others, make of what the disk holds
  (`BuildMender.Drafts.resolved_ofSteps`). Steps for different files may stand between them.

The second is an invariant of the steps done so far (`BuildMender.Drafts.Resolved`). The one thing to
know about it is that a file is known by the components of its path: a step finds the draft of an
earlier one under any spelling, and the first spelling is kept.
-/

namespace BuildMender

open Path (Below NamesBelow)

/-! ### Targets -/

namespace Patch

variable {root p : Path} {target : Text}

/-- **A target inside the project** is one that does not escape; its path is taken from the root. -/
theorem targetPath_eq_ok :
    targetPath root target = .ok p ↔ Path.escapes ⟨target⟩ = false ∧ p = root.join ⟨target⟩ := by
  rw [targetPath]
  by_cases h : Path.escapes ⟨target⟩
  · simp [h]
  · simp [h, eq_comm]

theorem targetPath_of_escapes (root : Path) (h : Path.escapes ⟨target⟩) :
    targetPath root target = .error (.outsideRoot target) := by
  rw [targetPath, if_pos h]

/-- The steps for the file at a path. -/
def stepsFor (root p : Path) (steps : List EditStep) : List EditStep :=
  steps.filter fun s => (root.join ⟨s.file⟩).same p

end Patch

/-- Steps applied one after another to one text. -/
def EditStep.applyAll (steps : List EditStep) (content : Text) : Option Text :=
  steps.foldlM (fun content step => step.apply content) content

theorem Path.same_iff {p q : Path} : p.same q ↔ p.components = q.components := beq_iff_eq

/-! ### Calls that look below the root -/

/-- A call that looks at a file below the root. -/
def FileCall.LooksBelow (root : Path) : FileCall → Prop
  | .isFile p => Below root p
  | .read p => Below root p
  | _ => False

theorem FileCall.LooksBelow.reads {root : Path} {c : FileCall} (h : c.LooksBelow root) : c.Reads := by
  cases c with
  | isFile p => trivial
  | read p => trivial
  | rights p => trivial
  | create dir => exact h
  | fill p content => exact h
  | rename p target => exact h
  | remove p => exact h

/-- A task that looks at files below the root leaves the disk as it is. -/
theorem FileTask.Within.run_snd_of_looksBelow {ε α : Type} {root : Path} {t : FileTask ε α}
    {Q : α → Prop} (ht : t.Within (FileCall.LooksBelow root) Q) (d : Disk) : (t.run d).2 = d := by
  have hreads : t.Within FileCall.Reads Q := ht.mono (fun _ hc => hc.reads) fun _ h => h
  exact hreads.run_snd d

namespace Drafts

open Patch (targetPath stepsFor)
open EditStep (applyAll)

variable {root p : Path} {ds ds' : Drafts} {d d' : Disk} {step : EditStep} {done : List EditStep}
  {t content : Text}

/-! ### Drafts as a table -/

/-- The files with drafts, as their components. -/
def keys (ds : Drafts) : List (List Path.Component) := ds.map fun e => e.1.components

theorem find?_eq_none : ds.find? p = none ↔ p.components ∉ ds.keys := by
  simp [find?, keys, Path.same_iff, List.find?_eq_none]

theorem exists_of_find? (h : ds.find? p = some content) :
    ∃ e ∈ ds, e.1.components = p.components ∧ e.2 = content := by
  obtain ⟨e, he, rfl⟩ := Option.map_eq_some_iff.mp h
  have hsame : e.1.same p := List.find?_some (p := fun d : Path × Text => d.1.same p) he
  exact ⟨e, List.mem_of_find?_eq_some he, Path.same_iff.mp hsame, rfl⟩

theorem put_of_mem (h : p.components ∈ ds.keys) :
    ds.put p content = ds.map fun e => if e.1.components = p.components then (e.1, content) else e := by
  rw [put, if_pos]
  · refine List.map_congr_left fun e _ => ?_
    simp only [Path.same_iff]
  · simpa [keys, Path.same_iff] using h

theorem put_of_not_mem (h : p.components ∉ ds.keys) : ds.put p content = ds ++ [(p, content)] := by
  rw [put, if_neg]
  simpa [keys, Path.same_iff] using h

theorem keys_put_of_mem (h : p.components ∈ ds.keys) : (ds.put p content).keys = ds.keys := by
  rw [put_of_mem h, keys, keys, List.map_map]
  refine List.map_congr_left fun e _ => ?_
  rw [Function.comp_apply]
  split <;> rfl

theorem keys_put_of_not_mem (h : p.components ∉ ds.keys) :
    (ds.put p content).keys = ds.keys ++ [p.components] := by
  rw [put_of_not_mem h, keys, List.map_append]
  rfl

/-- A draft that was put in is for a path that had one, or is the new one. -/
theorem exists_of_mem_put {e : Path × Text} (h : e ∈ ds.put p content) :
    (∃ e' ∈ ds, e'.1 = e.1) ∨ p.components ∉ ds.keys ∧ e = (p, content) := by
  by_cases hmem : p.components ∈ ds.keys
  · rw [put_of_mem hmem] at h
    obtain ⟨e', he', rfl⟩ := List.mem_map.mp h
    refine Or.inl ⟨e', he', ?_⟩
    split <;> rfl
  · rw [put_of_not_mem hmem] at h
    rcases List.mem_append.mp h with h | h
    · exact Or.inl ⟨e, h, rfl⟩
    · exact Or.inr ⟨hmem, List.mem_singleton.mp h⟩

theorem exists_mem_put (ds : Drafts) (p : Path) (content : Text) :
    ∃ e ∈ ds.put p content, e.1.components = p.components ∧ e.2 = content := by
  by_cases hmem : p.components ∈ ds.keys
  · obtain ⟨e, he, hc⟩ := List.mem_map.mp hmem
    rw [put_of_mem hmem]
    exact ⟨(e.1, content), List.mem_map.mpr ⟨e, he, if_pos hc⟩, hc, rfl⟩
  · rw [put_of_not_mem hmem]
    exact ⟨(p, content), by simp, rfl, rfl⟩

/-- The drafts of other files stay. -/
theorem mem_put_of_ne {e : Path × Text} (hne : e.1.components ≠ p.components) :
    e ∈ ds.put p content ↔ e ∈ ds := by
  by_cases hmem : p.components ∈ ds.keys
  · rw [put_of_mem hmem, List.mem_map]
    constructor
    · rintro ⟨e', he', hcase⟩
      split at hcase
      · rename_i hc
        exact absurd (hcase ▸ hc) hne
      · exact hcase ▸ he'
    · exact fun he => ⟨e, he, if_neg hne⟩
  · rw [put_of_not_mem hmem, List.mem_append, List.mem_singleton]
    exact ⟨fun h => h.resolve_right fun hc => hne (hc ▸ rfl), Or.inl⟩

theorem sorted_perm (ds : Drafts) : ds.sorted.Perm ds := List.mergeSort_perm ds _

/-! ### One step -/

theorem run_current (ds : Drafts) (p : Path) (name : Text) (d : Disk) :
    (ds.current p name).run d =
      (match ds.find? p with
        | some content => .ok content
        | none =>
          match d.readText p with
          | .ok content => .ok content
          | .error .notFound => .error (.missingTarget name)
          | .error e => .error (.files p e), d) := by
  rw [current]
  cases ds.find? p with
  | some content => rfl
  | none =>
    dsimp only
    rw [FileTask.run_bind, FileTask.run_ask, Disk.answer]
    dsimp only
    split <;> simp_all

/-- The content of a file so far is its draft, or what the disk holds. -/
theorem current_eq_ok {name : Text} : (ds.current p name).run d = (.ok t, d') ↔
    d' = d ∧ (ds.find? p = some t ∨ ds.find? p = none ∧ d.readText p = .ok t) := by
  rw [run_current]
  cases ds.find? p with
  | some content =>
    dsimp only
    constructor
    · rintro h
      cases h
      exact ⟨rfl, Or.inl rfl⟩
    · rintro ⟨rfl, h | h⟩
      · rw [Option.some.inj h]
      · cases h.1
  | none =>
    dsimp only
    cases d.readText p with
    | ok content =>
      constructor
      · rintro h
        cases h
        exact ⟨rfl, Or.inr ⟨rfl, rfl⟩⟩
      · rintro ⟨rfl, h | h⟩
        · cases h
        · rw [Except.ok.inj h.2]
    | error e => cases e <;> simp

/-- **One step worked out.** -/
theorem addStep_eq_ok : (addStep root ds step).run d = (.ok ds', d') ↔
    Path.escapes ⟨step.file⟩ = false ∧ d' = d ∧ ∃ t u,
      (ds.find? (root.join ⟨step.file⟩) = some t ∨
        ds.find? (root.join ⟨step.file⟩) = none ∧ d.readText (root.join ⟨step.file⟩) = .ok t) ∧
      step.apply t = some u ∧ ds' = ds.put (root.join ⟨step.file⟩) u := by
  rw [addStep, FileTask.run_bind_eq_ok]
  constructor
  · rintro ⟨p, d₁, hp, hcurrent⟩
    rw [FileTask.run_lift, Prod.mk.injEq] at hp
    obtain ⟨hp, rfl⟩ := hp
    obtain ⟨hesc, rfl⟩ := Patch.targetPath_eq_ok.mp hp
    obtain ⟨t, d₂, ht, happly⟩ := FileTask.run_bind_eq_ok.mp hcurrent
    obtain ⟨rfl, ht⟩ := current_eq_ok.mp ht
    cases hu : step.apply t with
    | none => simp [hu] at happly
    | some u =>
      rw [hu, FileTask.run_pure, Prod.mk.injEq] at happly
      exact ⟨hesc, happly.2.symm, t, u, ht, hu, (Except.ok.inj happly.1).symm⟩
  · rintro ⟨hesc, rfl, t, u, ht, hu, rfl⟩
    refine ⟨_, d', ?_, FileTask.run_bind_eq_ok.mpr ⟨t, d', current_eq_ok.mpr ⟨rfl, ht⟩, ?_⟩⟩
    · rw [FileTask.run_lift, Patch.targetPath_eq_ok.mpr ⟨hesc, rfl⟩]
    · rw [hu]
      rfl

/-! ### The drafts after some steps -/

theorem stepsFor_append (root p : Path) (done more : List EditStep) :
    stepsFor root p (done ++ more) = stepsFor root p done ++ stepsFor root p more :=
  List.filter_append ..

theorem stepsFor_append_self (h : (root.join ⟨step.file⟩).components = p.components) :
    stepsFor root p (done ++ [step]) = stepsFor root p done ++ [step] := by
  rw [stepsFor_append]
  simp [stepsFor, Path.same_iff, h]

theorem stepsFor_append_other (h : (root.join ⟨step.file⟩).components ≠ p.components) :
    stepsFor root p (done ++ [step]) = stepsFor root p done := by
  rw [stepsFor_append]
  simp [stepsFor, Path.same_iff, h]

theorem applyAll_append_singleton (steps : List EditStep) (step : EditStep) (t : Text) :
    applyAll (steps ++ [step]) t = (applyAll steps t).bind step.apply := by
  rw [applyAll, List.foldlM_append]
  simp [applyAll]

/-- **Drafts that are right for the steps done so far**: each is what the steps for its file make of the
file on disk, and each step's file has one. -/
structure Resolved (d : Disk) (root : Path) (done : List EditStep) (ds : Drafts) : Prop where
  content : ∀ e ∈ ds, ∃ t, d.readText e.1 = .ok t ∧ applyAll (stepsFor root e.1 done) t = some e.2
  named : ∀ e ∈ ds, ∃ s ∈ done, e.1 = root.join ⟨s.file⟩
  covered : ∀ s ∈ done, Path.escapes ⟨s.file⟩ = false ∧ (root.join ⟨s.file⟩).components ∈ ds.keys
  distinct : ds.keys.Nodup

theorem resolved_nil (d : Disk) (root : Path) : Resolved d root [] [] :=
  ⟨nofun, nofun, nofun, List.nodup_nil⟩

/-- Each file has one draft. -/
theorem Resolved.eq_of_components (h : Resolved d root done ds) {e e' : Path × Text} (he : e ∈ ds)
    (he' : e' ∈ ds) (hc : e.1.components = e'.1.components) : e = e' :=
  List.inj_on_of_nodup_map h.distinct he he' hc

/-- A file without a draft has had no step, or it would have one. -/
theorem Resolved.stepsFor_eq_nil (h : Resolved d root done ds) (hmem : p.components ∉ ds.keys) :
    stepsFor root p done = [] := by
  rw [stepsFor, List.filter_eq_nil_iff]
  intro s hs hsame
  exact hmem (Path.same_iff.mp hsame ▸ (h.covered s hs).2)

/-- Another step for a file that has a draft. -/
theorem Resolved.put_of_mem {u : Text} (h : Resolved d root done ds)
    (hesc : Path.escapes ⟨step.file⟩ = false) (ht : ds.find? (root.join ⟨step.file⟩) = some t)
    (hu : step.apply t = some u) :
    Resolved d root (done ++ [step]) (ds.put (root.join ⟨step.file⟩) u) := by
  obtain ⟨e₀, he₀, hc₀, rfl⟩ := exists_of_find? ht
  have hmem : (root.join ⟨step.file⟩).components ∈ ds.keys := hc₀ ▸ List.mem_map_of_mem he₀
  have hkeys : (ds.put (root.join ⟨step.file⟩) u).keys = ds.keys := keys_put_of_mem hmem
  -- what an entry was before, and that only the one of the step's file is another
  have hentry : ∀ e ∈ ds.put (root.join ⟨step.file⟩) u, ∃ e' ∈ ds, e'.1 = e.1 ∧
      (e' = e₀ ∧ e.2 = u ∨ (root.join ⟨step.file⟩).components ≠ e.1.components ∧ e' = e) := by
    intro e he
    rw [Drafts.put_of_mem hmem] at he
    obtain ⟨e', he', rfl⟩ := List.mem_map.mp he
    split
    · rename_i hc
      exact ⟨e', he', rfl, Or.inl ⟨h.eq_of_components he' he₀ (hc.trans hc₀.symm), rfl⟩⟩
    · rename_i hc
      exact ⟨e', he', rfl, Or.inr ⟨Ne.symm hc, rfl⟩⟩
  refine ⟨fun e he => ?_, fun e he => ?_, fun s hs => ?_, hkeys ▸ h.distinct⟩
  · obtain ⟨e', he', hpath, hcase⟩ := hentry e he
    obtain ⟨t, hread, hall⟩ := h.content e' he'
    rw [← hpath]
    refine ⟨t, hread, ?_⟩
    rcases hcase with ⟨rfl, hu'⟩ | ⟨hne, rfl⟩
    · rw [stepsFor_append_self hc₀.symm, applyAll_append_singleton, hall, Option.bind_some, hu, hu']
    · rw [stepsFor_append_other hne, hall]
  · obtain ⟨e', he', hpath, -⟩ := hentry e he
    obtain ⟨s, hs, hname⟩ := h.named e' he'
    exact ⟨s, List.mem_append_left _ hs, hpath ▸ hname⟩
  · rw [hkeys]
    rcases List.mem_append.mp hs with hs | hs
    · exact h.covered s hs
    · obtain rfl := List.mem_singleton.mp hs
      exact ⟨hesc, hmem⟩

/-- The first step for a file. -/
theorem Resolved.put_of_not_mem {u : Text} (h : Resolved d root done ds)
    (hesc : Path.escapes ⟨step.file⟩ = false) (hnone : ds.find? (root.join ⟨step.file⟩) = none)
    (hread : d.readText (root.join ⟨step.file⟩) = .ok t) (hu : step.apply t = some u) :
    Resolved d root (done ++ [step]) (ds.put (root.join ⟨step.file⟩) u) := by
  have hmem := find?_eq_none.mp hnone
  have hnone := h.stepsFor_eq_nil hmem
  refine ⟨fun e he => ?_, fun e he => ?_, fun s hs => ?_, ?_⟩
  · rw [Drafts.put_of_not_mem hmem] at he
    rcases List.mem_append.mp he with he | he
    · obtain ⟨t, hread, hall⟩ := h.content e he
      have hne : (root.join ⟨step.file⟩).components ≠ e.1.components :=
        fun hc => hmem (hc ▸ List.mem_map_of_mem he)
      exact ⟨t, hread, by rw [stepsFor_append_other hne, hall]⟩
    · obtain rfl := List.mem_singleton.mp he
      refine ⟨t, hread, ?_⟩
      rw [stepsFor_append_self rfl, applyAll_append_singleton, hnone]
      exact hu
  · rcases exists_of_mem_put he with ⟨e', he', hpath⟩ | ⟨-, rfl⟩
    · obtain ⟨s, hs, hname⟩ := h.named e' he'
      exact ⟨s, List.mem_append_left _ hs, hpath ▸ hname⟩
    · exact ⟨step, by simp, rfl⟩
  · rw [keys_put_of_not_mem hmem]
    rcases List.mem_append.mp hs with hs | hs
    · exact ⟨(h.covered s hs).1, List.mem_append_left _ (h.covered s hs).2⟩
    · obtain rfl := List.mem_singleton.mp hs
      exact ⟨hesc, by simp⟩
  · rw [keys_put_of_not_mem hmem, List.nodup_append_comm]
    exact List.nodup_cons.mpr ⟨hmem, h.distinct⟩

/-- **A step keeps the drafts right**, and leaves the disk as it is. -/
theorem Resolved.addStep (h : Resolved d root done ds)
    (hs : (Drafts.addStep root ds step).run d = (.ok ds', d')) :
    d' = d ∧ Resolved d root (done ++ [step]) ds' := by
  obtain ⟨hesc, rfl, t, u, ht, hu, rfl⟩ := addStep_eq_ok.mp hs
  rcases ht with ht | ⟨hnone, hread⟩
  · exact ⟨rfl, h.put_of_mem hesc ht hu⟩
  · exact ⟨rfl, h.put_of_not_mem hesc hnone hread hu⟩

/-- So do all of them, one after another. -/
theorem Resolved.addSteps {steps : List EditStep} (h : Resolved d root done ds)
    (hs : (Drafts.addSteps root ds steps).run d = (.ok ds', d')) :
    d' = d ∧ Resolved d root (done ++ steps) ds' := by
  induction steps generalizing done ds with
  | nil =>
    cases hs
    exact ⟨rfl, by rwa [List.append_nil]⟩
  | cons step more ih =>
    obtain ⟨ds₁, d₁, hstep, hmore⟩ := FileTask.run_bind_eq_ok.mp hs
    obtain ⟨rfl, h₁⟩ := h.addStep hstep
    have := ih h₁ hmore
    rwa [List.append_assoc] at this

/-- The order of the drafts does not matter. -/
theorem Resolved.of_perm (h : Resolved d root done ds) (hp : ds'.Perm ds) :
    Resolved d root done ds' where
  content e he := h.content e (hp.subset he)
  named e he := h.named e (hp.subset he)
  covered s hs := ⟨(h.covered s hs).1, (hp.map _).symm.subset (h.covered s hs).2⟩
  distinct := (hp.map _).nodup_iff.mpr h.distinct

/-- **What the steps come to**: if they can all be worked out, the drafts are right for them. -/
theorem resolved_ofSteps {steps : List EditStep}
    (h : (ofSteps root steps).run d = (.ok ds, d')) : d' = d ∧ Resolved d root steps ds := by
  obtain ⟨ds₁, d₁, hsteps, hsorted⟩ := FileTask.run_bind_eq_ok.mp h
  obtain ⟨rfl, h₁⟩ := (resolved_nil d root).addSteps hsteps
  cases hsorted
  exact ⟨rfl, h₁.of_perm (sorted_perm ds₁)⟩

/-! ### Where the steps look -/

theorem within_current {rel : Path} {name : Text} (h : rel.escapes = false) :
    (ds.current (root.join rel) name).Within (FileCall.LooksBelow root) fun _ =>
      ds.find? (root.join rel) ≠ none ∨ NamesBelow root (root.join rel) := by
  rw [current]
  cases hf : ds.find? (root.join rel) with
  | some content => exact Or.inl nofun
  | none =>
    refine FileTask.within_ask (Path.below_join h) fun d => ?_
    rw [Disk.answer]
    dsimp only
    split
    · rename_i t ht
      have hbody : rel.body ≠ [] := Disk.body_ne_nil_of_hasFile h (Disk.hasFile_of_readText ht)
      exact FileTask.within_pure (Or.inr ⟨rel, h, rfl, hbody⟩)
    · trivial
    · trivial

/-- A step looks at one file below the root, and leaves a draft for no other. -/
theorem within_addStep (hds : ∀ e ∈ ds, NamesBelow root e.1) (step : EditStep) :
    (addStep root ds step).Within (FileCall.LooksBelow root) fun ds =>
      ∀ e ∈ ds, NamesBelow root e.1 := by
  rw [addStep]
  refine FileTask.Within.bind (FileTask.within_lift fun p hp => hp) fun p hp => ?_
  obtain ⟨hesc, rfl⟩ := Patch.targetPath_eq_ok.mp hp
  refine (within_current hesc).bind fun content hcontent => ?_
  split
  · rename_i u hu
    refine FileTask.within_pure fun e he => ?_
    rcases exists_of_mem_put he with ⟨e', he', hpath⟩ | ⟨hmem, rfl⟩
    · exact hpath ▸ hds e' he'
    · -- there was no draft, so the file was read and names something
      exact hcontent.resolve_left (not_not_intro (find?_eq_none.mpr hmem))
  · trivial

theorem within_addSteps (hds : ∀ e ∈ ds, NamesBelow root e.1) (steps : List EditStep) :
    (addSteps root ds steps).Within (FileCall.LooksBelow root) fun ds =>
      ∀ e ∈ ds, NamesBelow root e.1 := by
  induction steps generalizing ds with
  | nil => exact hds
  | cons step more ih => exact (within_addStep hds step).bind fun ds hds => ih hds

/-- **Working out steps** looks at files below the root only, and leaves drafts for such files only. -/
theorem within_ofSteps (root : Path) (steps : List EditStep) :
    (ofSteps root steps).Within (FileCall.LooksBelow root) fun ds => ∀ e ∈ ds, NamesBelow root e.1 := by
  have hsteps : (addSteps root [] steps).Within (FileCall.LooksBelow root) fun ds =>
      ∀ e ∈ ds, NamesBelow root e.1 := within_addSteps (List.forall_mem_nil _) steps
  refine hsteps.bind fun ds hds => ?_
  exact FileTask.within_pure fun e he => hds e ((sorted_perm ds).subset he)

/-- Working out steps changes nothing on disk, whether it succeeds or not. -/
theorem run_ofSteps_snd (root : Path) (steps : List EditStep) (d : Disk) :
    ((ofSteps root steps).run d).2 = d :=
  (within_ofSteps root steps).run_snd_of_looksBelow d

end Drafts

end BuildMender
