import BuildMender.Proofs.Patch.Apply
import BuildMender.Proofs.Patch.StepNames

/-!
# Nothing outside the root

What a patch says comes from elsewhere, and so do the names of its files. Three routes lead from such a
name to the disk: the targets are looked at when the patch is validated, the files of the steps are read
when the steps are worked out, and copies are made in the directories of those files. On each of them
every path that is reached lies below the root (`BuildMender.PatchManager.confined_to_root`), also when
the targets were given and validation never looks at the files of the steps.

The one thing to know is where a name is judged: last, when it is joined to the root. So nothing that is
done with it before can hide that it escapes (`BuildMender.EditStep.WrittenAs.escapes`).
-/

namespace BuildMender

open Path (Below)

namespace PatchManager

variable {m : PatchManager} {id : PatchId} {p : Patch} {steps : List EditStep}

/-! ### Patches that name files outside -/

/-- **A patch that names a file outside the root fails**, and changes nothing, whether the file is a
target or that of a step. -/
theorem apply_of_escapes (hp : m.get? id = some p) (hc : p.content = .editInstructions steps)
    (h : (∃ t ∈ p.targets, Path.escapes ⟨t⟩) ∨ ∃ s ∈ steps, Path.escapes ⟨s.file⟩) (w : Workspace) :
    ∃ e, (m.apply id w).1 = .error e ∧ (m.apply id w).2.2.disk = w.disk := by
  have hends := applied m id w
  generalize m.apply id w = r at hends ⊢
  cases hends with
  | refused reached invalid disk runner => exact ⟨_, rfl, disk⟩
  | failed reached admits disk runner => exact ⟨_, rfl, disk⟩
  | carried reached admits disk calls =>
    obtain rfl := Option.some.inj (hp.symm.trans admits.get?_eq)
    rw [hc] at disk
    obtain ⟨ds, hds, -⟩ := disk
    rcases h with ⟨t, ht, hesc⟩ | ⟨s, hs, hesc⟩
    · rw [(admits.targets t ht).1] at hesc
      cases hesc
    · rw [(hds.covered s hs).1] at hesc
      cases hesc

/-- What a patch changes lies inside the root. -/
theorem inside_of_changed (m : PatchManager) (id : PatchId) (w : Workspace) {at_ : Place}
    (h : (m.apply id w).2.2.disk.node? at_ ≠ w.disk.node? at_) : w.disk.Inside m.root at_ := by
  have hends := applied m id w
  generalize m.apply id w = r at hends h
  cases hends with
  | refused reached invalid disk runner => exact absurd (by rw [disk]) h
  | failed reached admits disk runner => exact absurd (by rw [disk]) h
  | @carried p outcome w' reached admits disk calls =>
    generalize p.content = content at disk
    cases content with
    | unifiedDiff diff =>
      have hdisk : w'.disk = w.disk := disk
      exact absurd (by rw [hdisk]) h
    | editInstructions steps =>
      obtain ⟨ds, hds, hdisk⟩ := disk
      rw [hdisk] at h
      by_contra hout
      refine h (Drafts.node?_written_of_ne hds.hasFile fun e he hfollow => hout ?_)
      obtain ⟨s, hs, hname⟩ := hds.named e he
      rw [hname] at hfollow
      exact Disk.inside_of_below (Path.below_join (hds.covered s hs).1) hfollow

/-! ### Confinement -/

/-- **Being confined to a directory**: being the directory joined with a path that does not escape, and
so leading to a place inside it on every disk. -/
def Confined (root q : Path) : Prop :=
  Below root q ∧ ∀ (d : Disk) at_, d.follow [] q.components = .ok at_ → d.Inside root at_

theorem confined_of_below {root q : Path} (h : Below root q) : Confined root q :=
  ⟨h, fun _ _ hf => Disk.inside_of_below h hf⟩

/-- **Nothing outside the root is reached.** For a patch of edit steps, whatever its text and its targets:

* every path that validating it, checking it or applying it reaches is confined to the root;
* what applying it changes lies inside the root;
* it fails, and changes nothing, if one of its targets escapes;
* so it does if one of its steps does, with the name of its file taken as it stands on its line or with
  the backslashes on that line read as slashes. -/
theorem confined_to_root (hp : m.get? id = some p)
    (hc : p.content = .editInstructions (EditStep.parse p.raw)) (w : Workspace) :
    (∀ q ∈ (m.validating id).reached w.disk, Confined m.root q) ∧
    (∀ q ∈ (m.checking id).reached w.disk, Confined m.root q) ∧
    (∃ more, (m.apply id w).2.2.reached = w.reached ++ more ∧ ∀ q ∈ more, Confined m.root q) ∧
    (∀ at_, (m.apply id w).2.2.disk.node? at_ ≠ w.disk.node? at_ → w.disk.Inside m.root at_) ∧
    ((∃ t ∈ p.targets, Path.escapes ⟨t⟩) →
      ∃ e, (m.apply id w).1 = .error e ∧ (m.apply id w).2.2.disk = w.disk) ∧
    ∀ s ∈ EditStep.parse p.raw, ∃ raw, EditStep.WrittenAs p.raw s raw ∧
      (Path.escapes ⟨s.file⟩ ∨ Path.escapes ⟨Text.replace '\\' '/' raw⟩ →
        ∃ e, (m.apply id w).1 = .error e ∧ (m.apply id w).2.2.disk = w.disk) := by
  have hlooks : ∀ {α : Type} {t : FileTask PatchError α} {Q : α → Prop},
      t.Within (FileCall.LooksBelow m.root) Q → ∀ q ∈ t.reached w.disk, Confined m.root q := by
    intro α t Q ht q hq
    have hstays := ht.mono (fun _ hc => hc.staysBelow) fun _ h => h
    exact confined_of_below (hstays.below w.disk q hq)
  refine ⟨hlooks (within_validating m id), hlooks (within_checking m id), ?_,
    fun at_ => inside_of_changed m id w, fun h => apply_of_escapes hp hc (Or.inl h) w, fun s hs => ?_⟩
  · obtain ⟨more, hmore, hbelow⟩ := (applied m id w).staysBelow
    exact ⟨more, hmore, fun q hq => confined_of_below (hbelow q hq)⟩
  · obtain ⟨raw, hraw⟩ := EditStep.exists_writtenAs hs
    refine ⟨raw, hraw, fun hesc => apply_of_escapes hp hc (Or.inr ⟨s, hs, ?_⟩) w⟩
    exact hesc.elim (fun h => h) hraw.escapes

/-- A patch that is given for a file of the project and has a step for one above it. -/
def reachingOut : PatchManager :=
  holding (block "a.cpp" "int a;" "int c;" ++ block ".\\src\\..\\..\\etc\\passwd" "root" "me") ["a.cpp"]

/-- Such a patch fails, and the file that it is given for keeps its content. -/
theorem reachingOut_fails : ∃ e, (reachingOut.apply "1" ⟨smallProject, {}, [], []⟩).1 = .error e ∧
    (reachingOut.apply "1" ⟨smallProject, {}, [], []⟩).2.2.disk = smallProject := by
  have hget : reachingOut.get? "1" = some (Patch.ofText (block "a.cpp" "int a;" "int c;" ++
      block ".\\src\\..\\..\\etc\\passwd" "root" "me") ["a.cpp"] true) := by
    decide +kernel
  have hsteps := (confined_to_root hget (by decide +kernel) ⟨smallProject, {}, [], []⟩).2.2.2.2.2
  have hmem : (⟨"src/../../etc/passwd", "root", "me"⟩ : EditStep) ∈
      EditStep.parse (Patch.ofText (block "a.cpp" "int a;" "int c;" ++
        block ".\\src\\..\\..\\etc\\passwd" "root" "me") ["a.cpp"] true).raw := by
    decide +kernel
  obtain ⟨raw, -, hfails⟩ := hsteps _ hmem
  exact hfails (Or.inl (by decide +kernel))

end PatchManager

end BuildMender
