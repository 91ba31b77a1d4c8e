import BuildMender.Proofs.Patch.Coverage
import BuildMender.Proofs.Patch.Edits
import BuildMender.Proofs.Patch.Writable

/-!
# Steps together and in turn

The steps of one patch are worked out in memory, on a table of drafts, and the disk is written once, at
the end. Patches of one step each would go through the disk every time. Both come to the same
(`BuildMender.PatchManager.apply_iff_in_turn`): the one patch is applied exactly if the others are, one
after another, and the same tree is left.

The one thing to know is that the table is the disk that the steps so far would have left
(`BuildMender.Drafts.KeepsUp`): what a file reads as on that disk is its draft if it has one, and otherwise
what the disk that was there has. This is a matter of places and not of the order in which files were
written, so the drafts may be sorted before they are.

The two also agree on which files have to be there. A patch is validated on the disk before any of its
steps, and the patches of one step each on the disk that the last one left; but no step makes a file, and
none removes one.
-/

namespace BuildMender

open Disk (Rewritten)

variable {d d' d₁ d₁' : Disk} {root : Path} {s : EditStep} {steps done : List EditStep} {q : Place}
  {t : Text}

/-! ### A step on a disk -/

namespace EditStep

/-- **A step carried out on a disk**, if its file is there and the text to find occurs in it. -/
def carryOut? (root : Path) (d : Disk) (s : EditStep) : Option Disk :=
  if Path.escapes ⟨s.file⟩ then none
  else match d.readText (root.join ⟨s.file⟩) with
    | .ok t => (s.apply t).map (d.replace (root.join ⟨s.file⟩))
    | .error _ => none

theorem carryOut?_eq_some : s.carryOut? root d = some d' ↔ Path.escapes ⟨s.file⟩ = false ∧ ∃ t u,
    d.readText (root.join ⟨s.file⟩) = .ok t ∧ s.apply t = some u ∧
      d.replace (root.join ⟨s.file⟩) u = d' := by
  rw [carryOut?]
  by_cases hesc : Path.escapes ⟨s.file⟩
  · simp [hesc]
  · cases hread : d.readText (root.join ⟨s.file⟩) <;> simp [hesc]

end EditStep

namespace Drafts

variable {ds ds' : Drafts}

/-! ### Drafts and places -/

/-- **What stands at a place** after drafts were written is a matter of the drafts for it. -/
theorem Resolved.node?_written_congr {done' : List EditStep} (h : Resolved d root done ds)
    (h' : Resolved d root done' ds') (hplain : ∀ s ∈ done, s.Plain root)
    (hplain' : ∀ s ∈ done', s.Plain root)
    (hmem : ∀ e, d.follow [] e.1.components = .ok q → (e ∈ ds ↔ e ∈ ds')) :
    (written d ds).node? q = (written d ds').node? q := by
  by_cases hdraft : ∃ e ∈ ds, d.follow [] e.1.components = .ok q
  · obtain ⟨e, he, hf⟩ := hdraft
    have he' := (hmem e hf).mp he
    rw [node?_written_of_mem h.hasFile he hf fun _ hm hf' => h.eq_of_plain hplain he hm hf hf',
      node?_written_of_mem h'.hasFile he' hf fun _ hm hf' => h'.eq_of_plain hplain' he' hm hf hf']
  · have hnone : ∀ e ∈ ds, d.follow [] e.1.components ≠ .ok q := fun e he hf => hdraft ⟨e, he, hf⟩
    rw [node?_written_of_ne h.hasFile hnone,
      node?_written_of_ne h'.hasFile fun e he hf => hnone e ((hmem e hf).mpr he) hf]

/-- **What a file reads as** after drafts were written: its draft, if it has one. -/
theorem Resolved.readText_written_iff (h : Resolved d root done ds) (hplain : ∀ s' ∈ done, s'.Plain root)
    (hs : s.Plain root) (hesc : Path.escapes ⟨s.file⟩ = false) (hfile : d.hasFile (root.join ⟨s.file⟩)) :
    (written d ds).readText (root.join ⟨s.file⟩) = .ok t ↔ ds.find? (root.join ⟨s.file⟩) = some t ∨
      ds.find? (root.join ⟨s.file⟩) = none ∧ d.readText (root.join ⟨s.file⟩) = .ok t := by
  cases hfind : ds.find? (root.join ⟨s.file⟩) with
  | some content =>
    obtain ⟨e, he, hc, rfl⟩ := exists_of_find? hfind
    have hone : ∀ e' ∈ ds, ∀ q, d.follow [] e.1.components = .ok q →
        d.follow [] e'.1.components = .ok q → e' = e :=
      fun e' he' q hf hf' => h.eq_of_plain hplain he he' hf hf'
    rw [h.readText_of_mem he hone hc.symm]
    simp [hfile, eq_comm]
  | none =>
    have hmem := find?_eq_none.mp hfind
    have hne : ∀ e ∈ ds, ∀ q, d.follow [] (root.join ⟨s.file⟩).components = .ok q →
        d.follow [] e.1.components ≠ .ok q := by
      intro e he q hf hf'
      obtain ⟨s', hs', hname⟩ := h.named e he
      have hfile' := h.hasFile e he
      rw [hname] at hf' hfile'
      have hc := components_eq_of_fileAt hs (hplain s' hs') hesc (h.covered s' hs').1 hfile hfile' hf hf'
      rw [hc, ← hname] at hmem
      exact hmem (List.mem_map_of_mem he)
    rw [readText_written_of_ne h.hasFile hne]
    simp

/-! ### Drafts and the disk they stand for -/

/-- **A disk that keeps up with drafts**: it has at each place what writing them now would leave there. -/
structure KeepsUp (d : Disk) (root : Path) (done : List EditStep) (ds : Drafts) (d₁ : Disk) : Prop where
  resolved : Resolved d root done ds
  rewritten : Rewritten d d₁
  node?_eq : ∀ q, d₁.node? q = (written d ds).node? q

theorem keepsUp_nil (d : Disk) (root : Path) : KeepsUp d root [] [] d :=
  ⟨resolved_nil d root, .refl d, fun _ => rfl⟩

theorem KeepsUp.readText_iff (h : KeepsUp d root done ds d₁) (p : Path) :
    d₁.readText p = .ok t ↔ (written d ds).readText p = .ok t := by
  have hsame : Rewritten (written d ds) d₁ := (rewritten_written d ds).symm.trans h.rewritten
  exact hsame.readText_iff fun q _ => h.node?_eq q

/-- A file written on the disk, and its draft noted. -/
theorem KeepsUp.replace {u : Text} (h : KeepsUp d root done ds d₁)
    (hplain : ∀ s' ∈ done ++ [s], s'.Plain root) (hfile : d.hasFile (root.join ⟨s.file⟩))
    (hadd : (addStep root ds s).run d = (.ok (ds.put (root.join ⟨s.file⟩) u), d)) :
    KeepsUp d root (done ++ [s]) (ds.put (root.join ⟨s.file⟩) u) (d₁.replace (root.join ⟨s.file⟩) u) := by
  have hresolved := (h.resolved.addStep hadd).2
  refine ⟨hresolved, h.rewritten.trans (Disk.rewritten_replace _ _ _), fun q => ?_⟩
  obtain ⟨q₀, b, hfind⟩ := Disk.hasFile_iff.mp (h.rewritten.hasFile_iff.mpr hfile)
  have hf₀ := h.rewritten.directories.follow_iff.mp (Disk.find_file_eq_ok.mp hfind).2.2.1
  rw [Disk.node?_replace hfind]
  split
  · -- the file of the step
    rename_i hq
    obtain ⟨e, he, hc, rfl⟩ := exists_mem_put ds (root.join ⟨s.file⟩) u
    rw [← hc, ← hq] at hf₀
    exact (node?_written_of_mem hresolved.hasFile he hf₀ fun e' he' hf' =>
      hresolved.eq_of_plain hplain he he' hf₀ hf').symm
  · rename_i hq
    rw [h.node?_eq]
    refine h.resolved.node?_written_congr hresolved (fun s' hs' => hplain s' (List.mem_append_left _ hs'))
      hplain fun e hf => (mem_put_of_ne fun hc => hq ?_).symm
    rw [hc, hf₀] at hf
    exact (Except.ok.inj hf).symm

/-- **A step worked out on drafts and carried out on the disk that keeps up with them**: both succeed, and
the disk still keeps up, or neither does. The file of the step has to be there from the beginning. -/
theorem KeepsUp.one_step (h : KeepsUp d root done ds d₁) (hplain : ∀ s' ∈ done ++ [s], s'.Plain root) :
    (∃ ds' d₁', (addStep root ds s).run d = (.ok ds', d) ∧ s.carryOut? root d₁ = some d₁' ∧
      d.hasFile (root.join ⟨s.file⟩) ∧ KeepsUp d root (done ++ [s]) ds' d₁') ∨
    s.carryOut? root d₁ = none ∧
      ¬(d.hasFile (root.join ⟨s.file⟩) ∧ ∃ ds', (addStep root ds s).run d = (.ok ds', d)) := by
  have hread (hesc : Path.escapes ⟨s.file⟩ = false) (hfile : d.hasFile (root.join ⟨s.file⟩)) (t : Text) :=
    (h.readText_iff (t := t) (root.join ⟨s.file⟩)).trans
      (h.resolved.readText_written_iff (fun s' hs' => hplain s' (List.mem_append_left _ hs'))
        (hplain s (by simp)) hesc hfile)
  cases hcarry : s.carryOut? root d₁ with
  | some d₁' =>
    obtain ⟨hesc, t, u, ht, hu, rfl⟩ := EditStep.carryOut?_eq_some.mp hcarry
    have hfile := h.rewritten.hasFile_iff.mp (Disk.hasFile_of_readText ht)
    have hadd : (addStep root ds s).run d = (.ok (ds.put (root.join ⟨s.file⟩) u), d) :=
      addStep_eq_ok.mpr ⟨hesc, rfl, t, u, (hread hesc hfile t).mp ht, hu, rfl⟩
    exact Or.inl ⟨_, _, hadd, rfl, hfile, h.replace hplain hfile hadd⟩
  | none =>
    refine Or.inr ⟨rfl, ?_⟩
    rintro ⟨hfile, ds', hadd⟩
    obtain ⟨hesc, -, t, u, ht, hu, -⟩ := addStep_eq_ok.mp hadd
    have := EditStep.carryOut?_eq_some.mpr ⟨hesc, t, u, (hread hesc hfile t).mpr ht, hu, rfl⟩
    rw [hcarry] at this
    cases this

/-- So do all steps, one after another. -/
theorem KeepsUp.all_steps (h : KeepsUp d root done ds d₁) (hplain : ∀ s ∈ done ++ steps, s.Plain root) :
    (∃ ds' d₁', (addSteps root ds steps).run d = (.ok ds', d) ∧
      steps.foldlM (EditStep.carryOut? root) d₁ = some d₁' ∧
      (∀ s ∈ steps, d.hasFile (root.join ⟨s.file⟩)) ∧ KeepsUp d root (done ++ steps) ds' d₁') ∨
    steps.foldlM (EditStep.carryOut? root) d₁ = none ∧
      ¬((∀ s ∈ steps, d.hasFile (root.join ⟨s.file⟩)) ∧
        ∃ ds', (addSteps root ds steps).run d = (.ok ds', d)) := by
  -- over the steps that are left: each goes from done to be, and the disk keeps up with it
  induction steps generalizing done ds d₁ with
  | nil => exact Or.inl ⟨ds, d₁, rfl, rfl, List.forall_mem_nil _, by rwa [List.append_nil]⟩
  | cons s more ih =>
    have hassoc : done ++ s :: more = done ++ [s] ++ more := by simp
    rw [hassoc] at hplain ⊢
    rw [List.foldlM_cons, List.forall_mem_cons, addSteps]
    rcases h.one_step fun s' hs' => hplain s' (List.mem_append_left _ hs') with
      ⟨ds', d₁', hadd, hcarry, hfile, h'⟩ | ⟨hcarry, hnone⟩
    · rw [hcarry, FileTask.run_bind_of_ok hadd]
      rcases ih h' hplain with ⟨ds'', d₁'', hsteps, hcarries, hfiles, h''⟩ | ⟨hcarries, hnone⟩
      · exact Or.inl ⟨ds'', d₁'', hsteps, hcarries, ⟨hfile, hfiles⟩, h''⟩
      · refine Or.inr ⟨hcarries, ?_⟩
        rintro ⟨⟨-, hfiles⟩, hsteps⟩
        exact hnone ⟨hfiles, hsteps⟩
    · rw [hcarry]
      refine Or.inr ⟨rfl, ?_⟩
      rintro ⟨⟨hfile, -⟩, ds', hsteps⟩
      obtain ⟨ds₁, d', hadd, -⟩ := FileTask.run_bind_eq_ok.mp hsteps
      obtain rfl := (addStep_eq_ok.mp hadd).2.1
      exact hnone ⟨hfile, ds₁, hadd⟩

theorem ofSteps_eq_ok : (ofSteps root steps).run d = (.ok ds, d) ↔
    ∃ ds₀, (addSteps root [] steps).run d = (.ok ds₀, d) ∧ ds₀.sorted = ds := by
  rw [ofSteps, FileTask.run_bind_eq_ok]
  constructor
  · rintro ⟨ds₀, d', hsteps, hsorted⟩
    obtain ⟨hds, rfl⟩ := Prod.mk.inj hsorted
    exact ⟨ds₀, hsteps, Except.ok.inj hds⟩
  · rintro ⟨ds₀, hsteps, rfl⟩
    exact ⟨ds₀, d, hsteps, rfl⟩

/-- One step worked out alone. -/
theorem ofSteps_singleton_eq_ok : (ofSteps root [s]).run d = (.ok ds, d) ↔
    Path.escapes ⟨s.file⟩ = false ∧ ∃ t u, d.readText (root.join ⟨s.file⟩) = .ok t ∧ s.apply t = some u ∧
      [(root.join ⟨s.file⟩, u)] = ds := by
  have hone {ds₀ : Drafts} : (addSteps root [] [s]).run d = (.ok ds₀, d) ↔
      (addStep root [] s).run d = (.ok ds₀, d) := by
    rw [addSteps, FileTask.run_bind_eq_ok]
    constructor
    · rintro ⟨ds₁, d', hadd, hlast⟩
      cases hlast
      exact hadd
    · intro hadd
      exact ⟨ds₀, d, hadd, rfl⟩
  have hsorted (u : Text) : sorted (put [] (root.join ⟨s.file⟩) u) = [(root.join ⟨s.file⟩, u)] :=
    List.mergeSort_singleton _
  rw [ofSteps_eq_ok]
  simp only [hone, addStep_eq_ok]
  constructor
  · rintro ⟨_, ⟨hesc, -, t, u, hread | ⟨-, hread⟩, hu, rfl⟩, rfl⟩
    · cases hread
    · exact ⟨hesc, t, u, hread, hu, (hsorted u).symm⟩
  · rintro ⟨hesc, t, u, hread, hu, rfl⟩
    exact ⟨_, ⟨hesc, trivial, t, u, Or.inr ⟨rfl, hread⟩, hu, rfl⟩, hsorted u⟩

/-- **Steps together and in turn**: they are all worked out, and their files are there, exactly if they
can be carried out one after another. -/
theorem ofSteps_iff_foldlM (hplain : ∀ s ∈ steps, s.Plain root) :
    ((∀ s ∈ steps, d.hasFile (root.join ⟨s.file⟩)) ∧ ∃ ds, (ofSteps root steps).run d = (.ok ds, d)) ↔
      ∃ d', steps.foldlM (EditStep.carryOut? root) d = some d' := by
  simp only [ofSteps_eq_ok]
  rcases (keepsUp_nil d root).all_steps hplain with ⟨ds, d', hsteps, hcarries, hfiles, -⟩ | ⟨hcarries, hnone⟩
  · exact iff_of_true ⟨hfiles, _, ds, hsteps, rfl⟩ ⟨d', hcarries⟩
  · refine iff_of_false ?_ ?_
    · rintro ⟨hfiles, _, ds, hsteps, -⟩
      exact hnone ⟨hfiles, ds, hsteps⟩
    · rintro ⟨d', hd'⟩
      rw [hcarries] at hd'
      cases hd'

/-- **Both ways leave the same tree.** -/
theorem node?_written_of_foldlM (hplain : ∀ s ∈ steps, s.Plain root)
    (hsteps : (ofSteps root steps).run d = (.ok ds, d))
    (hcarries : steps.foldlM (EditStep.carryOut? root) d = some d') (q : Place) :
    (written d ds).node? q = d'.node? q := by
  obtain ⟨ds₀, hsteps₀, rfl⟩ := ofSteps_eq_ok.mp hsteps
  rcases (keepsUp_nil d root).all_steps hplain with ⟨ds₁, d₁, hsteps₁, hcarries₁, -, h⟩ | ⟨hcarries₁, -⟩
  · obtain rfl := Except.ok.inj (Prod.mk.inj (hsteps₀.symm.trans hsteps₁)).1
    obtain rfl := Option.some.inj (hcarries.symm.trans hcarries₁)
    rw [h.node?_eq]
    -- the drafts were sorted, which is no matter
    exact (h.resolved.of_perm (sorted_perm ds₀)).node?_written_congr h.resolved hplain hplain
      fun e _ => (sorted_perm ds₀).mem_iff
  · rw [hcarries] at hcarries₁
    cases hcarries₁

end Drafts

/-! ### Patches together and in turn -/

/-- **A pending patch of some steps**, for the files that they name. -/
structure Patch.Proposes (p : Patch) (steps : List EditStep) : Prop where
  pending : p.status = .pending
  content : p.content = .editInstructions steps
  targets : p.targets = p.content.files

/-- A patch that is put in without targets proposes the steps in its text. -/
theorem Patch.proposes_ofText {text : Text} (hk : PatchKind.ofText text = .editInstructions)
    (compliant : Bool) : (Patch.ofText text [] compliant).Proposes (EditStep.parse text) := by
  refine ⟨rfl, ?_, rfl⟩
  rw [Patch.ofText, PatchContent.ofText, hk]

namespace PatchManager

open Drafts (ofSteps written)

variable {m : PatchManager} {id : PatchId} {p : Patch} {w w' : Workspace} {ids : List PatchId}
  {report : ApplyReport}

/-- **Patches applied one after another**, each to the files that the last one left: the workspace after
them, if all of them are applied. -/
def applyInTurn (m : PatchManager) (w : Workspace) : List PatchId → Option Workspace
  | [] => some w
  | id :: more =>
    match m.apply id w with
    | (.ok _, m, w) => m.applyInTurn w more
    | (.error _, _, _) => none

theorem admits_iff_of_proposes (hp : m.get? id = some p) (hsteps : p.Proposes steps) :
    m.Admits d id p ↔ steps ≠ [] ∧
      ∀ s ∈ steps, Path.escapes ⟨s.file⟩ = false ∧ d.hasFile (m.root.join ⟨s.file⟩) := by
  have hmem (f : Text) : f ∈ p.targets ↔ ∃ s ∈ steps, s.file = f := by
    rw [hsteps.targets, hsteps.content, PatchContent.files, mem_foldl_insertNew]
    simp
  constructor
  · intro h
    have hcontent := h.content
    rw [hsteps.content, contentError?] at hcontent
    refine ⟨?_, fun s hs => h.targets s.file ((hmem _).mpr ⟨s, hs, rfl⟩)⟩
    rintro rfl
    cases hcontent
  · rintro ⟨hne, hfiles⟩
    obtain ⟨s, hs⟩ := List.exists_mem_of_ne_nil _ hne
    refine ⟨hp, hsteps.pending, ?_, List.ne_nil_of_mem ((hmem _).mpr ⟨s, hs, rfl⟩), fun f hf => ?_⟩
    · rw [hsteps.content, contentError?, if_neg (by simpa using hne)]
    · obtain ⟨s, hs, rfl⟩ := (hmem f).mp hf
      exact hfiles s hs

/-- **When a patch is applied that can be written**: if it has steps, their files are there, and they can
be worked out. -/
theorem apply_ok_iff_of_proposes (hp : m.get? id = some p) (hsteps : p.Proposes steps)
    (hw : w.disk.Writable m.root steps) :
    (∃ report, (m.apply id w).1 = .ok report) ↔ steps ≠ [] ∧
      (∀ s ∈ steps, w.disk.hasFile (m.root.join ⟨s.file⟩)) ∧
      ∃ ds, (ofSteps m.root steps).run w.disk = (.ok ds, w.disk) := by
  rw [apply_ok_iff_of_steps hp hsteps.content, admits_iff_of_proposes hp hsteps]
  constructor
  · rintro ⟨⟨hne, hfiles⟩, ds, hds, -⟩
    exact ⟨hne, fun s hs => (hfiles s hs).2, ds, hds⟩
  · rintro ⟨hne, hfiles, ds, hds⟩
    have hresolved := (Drafts.resolved_ofSteps hds).2
    exact ⟨⟨hne, fun s hs => ⟨(hresolved.covered s hs).1, hfiles s hs⟩⟩, ds, hds,
      Drafts.run_write_of_writable hw hresolved⟩

/-- The disk after such a patch was applied. -/
theorem disk_apply_of_proposes {ds : Drafts} (hp : m.get? id = some p) (hsteps : p.Proposes steps)
    (hw : w.disk.Writable m.root steps) (happlied : (m.apply id w).1 = .ok report)
    (hds : (ofSteps m.root steps).run w.disk = (.ok ds, w.disk)) :
    (m.apply id w).2.2.disk = written w.disk ds := by
  obtain ⟨hadmits, -⟩ := (apply_ok_iff_of_steps hp hsteps.content).mp ⟨report, happlied⟩
  exact disk_apply_of_steps hadmits hsteps.content hds
    (Drafts.run_write_of_writable hw (Drafts.resolved_ofSteps hds).2)

/-- **A patch of one step** is applied exactly if the step can be carried out, and leaves the disk that
the step leaves. -/
theorem apply_single (hp : m.get? id = some p) (hs : p.Proposes [s]) (hw : w.disk.Writable m.root [s]) :
    (∃ report, (m.apply id w).1 = .ok report ∧
      s.carryOut? m.root w.disk = some (m.apply id w).2.2.disk) ∨
    ∃ e, (m.apply id w).1 = .error e ∧ s.carryOut? m.root w.disk = none := by
  have hiff := apply_ok_iff_of_proposes hp hs hw
  cases happlied : (m.apply id w).1 with
  | ok report =>
    obtain ⟨-, -, ds, hds⟩ := hiff.mp ⟨report, happlied⟩
    have hdisk := disk_apply_of_proposes hp hs hw happlied hds
    obtain ⟨hesc, t, u, hread, hu, rfl⟩ := Drafts.ofSteps_singleton_eq_ok.mp hds
    refine Or.inl ⟨report, rfl, EditStep.carryOut?_eq_some.mpr ⟨hesc, t, u, hread, hu, ?_⟩⟩
    rw [hdisk]
    rfl
  | error e =>
    refine Or.inr ⟨e, rfl, ?_⟩
    by_contra hcarry
    obtain ⟨d', hcarry⟩ := Option.ne_none_iff_exists'.mp hcarry
    obtain ⟨hesc, t, u, hread, hu, -⟩ := EditStep.carryOut?_eq_some.mp hcarry
    have hfiles : ∀ s' ∈ [s], w.disk.hasFile (m.root.join ⟨s'.file⟩) := by
      simpa using Disk.hasFile_of_readText hread
    obtain ⟨report, hok⟩ := hiff.mpr ⟨List.cons_ne_nil _ _, hfiles, _,
      Drafts.ofSteps_singleton_eq_ok.mpr ⟨hesc, t, u, hread, hu, rfl⟩⟩
    rw [happlied] at hok
    cases hok

/-- **Patches of one step each, in turn**, do to the disk what the steps do. -/
theorem disk_applyInTurn (hids : ids.Nodup)
    (hone : List.Forall₂ (fun id s => ∃ p, m.get? id = some p ∧ p.Proposes [s]) ids steps)
    (hw : w.disk.Writable m.root steps) :
    (m.applyInTurn w ids).map Workspace.disk = steps.foldlM (EditStep.carryOut? m.root) w.disk := by
  induction ids generalizing m w steps with
  | nil =>
    cases hone
    rfl
  | cons id more ih =>
    obtain ⟨s, steps, ⟨p, hp, hs⟩, hmore, rfl⟩ := List.forall₂_cons_left_iff.mp hone
    obtain ⟨hid, hids⟩ := List.nodup_cons.mp hids
    have hmanager := (applied m id w).manager_eq
    have hw₁ : w.disk.Writable m.root [s] := hw.of_rewritten (.refl _) (by simp)
    rw [applyInTurn, List.foldlM_cons]
    rcases apply_single hp hs hw₁ with ⟨report, happlied, hcarry⟩ | ⟨e, hfails, hcarry⟩
    · rw [hcarry]
      obtain ⟨-, t, u, -, -, hreplace⟩ := EditStep.carryOut?_eq_some.mp hcarry
      have hrewritten := hreplace ▸ Disk.rewritten_replace w.disk (m.root.join ⟨s.file⟩) u
      rw [happlied] at hmanager
      generalize m.apply id w = r at happlied hmanager hrewritten ⊢
      obtain ⟨result, m', w'⟩ := r
      obtain rfl : result = .ok report := happlied
      obtain rfl : m' = m.update id Patch.applied := hmanager
      -- the other patches are as they were
      have hother : ∀ id' ∈ more, id' ≠ id := fun id' hmem heq => hid (heq ▸ hmem)
      refine ih hids ?_ (hw.of_rewritten hrewritten (List.sublist_cons_self _ _))
      refine ((List.forall₂_and_left _ _).mpr ⟨hother, hmore⟩).imp ?_
      rintro id' s' ⟨hne, p', hp', hs'⟩
      exact ⟨p', by rw [get?_update, if_neg hne, hp'], hs'⟩
    · rw [hcarry]
      generalize m.apply id w = r at hfails ⊢
      obtain ⟨result, m', w'⟩ := r
      obtain rfl : result = .error e := hfails
      rfl

/-- **One patch of many steps does what one patch for each step does.** Under whatever policy, on a disk
that can be written: the patch of all the steps is applied exactly if the patches of one step each are, one
after another, each to the files that the last one left; and both ways leave the same tree. -/
theorem apply_iff_in_turn (hp : m.get? id = some p) (hsteps : p.Proposes steps) (hne : steps ≠ [])
    (hids : ids.Nodup)
    (hone : List.Forall₂ (fun id s => ∃ p, m.get? id = some p ∧ p.Proposes [s]) ids steps)
    (hplain : ∀ s ∈ steps, s.Plain m.root) (hw : w.disk.Writable m.root steps) :
    ((∃ report, (m.apply id w).1 = .ok report) ↔ ∃ w', m.applyInTurn w ids = some w') ∧
    ∀ report w', (m.apply id w).1 = .ok report → m.applyInTurn w ids = some w' →
      ∀ q, (m.apply id w).2.2.disk.node? q = w'.disk.node? q := by
  have hturns := disk_applyInTurn hids hone hw
  constructor
  · rw [apply_ok_iff_of_proposes hp hsteps hw, and_iff_right hne, Drafts.ofSteps_iff_foldlM hplain,
      ← hturns]
    simp only [Option.map_eq_some_iff]
    exact ⟨fun ⟨_, w', hw', _⟩ => ⟨w', hw'⟩, fun ⟨w', hw'⟩ => ⟨_, w', hw', rfl⟩⟩
  · intro report w' happlied happliedInTurn q
    obtain ⟨-, -, ds, hds⟩ := (apply_ok_iff_of_proposes hp hsteps hw).mp ⟨report, happlied⟩
    rw [happliedInTurn, Option.map_some] at hturns
    rw [disk_apply_of_proposes hp hsteps hw happlied hds]
    exact Drafts.node?_written_of_foldlM hplain hds hturns.symm q

/-- Two steps for one file: the second spells its path another way, and finds what the first has put
there. -/
def respelledSteps : List EditStep :=
  [⟨"src/a.cpp", "int a;", "int b;"⟩, ⟨"src//a.cpp", "int b;", "int c;"⟩]

/-- A manager with a patch of both steps, and a patch for each. -/
def respelled : PatchManager :=
  let first := block "src/a.cpp" "int a;" "int b;"
  let second := block "src//a.cpp" "int b;" "int c;"
  ((({ root := "/p", policy := .never } : PatchManager).insert "both"
    (Patch.ofText (first ++ second) [] true)).insert "first" (Patch.ofText first [] true)).insert "second"
    (Patch.ofText second [] true)

/-- A workspace with one file in a directory. -/
def nested : Workspace :=
  ⟨{ nodes := [(["p"], .directory), (["p", "src"], .directory),
    (["p", "src", "a.cpp"], .file (Text.toBytes "int a;\n"))] }, {}, [], []⟩

/-- Both ways lead to the file as the second step leaves it. -/
theorem respelled_together_and_in_turn : (∃ report, (respelled.apply "both" nested).1 = .ok report) ∧
    ∃ w', respelled.applyInTurn nested ["first", "second"] = some w' ∧
      (∀ q, (respelled.apply "both" nested).2.2.disk.node? q = w'.disk.node? q) ∧
      w'.disk.node? ["p", "src", "a.cpp"] = some (.file (Text.toBytes "int c;\n")) := by
  have hw : nested.disk.Writable "/p" respelledSteps := by
    refine ⟨fun _ => rfl, fun _ => rfl, fun s hs _ => ?_⟩
    have hparent : ∀ s ∈ respelledSteps, (Path.join "/p" ⟨s.file⟩).parent?.getD "/p" = "/p/src" := by
      decide +kernel
    rw [hparent s hs]
    unfold Disk.RoomBeside Disk.Spelled
    decide +kernel
  have hpatch {text : Text} {steps : List EditStep} (hk : PatchKind.ofText text = .editInstructions)
      (hparse : EditStep.parse text = steps) : (Patch.ofText text [] true).Proposes steps :=
    hparse ▸ Patch.proposes_ofText hk true
  have hone : List.Forall₂ (fun id s => ∃ p, respelled.get? id = some p ∧ p.Proposes [s])
      ["first", "second"] respelledSteps :=
    .cons ⟨_, rfl, hpatch (by decide +kernel) (by decide +kernel)⟩
      (.cons ⟨_, rfl, hpatch (by decide +kernel) (by decide +kernel)⟩ .nil)
  obtain ⟨p, hp, hsteps⟩ : ∃ p, respelled.get? "both" = some p ∧ p.Proposes respelledSteps :=
    ⟨_, rfl, hpatch (by decide +kernel) (by decide +kernel)⟩
  have hboth := apply_iff_in_turn hp hsteps (List.cons_ne_nil _ _) (by decide) hone
    (fun _ _ => Or.inl (List.cons_ne_nil _ _)) hw
  have happlied : ∃ report, (respelled.apply "both" nested).1 = .ok report :=
    ⟨⟨"both", .editInstructions, ["src/a.cpp", "src//a.cpp"], .skipped⟩, by decide +kernel⟩
  have hafter : (respelled.apply "both" nested).2.2.disk.node? ["p", "src", "a.cpp"] =
      some (.file (Text.toBytes "int c;\n")) := by
    decide +kernel
  obtain ⟨w', hw'⟩ := hboth.1.mp happlied
  obtain ⟨report, hreport⟩ := happlied
  have hsame := hboth.2 report w' hreport hw'
  exact ⟨⟨report, hreport⟩, w', hw', hsame, hsame _ ▸ hafter⟩

end PatchManager

end BuildMender
