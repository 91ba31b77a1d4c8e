import BuildMender.Proofs.Patch.Apply
import BuildMender.Proofs.Patch.StepNames

/-!
# The files that a patch accounts for

A patch of edit steps names files twice: in its targets and in its steps. The targets are what is
validated, reported and put under version control; the steps are what is carried out. The two need not
agree, since the targets may be given, and then nothing compares them with the steps.

So what has to be known is exactly when each changed file is one of the targets. It is when the file of
each step is, up to spelling, or when the steps for that file leave it as it was
(`BuildMender.PatchManager.changes_listed_iff`). Targets that are derived from the steps have it so;
given targets need not (`BuildMender.PatchManager.elsewhere_changes_unlisted`).
-/

namespace BuildMender

open EditStep (applyAll)
open Patch (stepsFor)

variable {d : Disk} {root : Path} {steps : List EditStep} {ds : Drafts} {q : Place}

/-! ### Files and their places -/

/-- The name of a file leads to a place. -/
def FileAt (d : Disk) (root : Path) (file : Text) (q : Place) : Prop :=
  d.follow [] (root.join ⟨file⟩).components = .ok q

/-- A place is that of one of some files. -/
def Listed (d : Disk) (root : Path) (files : List Text) (q : Place) : Prop :=
  ∃ f ∈ files, FileAt d root f q

/-- The steps for the file of a step, one after another, make of its content what it was. -/
def EditStep.Restored (d : Disk) (root : Path) (steps : List EditStep) (s : EditStep) : Prop :=
  ∃ q t, FileAt d root s.file q ∧ d.node? q = some (.file (Text.toBytes t)) ∧
    applyAll (stepsFor root (root.join ⟨s.file⟩) steps) t = some t

/-- **A step whose file is known by its place.** Two names for one file could differ by a dot in front if
the root were empty; steps that are read from a text have no such dot. -/
def EditStep.Plain (root : Path) (s : EditStep) : Prop := root.text ≠ [] ∨ ∃ text, s ∈ EditStep.parse text

/-- Two steps for one place name one path. -/
theorem components_eq_of_fileAt {s s' : EditStep} (hs : s.Plain root) (hs' : s'.Plain root)
    (hesc : Path.escapes ⟨s.file⟩ = false) (hesc' : Path.escapes ⟨s'.file⟩ = false)
    (hfile : d.hasFile (root.join ⟨s.file⟩)) (hfile' : d.hasFile (root.join ⟨s'.file⟩))
    (hf : FileAt d root s.file q) (hf' : FileAt d root s'.file q) :
    (root.join ⟨s.file⟩).components = (root.join ⟨s'.file⟩).components := by
  have hlead {s : EditStep} (hs : s.Plain root) (hesc : Path.escapes ⟨s.file⟩ = false)
      (hfile : d.hasFile (root.join ⟨s.file⟩)) : root.text ≠ [] ∨ Path.lead ⟨s.file⟩ = .bare := by
    refine hs.imp_right fun ⟨text, hmem⟩ => ?_
    exact EditStep.lead_of_mem_parse hmem hesc (Disk.body_ne_nil_of_hasFile hesc hfile)
  exact Disk.components_eq_of_follow (hlead hs hesc hfile) (hlead hs' hesc' hfile') hesc hesc' hf hf'

theorem stepsFor_congr {p p' : Path} (h : p.components = p'.components) (steps : List EditStep) :
    stepsFor root p steps = stepsFor root p' steps := by
  simp only [stepsFor, Path.same, h]

namespace Drafts

/-- The draft of a step's file. -/
theorem Resolved.exists_draft (h : Resolved d root steps ds) {s : EditStep} (hs : s ∈ steps) :
    ∃ e ∈ ds, e.1.components = (root.join ⟨s.file⟩).components := by
  obtain ⟨e, he, hc⟩ := List.mem_map.mp (h.covered s hs).2
  exact ⟨e, he, hc⟩

/-- Each draft is for a file that is there, and is what the steps for it make of its content. -/
theorem Resolved.exists_content (h : Resolved d root steps ds) {e : Path × Text} (he : e ∈ ds) :
    ∃ q b t, d.follow [] e.1.components = .ok q ∧ d.node? q = some (.file b) ∧
      Text.ofBytes? b = some t ∧ applyAll (stepsFor root e.1 steps) t = some e.2 := by
  obtain ⟨t, hread, hall⟩ := h.content e he
  obtain ⟨q, b, hfind, -, hb⟩ := Disk.readText_eq_ok.mp hread
  obtain ⟨-, -, hf, hn⟩ := Disk.find_file_eq_ok.mp hfind
  exact ⟨q, b, t, hf, hn, hb, hall⟩

/-- **Which files change**: if no two drafts are for one place, every changed place satisfies `P` exactly
if the file of each step does, or is given its content back. -/
theorem Resolved.changed_iff (h : Resolved d root steps ds)
    (hone : ∀ e ∈ ds, ∀ e' ∈ ds, ∀ q, d.follow [] e.1.components = .ok q →
      d.follow [] e'.1.components = .ok q → e' = e) (P : Place → Prop) :
    (∀ q, (written d ds).node? q ≠ d.node? q → P q) ↔
      ∀ s ∈ steps, (∃ q, FileAt d root s.file q ∧ P q) ∨ s.Restored d root steps := by
  constructor
  · intro hP s hs
    obtain ⟨e, he, hc⟩ := h.exists_draft hs
    obtain ⟨q, b, t, hf, hn, hb, hall⟩ := h.exists_content he
    have hafter := node?_written_of_mem h.hasFile he hf fun e' he' hf' => hone e he e' he' q hf hf'
    have hat : FileAt d root s.file q := by rwa [FileAt, ← hc]
    by_cases hsame : (written d ds).node? q = d.node? q
    · -- the content is the old one, so the text is
      obtain rfl : Text.toBytes e.2 = b := by
        rw [hafter, hn] at hsame
        exact Node.file.inj (Option.some.inj hsame)
      obtain rfl : e.2 = t := Option.some.inj ((Text.ofBytes?_toBytes e.2).symm.trans hb)
      exact Or.inr ⟨q, e.2, hat, hn, by rw [← stepsFor_congr hc, hall]⟩
    · exact Or.inl ⟨q, hat, hP q hsame⟩
  · intro hsteps q hq
    -- a changed place is that of a draft, and the draft is for the file of a step
    obtain ⟨e, he, hf⟩ : ∃ e ∈ ds, d.follow [] e.1.components = .ok q := by
      by_contra hc
      exact hq (node?_written_of_ne h.hasFile fun e he hf => hc ⟨e, he, hf⟩)
    obtain ⟨s, hs, hname⟩ := h.named e he
    have hat : FileAt d root s.file q := by rwa [FileAt, ← hname]
    rcases hsteps s hs with ⟨q', hat', hP⟩ | ⟨q', t', hat', hn', hall'⟩
    · obtain rfl := Except.ok.inj (hat.symm.trans hat')
      exact hP
    · -- the steps restore the file, so it has not changed
      obtain rfl := Except.ok.inj (hat.symm.trans hat')
      obtain ⟨q', b, t, hf', hn, hb, hall⟩ := h.exists_content he
      obtain rfl := Except.ok.inj (hf.symm.trans hf')
      obtain rfl : b = Text.toBytes t' := Node.file.inj (Option.some.inj (hn.symm.trans hn'))
      obtain rfl : t' = t := Option.some.inj ((Text.ofBytes?_toBytes t').symm.trans hb)
      rw [← hname, hall] at hall'
      have hafter := node?_written_of_mem h.hasFile he hf fun e' he' hf' => hone e he e' he' q hf hf'
      rw [hafter, hn, Option.some.inj hall'] at hq
      exact absurd rfl hq

/-- Steps whose files are known by their places have one draft for each place. -/
theorem Resolved.eq_of_plain (h : Resolved d root steps ds) (hplain : ∀ s ∈ steps, s.Plain root)
    {e e' : Path × Text} (he : e ∈ ds) (he' : e' ∈ ds) (hf : d.follow [] e.1.components = .ok q)
    (hf' : d.follow [] e'.1.components = .ok q) : e' = e := by
  obtain ⟨s, hs, hname⟩ := h.named e he
  obtain ⟨s', hs', hname'⟩ := h.named e' he'
  have hfile := h.hasFile e he
  have hfile' := h.hasFile e' he'
  rw [hname] at hf hfile
  rw [hname'] at hf' hfile'
  refine h.eq_of_components he' he ?_
  rw [hname, hname']
  exact components_eq_of_fileAt (hplain s' hs') (hplain s hs) (h.covered s' hs').1
    (h.covered s hs).1 hfile' hfile hf' hf

/-- Steps that were read from a text have one draft for each place. -/
theorem Resolved.eq_of_place {text : Text} (h : Resolved d root (EditStep.parse text) ds)
    {e e' : Path × Text} (he : e ∈ ds) (he' : e' ∈ ds) (hf : d.follow [] e.1.components = .ok q)
    (hf' : d.follow [] e'.1.components = .ok q) : e' = e :=
  h.eq_of_plain (fun _ hs => Or.inr ⟨text, hs⟩) he he' hf hf'

end Drafts

/-! ### Targets that come from the steps -/

theorem mem_foldl_insertNew {names found : List Text} {name : Text} :
    name ∈ names.foldl Diff.insertNew found ↔ name ∈ found ∨ name ∈ names := by
  induction names generalizing found with
  | nil => simp
  | cons n names ih =>
    have hinsert : name ∈ Diff.insertNew found n ↔ name ∈ found ∨ name = n := by
      rw [Diff.insertNew]
      split
      · rename_i hmem
        have : n ∈ found := by simpa using hmem
        exact ⟨Or.inl, fun h => h.elim (fun h => h) fun h => h ▸ this⟩
      · simp
    rw [List.foldl_cons, ih, hinsert, List.mem_cons, or_assoc]

/-- The files that steps name are those of the steps. -/
theorem mem_files {s : EditStep} (h : s ∈ steps) :
    s.file ∈ (PatchContent.editInstructions steps).files :=
  mem_foldl_insertNew.mpr (Or.inr (List.mem_map_of_mem h))

namespace PatchManager

variable {m : PatchManager} {id : PatchId} {w : Workspace} {text : Text} {targets : List Text}
  {compliant : Bool} {report : ApplyReport}

/-- **Which changes are listed.** If a patch of edit steps is applied, its report lists its targets, which
are the files that were validated and those that version control is asked to add. Every file that has
changed is one of them exactly if, for each step, the file of the step is, or the steps for that file
give it its content back. It is so if no targets were given. -/
theorem changes_listed_iff (hp : m.get? id = some (Patch.ofText text targets compliant))
    (hk : PatchKind.ofText text = .editInstructions) (h : (m.apply id w).1 = .ok report) :
    report.files = (Patch.ofText text targets compliant).targets ∧
    (∀ f ∈ report.files, Path.escapes ⟨f⟩ = false ∧ w.disk.hasFile (m.root.join ⟨f⟩)) ∧
    (m.policy.allows compliant → ∃ more, (m.apply id w).2.2.runner.calls = w.runner.calls ++
      ⟨⟨program, "add".toList :: "--".toList :: report.files⟩, m.root, none⟩ :: more) ∧
    ((∀ q, (m.apply id w).2.2.disk.node? q ≠ w.disk.node? q → Listed w.disk m.root report.files q) ↔
      ∀ s ∈ EditStep.parse text,
        (∃ q, FileAt w.disk m.root s.file q ∧ Listed w.disk m.root report.files q) ∨
          s.Restored w.disk m.root (EditStep.parse text)) ∧
    (targets = [] →
      ∀ q, (m.apply id w).2.2.disk.node? q ≠ w.disk.node? q → Listed w.disk m.root report.files q) := by
  have hcontent : (Patch.ofText text targets compliant).content =
      .editInstructions (EditStep.parse text) := by
    rw [Patch.ofText, PatchContent.ofText, hk]
  have hends := applied m id w
  generalize m.apply id w = r at hends h ⊢
  cases hends with
  | refused reached invalid disk runner => cases h
  | failed reached admits disk runner => cases h
  | @carried p outcome w' reached admits disk calls =>
    obtain rfl := Option.some.inj (hp.symm.trans admits.get?_eq)
    obtain rfl := Except.ok.inj h
    have hkind : (Patch.ofText text targets compliant).content.kind = .editInstructions := by
      rw [hcontent]
      rfl
    rw [hcontent] at disk
    obtain ⟨ds, hds, hdisk⟩ := disk
    have hiff := hds.changed_iff (fun e he e' he' q hf hf' => hds.eq_of_place he he' hf hf')
      (Listed w.disk m.root (Patch.ofText text targets compliant).targets)
    rw [← hdisk] at hiff
    refine ⟨rfl, admits.targets, fun hallowed => ?_, hiff, fun hnone => hiff.mpr fun s hs => Or.inl ?_⟩
    · obtain ⟨more, hcalls⟩ := calls hkind
      have hasked : m.policy.allows (Patch.ofText text targets compliant).autoCommit := hallowed
      rw [if_pos hasked] at hcalls
      exact ⟨more, hcalls⟩
    · obtain ⟨e, he, hc⟩ := hds.exists_draft hs
      obtain ⟨q, b, t, hf, -, -, -⟩ := hds.exists_content he
      have hat : FileAt w.disk m.root s.file q := by rwa [FileAt, ← hc]
      have hfiles : (Patch.ofText text targets compliant).targets =
          (PatchContent.editInstructions (EditStep.parse text)).files := by
        rw [← hcontent, Patch.ofText, hnone]
        rfl
      exact ⟨q, hat, s.file, hfiles ▸ mem_files hs, hat⟩

/-- A patch for one file whose targets are left to be derived. -/
def derived : PatchManager := holding (block "b.cpp" "int b;" "int c;") []

/-- Its report lists all that it changes. -/
theorem derived_changes_listed : (derived.apply "1" ⟨smallProject, {}, [], []⟩).1 =
      .ok ⟨"1", .editInstructions, ["b.cpp"], .committed (commitMessage {} ["b.cpp"] true)⟩ ∧
    ∀ q, (derived.apply "1" ⟨smallProject, {}, [], []⟩).2.2.disk.node? q ≠ smallProject.node? q →
      Listed smallProject "/p" ["b.cpp"] q := by
  have hget : derived.get? "1" = some (Patch.ofText (block "b.cpp" "int b;" "int c;") [] true) := by
    decide +kernel
  have happlied : (derived.apply "1" ⟨smallProject, {}, [], []⟩).1 =
      .ok ⟨"1", .editInstructions, ["b.cpp"], .committed (commitMessage {} ["b.cpp"] true)⟩ := by
    decide +kernel
  have hall := changes_listed_iff hget (by decide +kernel) happlied
  exact ⟨happlied, hall.2.2.2.2 rfl⟩

/-- The same patch given for another file. -/
def elsewhere : PatchManager := holding (block "b.cpp" "int b;" "int c;") ["a.cpp"]

/-- **Given targets need not list what is changed**: the patch is applied, a file is changed, and the
report lists another one. -/
theorem elsewhere_changes_unlisted : (elsewhere.apply "1" ⟨smallProject, {}, [], []⟩).1 =
      .ok ⟨"1", .editInstructions, ["a.cpp"], .committed (commitMessage {} ["a.cpp"] true)⟩ ∧
    (elsewhere.apply "1" ⟨smallProject, {}, [], []⟩).2.2.disk.node? ["p", "b.cpp"] ≠
      smallProject.node? ["p", "b.cpp"] ∧
    ¬Listed smallProject "/p" ["a.cpp"] ["p", "b.cpp"] := by
  refine ⟨by decide +kernel, by decide +kernel, ?_⟩
  rintro ⟨f, hf, hat⟩
  obtain rfl := List.mem_singleton.mp hf
  have : smallProject.follow [] (Path.join "/p" ⟨"a.cpp"⟩).components ≠ .ok ["p", "b.cpp"] := by
    decide +kernel
  exact this hat

end PatchManager

end BuildMender
