import BuildMender.Proofs.Patch.Apply
import BuildMender.Proofs.Patch.Staging

/-!
# Applying a patch of edit steps

Writing drafts leaves the places of a disk, its directories and what it refuses
(`BuildMender.Disk.Rewritten`), so that every path leads where it led. A file is read as its draft then,
and a file without a draft as it was. A file is found by the components of its path, so it does not matter
under which spelling the draft was noted and under which it is read.

Both need that no two drafts are for one place, which is a matter of the paths (two paths can lead to one
place over `..`); it is assumed here, and drafts of a patch that was read from a text have it
(`BuildMender.Drafts.Resolved.eq_of_place`).

A patch of edit steps is applied exactly if validation lets it through, its steps can be worked out, and
what they come to can be written (`BuildMender.PatchManager.apply_ok_iff_of_steps`). The three are
settled on the disk as it is when the request comes, and none of them depends on version control.
-/

namespace BuildMender

namespace Disk

variable {d d' d'' : Disk} {p : Path} {q : Place} {t : Text}

@[simp] theorem refuses_replace (d : Disk) (p : Path) (t : Text) :
    (d.replace p t).refuses = d.refuses := by
  rw [replace]
  split
  · exact refuses_put
  · rfl

/-- A text is read where the components of its path lead. -/
theorem readText_eq_ok_iff : d.readText p = .ok t ↔
    Spelled p ∧ asksDirectory p = false ∧ ∃ q b, d.follow [] p.components = .ok q ∧
      d.node? q = some (.file b) ∧ d.refuses (.read q) = none ∧ Text.ofBytes? b = some t := by
  rw [readText_eq_ok]
  constructor
  · rintro ⟨q, b, hfind, hrefuses, hb⟩
    obtain ⟨hs, ha, hf, hn⟩ := find_file_eq_ok.mp hfind
    exact ⟨hs, ha, q, b, hf, hn, hrefuses, hb⟩
  · rintro ⟨hs, ha, q, b, hf, hn, hrefuses, hb⟩
    exact ⟨q, b, find_file_eq_ok.mpr ⟨hs, ha, hf, hn⟩, hrefuses, hb⟩

/-- A text written to a file that is there is written over it. -/
theorem writeText_of_find {b : ByteArray} (h : d.find [] p = .ok (q, .file b)) (t : Text) :
    d.writeText p t = d.overwrite q (Text.toBytes t) := by
  obtain ⟨hl, hn⟩ := find_eq_ok.mp h
  rw [writeText, writeBytes, hl]
  dsimp only
  rw [hn]

theorem SameDirectories.follow_iff {q : Place} (h : SameDirectories d d') {cs : List Path.Component} :
    d'.follow [] cs = .ok q ↔ d.follow [] cs = .ok q :=
  ⟨h.symm.follow, h.follow⟩

/-- **A disk with other contents**: the same places, directories and refusals. -/
structure Rewritten (d d' : Disk) : Prop where
  places : d'.nodes.map Prod.fst = d.nodes.map Prod.fst
  directories : SameDirectories d d'
  refuses : d'.refuses = d.refuses

theorem Rewritten.refl (d : Disk) : Rewritten d d := ⟨rfl, fun _ => Iff.rfl, rfl⟩

theorem Rewritten.symm (h : Rewritten d d') : Rewritten d' d :=
  ⟨h.places.symm, h.directories.symm, h.refuses.symm⟩

theorem Rewritten.trans (h : Rewritten d d') (h' : Rewritten d' d'') : Rewritten d d'' :=
  ⟨h'.places.trans h.places, fun q => (h.directories q).trans (h'.directories q),
    h'.refuses.trans h.refuses⟩

/-- A file that is there given another content. -/
theorem rewritten_put {b : ByteArray} (h : d.node? q = some (.file b)) (b' : ByteArray) :
    Rewritten d (d.put q (.file b')) :=
  ⟨map_fst_put (mem_places_of_file h), sameDirectories_put h b', refuses_put⟩

theorem rewritten_replace (d : Disk) (p : Path) (t : Text) : Rewritten d (d.replace p t) :=
  ⟨map_fst_replace d p t, sameDirectories_replace d p t, refuses_replace d p t⟩

/-- Why a file cannot be written over, if it cannot: it is not opened for that, or is then not given its
content. -/
def overwriteError? (d : Disk) (q : Place) : Option FileError :=
  (d.refuses (.overwrite q)).or (d.refuses (.fill q))

theorem Rewritten.overwriteError?_eq (h : Rewritten d d') (q : Place) :
    d'.overwriteError? q = d.overwriteError? q := by
  rw [overwriteError?, overwriteError?, h.refuses]

/-- **A file written over** has the new content. -/
theorem overwrite_of_none (h : d.overwriteError? q = none) (b : ByteArray) :
    d.overwrite q b = (.ok (), d.put q (.file b)) := by
  obtain ⟨hopened, hfilled⟩ := Option.or_eq_none_iff.mp h
  simp only [overwrite, hopened, hfilled]

/-- **A write that is refused** changes no other file, and no directory. -/
theorem exists_overwrite_of_some {b : ByteArray} {e : FileError} (hn : d.node? q = some (.file b))
    (h : d.overwriteError? q = some e) (new : ByteArray) :
    ∃ d', d.overwrite q new = (.error e, d') ∧ Rewritten d d' ∧ ∀ r, r ≠ q → d'.node? r = d.node? r := by
  rw [overwriteError?] at h
  cases hopened : d.refuses (.overwrite q) with
  | some e' =>
    rw [hopened, Option.some_or] at h
    cases h
    exact ⟨d, by simp only [overwrite, hopened], .refl d, fun _ _ => rfl⟩
  | none =>
    -- the file was emptied and has the beginning of its new content
    rw [hopened, Option.none_or] at h
    refine ⟨d.put q (.file (new.extract 0 (d.begun q))), by simp only [overwrite, hopened, h],
      rewritten_put hn _, fun r hr => ?_⟩
    rw [node?_put (ne_nil_of_file hn), if_neg hr]

theorem Rewritten.length_eq (h : Rewritten d d') : d'.nodes.length = d.nodes.length := by
  have := congrArg List.length h.places
  rwa [List.length_map, List.length_map] at this

/-- Something stands where something stood. -/
theorem Rewritten.isSome_node?_iff (h : Rewritten d d') : (d'.node? q).isSome ↔ (d.node? q).isSome := by
  by_cases hq : q = []
  · simp [hq]
  · rw [node?_isSome_iff hq, node?_isSome_iff hq, h.places]

/-- Files are where they were. -/
theorem Rewritten.exists_file_iff (h : Rewritten d d') :
    (∃ b, d'.node? q = some (.file b)) ↔ ∃ b, d.node? q = some (.file b) := by
  -- something stands there and is no directory
  have hfile (d : Disk) : (∃ b, d.node? q = some (.file b)) ↔
      (d.node? q).isSome ∧ d.node? q ≠ some .directory := by
    rcases d.node? q with _ | b | _ <;> simp
  rw [hfile, hfile, h.isSome_node?_iff, Ne, Ne, h.directories q]

/-- A directory is found where it was found. -/
theorem Rewritten.find_directory (h : Rewritten d d') {at_ : Place}
    (hf : d.find at_ p = .ok (q, .directory)) : d'.find at_ p = .ok (q, .directory) := by
  obtain ⟨hl, hn⟩ := find_eq_ok.mp hf
  obtain ⟨hs, hf, -⟩ := locate_eq_ok.mp hl
  have hn' := (h.directories q).mp hn
  exact find_eq_ok.mpr ⟨locate_eq_ok.mpr ⟨hs, h.directories.follow hf, fun _ b hb =>
    absurd (hn'.symm.trans hb) (by simp)⟩, hn'⟩

/-- Something is found at the paths at which something was found. -/
theorem Rewritten.has_eq (h : Rewritten d d') (p : Path) : d'.has p = d.has p := by
  have hhas (d : Disk) : d.has p ↔ Spelled p ∧ ∃ q, d.follow [] p.components = .ok q ∧
      (asksDirectory p → ¬∃ b, d.node? q = some (.file b)) ∧ (d.node? q).isSome := by
    rw [has]
    constructor
    · intro hfound
      cases hf : d.find [] p with
      | error e => simp [hf] at hfound
      | ok found =>
        obtain ⟨hl, hn⟩ := find_eq_ok.mp (hf : d.find [] p = .ok (found.1, found.2))
        obtain ⟨hs, hf, ha⟩ := locate_eq_ok.mp hl
        exact ⟨hs, found.1, hf, fun hd ⟨b, hb⟩ => ha hd b hb, by rw [hn]; rfl⟩
    · rintro ⟨hs, q, hf, ha, hn⟩
      obtain ⟨n, hn⟩ := Option.isSome_iff_exists.mp hn
      rw [find_eq_ok.mpr ⟨locate_eq_ok.mpr ⟨hs, hf, fun hd b hb => ha hd ⟨b, hb⟩⟩, hn⟩]
  rw [Bool.eq_iff_iff, hhas, hhas]
  simp only [h.directories.follow_iff, h.exists_file_iff, h.isSome_node?_iff]

theorem Rewritten.hasFile_iff (h : Rewritten d d') : d'.hasFile p ↔ d.hasFile p := by
  have hfile (d : Disk) : d.hasFile p ↔ Spelled p ∧ asksDirectory p = false ∧
      ∃ q, d.follow [] p.components = .ok q ∧ ∃ b, d.node? q = some (.file b) := by
    simp only [Disk.hasFile_iff, find_file_eq_ok, exists_and_left]
  rw [hfile, hfile]
  simp only [h.directories.follow_iff, h.exists_file_iff]

/-- **A file is read alike** if it has not been given another content. -/
theorem Rewritten.readText_iff (h : Rewritten d d')
    (hnode : ∀ q, d.follow [] p.components = .ok q → d'.node? q = d.node? q) :
    d'.readText p = .ok t ↔ d.readText p = .ok t := by
  rw [readText_eq_ok_iff, readText_eq_ok_iff, h.refuses]
  refine and_congr_right fun _ => and_congr_right fun _ => exists_congr fun q => exists_congr fun b => ?_
  rw [h.directories.follow_iff]
  refine and_congr_right fun hf => ?_
  rw [hnode q hf]

end Disk

namespace Drafts

open Disk (Rewritten readText_eq_ok_iff)

variable {d : Disk} {root p : Path} {ds : Drafts} {e : Path × Text} {done : List EditStep} {t : Text}

theorem rewritten_written (d : Disk) (ds : Drafts) : Rewritten d (written d ds) := by
  induction ds generalizing d with
  | nil => exact .refl d
  | cons e ds ih => exact (Disk.rewritten_replace d e.1 e.2).trans (ih _)

/-- **A file with a draft** is read as its draft, under every spelling under which it is there. -/
theorem Resolved.readText_of_mem (h : Resolved d root done ds) (he : e ∈ ds)
    (hone : ∀ e' ∈ ds, ∀ q, d.follow [] e.1.components = .ok q → d.follow [] e'.1.components = .ok q →
      e' = e)
    (hc : p.components = e.1.components) :
    (written d ds).readText p = .ok t ↔ d.hasFile p ∧ t = e.2 := by
  obtain ⟨old, hread, -⟩ := h.content e he
  obtain ⟨-, -, q, b, hf, hn, hrefuses, -⟩ := readText_eq_ok_iff.mp hread
  have hafter := node?_written_of_mem h.hasFile he hf fun e' he' hf' => hone e' he' q hf hf'
  have hsame := (rewritten_written d ds).directories
  rw [readText_eq_ok_iff, Disk.hasFile_iff, (rewritten_written d ds).refuses]
  constructor
  · rintro ⟨hs, ha, q', b', hf', hn', -, hb'⟩
    rw [hsame.follow_iff, hc, hf] at hf'
    cases hf'
    rw [hafter] at hn'
    cases hn'
    refine ⟨⟨q, b, Disk.find_file_eq_ok.mpr ⟨hs, ha, hc ▸ hf, hn⟩⟩, ?_⟩
    exact Option.some.inj (hb'.symm.trans (Text.ofBytes?_toBytes e.2))
  · rintro ⟨⟨q', b', hfind⟩, rfl⟩
    obtain ⟨hs, ha, hf', -⟩ := Disk.find_file_eq_ok.mp hfind
    rw [hc, hf] at hf'
    cases hf'
    exact ⟨hs, ha, q, _, by rw [hsame.follow_iff, hc, hf], hafter, hrefuses, Text.ofBytes?_toBytes e.2⟩

/-- **A file that has no draft** is read as it was. -/
theorem readText_written_of_ne (hfiles : ∀ e ∈ ds, d.hasFile e.1)
    (hne : ∀ e ∈ ds, ∀ q, d.follow [] p.components = .ok q → d.follow [] e.1.components ≠ .ok q) :
    (written d ds).readText p = .ok t ↔ d.readText p = .ok t :=
  (rewritten_written d ds).readText_iff fun q hf => node?_written_of_ne hfiles fun e he => hne e he q hf

end Drafts

namespace PatchManager

open Drafts (ofSteps write written)

variable {m : PatchManager} {id : PatchId} {p : Patch} {w : Workspace} {root : Path} {d d' : Disk}
  {steps : List EditStep} {ds : Drafts}

/-- **Edit steps carried out**: worked out, and then written. -/
theorem applySteps_eq_ok : (applySteps root steps).run d = (.ok (), d') ↔
    ∃ ds, (ofSteps root steps).run d = (.ok ds, d) ∧ (write root ds).run d = (.ok (), d') := by
  rw [applySteps, FileTask.run_bind_eq_ok]
  constructor
  · rintro ⟨ds, d₁, hsteps, hwrite⟩
    obtain ⟨rfl, -⟩ := Drafts.resolved_ofSteps hsteps
    exact ⟨ds, hsteps, hwrite⟩
  · rintro ⟨ds, hsteps, hwrite⟩
    exact ⟨ds, d, hsteps, hwrite⟩

/-- What was worked out leaves the disk with the drafts written, if it can be written. -/
theorem eq_written_of_write (hsteps : (ofSteps root steps).run d = (.ok ds, d))
    (hwrite : (write root ds).run d = (.ok (), d')) : d' = written d ds := by
  obtain ⟨-, hds⟩ := Drafts.resolved_ofSteps hsteps
  rcases Drafts.run_write root hds.hasFile with ⟨e, h⟩ | h
  · rw [hwrite] at h
    cases h
  · rw [hwrite] at h
    exact congrArg Prod.snd h

/-- The outcome and the disk of a request to apply a patch of edit steps that validation lets through. -/
theorem apply_of_admits_of_steps (h : m.Admits w.disk id p) (hc : p.content = .editInstructions steps) :
    ((∃ report, (m.apply id w).1 = .ok report) ↔
      ((applySteps m.root steps).run w.disk).1 = .ok ()) ∧
    (m.apply id w).2.2.disk = ((applySteps m.root steps).run w.disk).2 := by
  obtain ⟨w₁, -, hdisk, -, happly⟩ := apply_of_admits h
  rw [happly, hc, carryOut, Workspace.perform, hdisk]
  cases hrun : ((applySteps m.root steps).run w.disk).1 with
  | error e =>
    refine ⟨?_, rfl⟩
    simp
  | ok u =>
    refine ⟨?_, ?_⟩
    · simp
    · dsimp only
      split
      · exact (commit_spec m p _).1.disk
      · rfl

/-- **When a patch of edit steps is applied.** -/
theorem apply_ok_iff_of_steps (hp : m.get? id = some p) (hc : p.content = .editInstructions steps) :
    (∃ report, (m.apply id w).1 = .ok report) ↔ m.Admits w.disk id p ∧ ∃ ds,
      (ofSteps m.root steps).run w.disk = (.ok ds, w.disk) ∧
        (write m.root ds).run w.disk = (.ok (), written w.disk ds) := by
  constructor
  · rintro ⟨report, hreport⟩
    have hadmits : m.Admits w.disk id p := by
      have hends := applied m id w
      generalize m.apply id w = r at hends hreport
      cases hends with
      | refused reached invalid disk runner => cases hreport
      | failed reached admits disk runner => cases hreport
      | carried reached admits disk calls =>
        obtain rfl := Option.some.inj (hp.symm.trans admits.get?_eq)
        exact admits
    have hrun := (apply_of_admits_of_steps hadmits hc).1.mp ⟨report, hreport⟩
    obtain ⟨ds, hsteps, hwrite⟩ := applySteps_eq_ok.mp (Prod.ext hrun rfl)
    have hdisk := eq_written_of_write hsteps hwrite
    exact ⟨hadmits, ds, hsteps, hdisk ▸ hwrite⟩
  · rintro ⟨hadmits, ds, hsteps, hwrite⟩
    have hrun := applySteps_eq_ok.mpr ⟨ds, hsteps, hwrite⟩
    exact (apply_of_admits_of_steps hadmits hc).1.mpr (congrArg Prod.fst hrun)

/-- **The disk after a patch of edit steps was applied** has the drafts of its steps written. -/
theorem disk_apply_of_steps (h : m.Admits w.disk id p) (hc : p.content = .editInstructions steps)
    (hsteps : (ofSteps m.root steps).run w.disk = (.ok ds, w.disk))
    (hwrite : (write m.root ds).run w.disk = (.ok (), written w.disk ds)) :
    (m.apply id w).2.2.disk = written w.disk ds := by
  have hrun := applySteps_eq_ok.mpr ⟨ds, hsteps, hwrite⟩
  rw [(apply_of_admits_of_steps h hc).2, hrun]

/-- **A patch of edit steps has version control called** only once it was applied, and only if it asks to be
committed and may be. -/
theorem applied_of_calls_ne (hp : m.get? id = some p) (hk : p.content.kind = .editInstructions)
    (h : (m.apply id w).2.2.runner.calls ≠ w.runner.calls) :
    (∃ report, (m.apply id w).1 = .ok report) ∧ m.policy.allows p.autoCommit := by
  have hends := applied m id w
  generalize m.apply id w = r at hends h ⊢
  cases hends with
  | refused reached invalid disk runner => exact absurd (by rw [runner]) h
  | failed reached admits disk runner =>
    obtain rfl := Option.some.inj (hp.symm.trans admits.get?_eq)
    exact absurd (by rw [runner hk]) h
  | carried reached admits disk calls =>
    obtain rfl := Option.some.inj (hp.symm.trans admits.get?_eq)
    obtain ⟨more, hcalls⟩ := calls hk
    refine ⟨⟨_, rfl⟩, ?_⟩
    by_contra hdenied
    rw [if_neg hdenied, List.append_nil] at hcalls
    exact h hcalls

end PatchManager

end BuildMender
