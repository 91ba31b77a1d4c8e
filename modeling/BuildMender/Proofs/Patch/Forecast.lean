import BuildMender.Proofs.Patch.Compliance
import BuildMender.Proofs.Patch.Writable

/-!
# What the checks foretell

Before a patch is applied it can be looked at twice: validation asks whether its targets are there, and the
check of conventions works its steps out in memory. Both are answered from the disk as it is, and applying
the patch is a third piece of work, which asks everything again.

On a disk that can be written the two answers foretell the third
(`BuildMender.PatchManager.apply_as_forecast`): the patch is applied exactly if both looks succeed, a patch
that is refused is refused with the error of the first look that failed, and the violations that the second
look listed are those of the files as the patch leaves them (`BuildMender.PatchManager.ViolationsOn`).

The one thing to know about the list is how its entries are named. Steps may spell one file in several
ways, and the drafts keep the spelling of the first step for it (`BuildMender.Patch.Opens`).
-/

namespace BuildMender

open Patch (stepsFor)

variable {d d' : Disk} {root : Path} {s s' step : EditStep} {done more steps : List EditStep}

/-! ### The first step for a file -/

namespace Patch

/-- **A step that opens its file**: it is the first of the steps for that file. -/
def Opens (root : Path) (steps : List EditStep) (s : EditStep) : Prop :=
  (stepsFor root (root.join ⟨s.file⟩) steps).head? = some s

theorem Opens.mem (h : Opens root steps s) : s ∈ steps :=
  List.mem_of_mem_filter (List.mem_of_mem_head? h)

theorem Opens.append (h : Opens root done s) (more : List EditStep) : Opens root (done ++ more) s := by
  rw [Opens, Drafts.stepsFor_append, List.head?_append, h]
  rfl

/-- One file is opened by one step. -/
theorem Opens.eq_of_components (h : Opens root steps s) (h' : Opens root steps s')
    (hc : (root.join ⟨s.file⟩).components = (root.join ⟨s'.file⟩).components) : s = s' := by
  rw [Opens, stepsFor_congr hc] at h
  exact Option.some.inj (h.symm.trans h')

end Patch

namespace Drafts

open Patch (Opens)

variable {ds ds' : Drafts}

/-- **Drafts that are spelled as their files were first named.** -/
def SpelledFirst (root : Path) (done : List EditStep) (ds : Drafts) : Prop :=
  ∀ e ∈ ds, ∃ s, Opens root done s ∧ e.1 = root.join ⟨s.file⟩

/-- A step keeps the spelling of the drafts that there are, and opens the file of a new one. -/
theorem SpelledFirst.addStep (hds : Resolved d root done ds) (h : SpelledFirst root done ds)
    (hs : (Drafts.addStep root ds step).run d = (.ok ds', d')) :
    SpelledFirst root (done ++ [step]) ds' := by
  obtain ⟨-, -, t, u, -, -, rfl⟩ := addStep_eq_ok.mp hs
  intro e he
  rcases exists_of_mem_put he with ⟨e', he', hpath⟩ | ⟨hmem, rfl⟩
  · obtain ⟨s, hs, hname⟩ := h e' he'
    exact ⟨s, hs.append [step], hpath ▸ hname⟩
  · refine ⟨step, ?_, rfl⟩
    rw [Opens, stepsFor_append_self rfl, hds.stepsFor_eq_nil hmem]
    rfl

theorem SpelledFirst.addSteps (hds : Resolved d root done ds) (h : SpelledFirst root done ds)
    (hs : (Drafts.addSteps root ds steps).run d = (.ok ds', d')) :
    SpelledFirst root (done ++ steps) ds' := by
  induction steps generalizing done ds with
  | nil =>
    cases hs
    rwa [List.append_nil]
  | cons step more ih =>
    obtain ⟨ds₁, d₁, hstep, hmore⟩ := FileTask.run_bind_eq_ok.mp hs
    obtain ⟨rfl, hds₁⟩ := hds.addStep hstep
    have := ih hds₁ (h.addStep hds hstep) hmore
    rwa [List.append_assoc] at this

theorem spelledFirst_ofSteps (h : (ofSteps root steps).run d = (.ok ds, d')) :
    SpelledFirst root steps ds := by
  obtain ⟨ds₁, d₁, hsteps, hsorted⟩ := FileTask.run_bind_eq_ok.mp h
  have h₁ := SpelledFirst.addSteps (resolved_nil d root) (List.forall_mem_nil _) hsteps
  cases hsorted
  exact fun e he => h₁ e ((sorted_perm ds₁).subset he)

/-- **The drafts of the files of steps**: the path of a draft is that of a step which opens its file, and
each such step has one. -/
theorem Resolved.exists_draft_iff (h : Resolved d root steps ds) (hfirst : SpelledFirst root steps ds)
    {p : Path} : (∃ content, (p, content) ∈ ds) ↔ ∃ s, Opens root steps s ∧ p = root.join ⟨s.file⟩ := by
  constructor
  · rintro ⟨content, he⟩
    exact hfirst _ he
  · rintro ⟨s, hs, rfl⟩
    obtain ⟨e, he, hc⟩ := h.exists_draft hs.mem
    obtain ⟨s', hs', hname⟩ := hfirst e he
    obtain rfl := hs.eq_of_components hs' (hname ▸ hc.symm)
    exact ⟨e.2, hname ▸ he⟩

end Drafts

namespace PatchManager

open Drafts (ofSteps write written Resolved)
open Patch (Opens relativeName)

variable {m : PatchManager} {id : PatchId} {p : Patch} {w : Workspace} {text : Text} {e : PatchError}
  {conventions : Convention.Settings} {report : ApplyReport}

/-! ### The list of violations -/

section Table

variable {α : Type} {name : Text} {a : α} {entry : Text × α} {table : List (Text × α)}

/-- **A table in the order of names**, which has each name once. -/
def InOrder (table : List (Text × α)) : Prop :=
  table.Pairwise fun e e' => Path.compareText e.1 e'.1 = .lt

theorem mem_of_mem_insertByName (h : entry ∈ insertByName name a table) :
    entry = (name, a) ∨ entry ∈ table := by
  induction table with
  | nil => exact Or.inl (List.mem_singleton.mp h)
  | cons head more ih =>
    obtain ⟨n, b⟩ := head
    rw [insertByName] at h
    split at h
    · exact List.mem_cons.mp h
    · rename_i heq
      rw [Path.eq_of_compareText heq]
      exact (List.mem_cons.mp h).imp_right (List.mem_cons_of_mem _)
    · rcases List.mem_cons.mp h with rfl | h
      · exact Or.inr List.mem_cons_self
      · exact (ih h).imp_right (List.mem_cons_of_mem _)

/-- An entry put in leaves the table in order. -/
theorem InOrder.insertByName (h : InOrder table) : InOrder (insertByName name a table) := by
  induction table with
  | nil => exact List.pairwise_singleton _ _
  | cons head more ih =>
    obtain ⟨n, b⟩ := head
    obtain ⟨hhead, hmore⟩ := List.pairwise_cons.mp h
    rw [PatchManager.insertByName]
    split
    · rename_i hlt
      refine List.pairwise_cons.mpr ⟨fun e he => ?_, h⟩
      rcases List.mem_cons.mp he with rfl | he
      · exact hlt
      · exact Std.TransCmp.lt_trans hlt (hhead e he)
    · exact List.pairwise_cons.mpr ⟨hhead, hmore⟩
    · rename_i hgt
      refine List.pairwise_cons.mpr ⟨fun e he => ?_, ih hmore⟩
      rcases mem_of_mem_insertByName he with rfl | he
      · exact Std.OrientedCmp.lt_of_gt hgt
      · exact hhead e he

theorem InOrder.foldl_insertByName {contents : List (Text × α)} (h : InOrder table) :
    InOrder (contents.foldl (fun table e => PatchManager.insertByName e.1 e.2 table) table) := by
  induction contents generalizing table with
  | nil => exact h
  | cons e more ih => exact ih h.insertByName

theorem mem_of_mem_foldl_insertByName {contents : List (Text × α)}
    (h : entry ∈ contents.foldl (fun table e => insertByName e.1 e.2 table) table) :
    entry ∈ table ∨ entry ∈ contents := by
  induction contents generalizing table with
  | nil => exact Or.inl h
  | cons e more ih =>
    rcases ih h with h | h
    · rcases mem_of_mem_insertByName h with rfl | h
      · exact Or.inr List.mem_cons_self
      · exact Or.inl h
    · exact Or.inr (List.mem_cons_of_mem _ h)

end Table

/-- The list of violations is in order. -/
theorem inOrder_violations (conventions : Convention.Settings) (contents : List (Text × Text)) :
    InOrder (violations conventions contents) := by
  have h : InOrder (contents.foldl (fun table e => insertByName e.1 e.2 table) []) :=
    InOrder.foldl_insertByName List.Pairwise.nil
  rw [InOrder] at h
  rw [InOrder, violations]
  exact (List.pairwise_map.mpr h).filter _

/-- **The list of violations** of contents with different names: those of each content that has any. -/
theorem mem_violations {contents : List (Text × Text)}
    (hone : ∀ e ∈ contents, ∀ e' ∈ contents, e'.1 = e.1 → e' = e) {name : Text} {vs : List Violation} :
    (name, vs) ∈ violations conventions contents ↔
      vs ≠ [] ∧ ∃ t, (name, t) ∈ contents ∧ vs = Convention.check conventions ⟨name⟩ t := by
  have hmem (e : Text × Text) :
      e ∈ contents.foldl (fun table e => insertByName e.1 e.2 table) [] ↔ e ∈ contents :=
    ⟨fun h => (mem_of_mem_foldl_insertByName h).resolve_left List.not_mem_nil,
      fun h => mem_foldl_insertByName (hone e h) (Or.inr h)⟩
  rw [violations, List.mem_filter, List.mem_map]
  constructor
  · rintro ⟨⟨e, he, heq⟩, hne⟩
    obtain ⟨rfl, rfl⟩ := Prod.mk.inj heq
    exact ⟨by simpa using hne, e.2, (hmem e).mp he, rfl⟩
  · rintro ⟨hne, t, ht, rfl⟩
    exact ⟨⟨(name, t), (hmem _).mpr ht, rfl⟩, by simpa using hne⟩

/-- **The violations of the files of some steps on a disk.** Each file can be read; the list has one entry
for each file that has violations, under the name that the first step for it gives it, and is in the order
of these names. -/
structure ViolationsOn (conventions : Convention.Settings) (root : Path) (steps : List EditStep) (d : Disk)
    (table : List (Text × List Violation)) : Prop where
  readable : ∀ s, Opens root steps s → ∃ t, d.readText (root.join ⟨s.file⟩) = .ok t
  inOrder : InOrder table
  mem_iff : ∀ name vs, (name, vs) ∈ table ↔ vs ≠ [] ∧ ∃ s t, Opens root steps s ∧
    name = relativeName root (root.join ⟨s.file⟩) ∧ d.readText (root.join ⟨s.file⟩) = .ok t ∧
      vs = Convention.check conventions ⟨name⟩ t

/-- **What was worked out in memory is what stands on disk** after it was written. -/
theorem violationsOn_written {ds : Drafts}
    (hsteps : (ofSteps root (EditStep.parse text)).run d = (.ok ds, d)) :
    ViolationsOn conventions root (EditStep.parse text) (written d ds)
      (violations conventions (ds.map fun e => (relativeName root e.1, e.2))) := by
  obtain ⟨-, hds⟩ := Drafts.resolved_ofSteps hsteps
  have hfirst := Drafts.spelledFirst_ofSteps hsteps
  have hread {e : Path × Text} (he : e ∈ ds) {t : Text} :
      (written d ds).readText e.1 = .ok t ↔ t = e.2 :=
    (hds.readText_of_mem he (fun e' he' q hf hf' => hds.eq_of_place he he' hf hf') rfl).trans
      (and_iff_right (hds.hasFile e he))
  -- a step that opens a file finds the draft under its own spelling
  have hdraft {s : EditStep} (hs : Opens root (EditStep.parse text) s) :
      ∃ content, (root.join ⟨s.file⟩, content) ∈ ds :=
    (hds.exists_draft_iff hfirst).mpr ⟨s, hs, rfl⟩
  have hone : ∀ f ∈ ds.map fun e => (relativeName root e.1, e.2),
      ∀ f' ∈ ds.map fun e => (relativeName root e.1, e.2), f'.1 = f.1 → f' = f := by
    intro f hf f' hf' hname
    obtain ⟨g, hg, rfl⟩ := List.mem_map.mp hf
    obtain ⟨g', hg', rfl⟩ := List.mem_map.mp hf'
    rw [eq_of_relativeName hds hg hg' hname]
  refine ⟨fun s hs => ?_, inOrder_violations _ _, fun name vs => ?_⟩
  · obtain ⟨content, he⟩ := hdraft hs
    exact ⟨content, (hread he).mpr rfl⟩
  · rw [mem_violations hone]
    refine and_congr_right fun _ => ?_
    constructor
    · rintro ⟨t, ht, rfl⟩
      obtain ⟨e, he, heq⟩ := List.mem_map.mp ht
      obtain ⟨rfl, rfl⟩ := Prod.mk.inj heq
      obtain ⟨s, hs, hname⟩ := hfirst e he
      have hwritten := (hread he).mpr rfl
      rw [hname] at hwritten
      exact ⟨s, e.2, hs, congrArg (relativeName root) hname, hwritten, rfl⟩
    · rintro ⟨s, t, hs, rfl, ht, rfl⟩
      obtain ⟨content, he⟩ := hdraft hs
      obtain rfl := (hread he).mp ht
      exact ⟨t, List.mem_map.mpr ⟨_, he, rfl⟩, rfl⟩

/-! ### Refusals -/

/-- A patch that does not pass validation is refused for the same reason. -/
theorem apply_fst_of_validate (h : m.validate w.disk id = .error e) : (m.apply id w).1 = .error e := by
  have hends := applied m id w
  generalize m.apply id w = r at hends ⊢
  cases hends with
  | refused reached invalid disk runner =>
    exact congrArg Except.error (Except.error.inj (invalid.symm.trans h))
  | failed reached admits disk runner => exact absurd (h.symm.trans (validate_eq_ok.mpr ⟨_, admits⟩)) nofun
  | carried reached admits disk calls => exact absurd (h.symm.trans (validate_eq_ok.mpr ⟨_, admits⟩)) nofun

/-- A patch whose steps cannot be worked out is refused for the same reason. -/
theorem apply_fst_of_ofSteps (h : m.Admits w.disk id p) (hc : p.content = .editInstructions steps)
    (he : ((ofSteps m.root steps).run w.disk).1 = .error e) : (m.apply id w).1 = .error e := by
  obtain ⟨w₁, -, hdisk, -, happly⟩ := apply_of_admits h
  have hrun : ((applySteps m.root steps).run w.disk).1 = .error e := by
    rw [applySteps, FileTask.run_bind_of_error (Prod.ext he rfl)]
  rw [happly, hc, carryOut, Workspace.perform, hdisk, hrun]

/-! ### The forecast -/

/-- **Validation and the check of conventions foretell what becomes of a patch** of edit steps, on a disk
that can be written. It is applied exactly if both succeed; it is refused with the error of validation, or
if there is none with the error of the check; and if it is applied, the check has listed the violations
that its files then have. -/
theorem apply_as_forecast (hp : m.get? id = some p) (hc : p.content = .editInstructions (EditStep.parse text))
    (hw : w.disk.Writable m.root (EditStep.parse text)) :
    ((∃ report, (m.apply id w).1 = .ok report) ↔
      m.validate w.disk id = .ok () ∧ ∃ table, m.compliance w.disk id = .ok table) ∧
    (∀ e, m.validate w.disk id = .error e → (m.apply id w).1 = .error e) ∧
    (∀ e, m.validate w.disk id = .ok () → m.compliance w.disk id = .error e →
      (m.apply id w).1 = .error e) ∧
    ∀ report, (m.apply id w).1 = .ok report → ∃ table, m.compliance w.disk id = .ok table ∧
      ViolationsOn m.conventions m.root (EditStep.parse text) (m.apply id w).2.2.disk table := by
  have hadmits (hv : m.validate w.disk id = .ok ()) : m.Admits w.disk id p := by
    obtain ⟨p', hp'⟩ := validate_eq_ok.mp hv
    obtain rfl := Option.some.inj (hp.symm.trans hp'.get?_eq)
    exact hp'
  have hchecked := compliance_of_steps hp hc w.disk
  have hforecast : ∀ report, (m.apply id w).1 = .ok report → m.validate w.disk id = .ok () ∧
      ∃ table, m.compliance w.disk id = .ok table ∧
        ViolationsOn m.conventions m.root (EditStep.parse text) (m.apply id w).2.2.disk table := by
    intro report happlied
    obtain ⟨hadmits, ds, hsteps, hwrite⟩ := (apply_ok_iff_of_steps hp hc).mp ⟨report, happlied⟩
    refine ⟨validate_eq_ok.mpr ⟨p, hadmits⟩, _, by rw [hchecked, hsteps]; rfl, ?_⟩
    rw [disk_apply_of_steps hadmits hc hsteps hwrite]
    exact violationsOn_written hsteps
  refine ⟨⟨?_, ?_⟩, fun e => apply_fst_of_validate, fun e hv he => ?_, fun report happlied =>
    (hforecast report happlied).2⟩
  · rintro ⟨report, happlied⟩
    obtain ⟨hv, table, htable, -⟩ := hforecast report happlied
    exact ⟨hv, table, htable⟩
  · rintro ⟨hv, table, htable⟩
    rw [hchecked] at htable
    cases hsteps : ((ofSteps m.root (EditStep.parse text)).run w.disk).1 with
    | error e =>
      rw [hsteps] at htable
      cases htable
    | ok ds =>
      have hrun : (ofSteps m.root (EditStep.parse text)).run w.disk = (.ok ds, w.disk) :=
        Prod.ext hsteps (Drafts.run_ofSteps_snd _ _ _)
      exact (apply_ok_iff_of_steps hp hc).mpr ⟨hadmits hv, ds, hrun,
        Drafts.run_write_of_writable hw (Drafts.resolved_ofSteps hrun).2⟩
  · rw [hchecked] at he
    cases hsteps : ((ofSteps m.root (EditStep.parse text)).run w.disk).1 with
    | error e' =>
      rw [hsteps] at he
      cases he
      exact apply_fst_of_ofSteps (hadmits hv) hc hsteps
    | ok ds =>
      rw [hsteps] at he
      cases he

/-- Steps that take the guard out of a header and change it further, under another spelling. -/
def unguardingText : Text :=
  block "src//a.hpp" "#pragma once\n" "" ++ block "src/a.hpp" "int f();" "int g();"

/-- A manager with a patch of these steps. -/
def unguarding : PatchManager := holding unguardingText []

/-- A workspace with the header. -/
def guarded : Workspace :=
  ⟨{ nodes := [(["p"], .directory), (["p", "src"], .directory),
    (["p", "src", "a.hpp"], .file (Text.toBytes "#pragma once\nint f();\n"))] }, {}, [], []⟩

/-- The patch is applied as the checks have foretold, and they have listed that the guard is missing. -/
theorem unguarding_applied_as_forecast : ∃ report table, (unguarding.apply "1" guarded).1 = .ok report ∧
    unguarding.validate guarded.disk "1" = .ok () ∧ unguarding.compliance guarded.disk "1" = .ok table ∧
    table.map (fun e => (e.1, e.2.map (·.kind))) = [("src//a.hpp".toList, [Convention.includeGuard])] ∧
    ViolationsOn {} "/p" (EditStep.parse unguardingText) (unguarding.apply "1" guarded).2.2.disk table := by
  have hw : guarded.disk.Writable unguarding.root (EditStep.parse unguardingText) := by
    refine ⟨fun _ => rfl, fun _ => rfl, fun s hs _ => ?_⟩
    have hparent : ∀ s ∈ EditStep.parse unguardingText,
        (Path.join "/p" ⟨s.file⟩).parent?.getD "/p" = "/p/src" := by
      decide +kernel
    have hroot : unguarding.root = "/p" := rfl
    rw [hroot, hparent s hs]
    unfold Disk.RoomBeside Disk.Spelled
    decide +kernel
  have hget : unguarding.get? "1" = some (Patch.ofText unguardingText [] true) := by decide +kernel
  have hcontent : (Patch.ofText unguardingText [] true).content =
      .editInstructions (EditStep.parse unguardingText) := by
    decide +kernel
  have hforecast := apply_as_forecast hget hcontent hw
  have happlied : ∃ report, (unguarding.apply "1" guarded).1 = .ok report :=
    ⟨⟨"1", .editInstructions, ["src//a.hpp", "src/a.hpp"],
      .committed (commitMessage {} ["src//a.hpp", "src/a.hpp"] true)⟩, by decide +kernel⟩
  obtain ⟨report, hreport⟩ := happlied
  obtain ⟨table, htable, hon⟩ := hforecast.2.2.2 report hreport
  have hlisted : (unguarding.compliance guarded.disk "1").map (List.map fun e => (e.1, e.2.map (·.kind))) =
      .ok [("src//a.hpp".toList, [Convention.includeGuard])] := by
    decide +kernel
  rw [htable] at hlisted
  exact ⟨report, table, hreport, (hforecast.1.mp ⟨report, hreport⟩).1, htable, Except.ok.inj hlisted, hon⟩

end PatchManager

end BuildMender
