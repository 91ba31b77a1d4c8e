import BuildMender.Convention.Check
import BuildMender.Proofs.Patch.Coverage
import BuildMender.Proofs.Patch.Edits
import BuildMender.Proofs.Patch.History
import BuildMender.Proofs.Path.Relative
import BuildMender.Proofs.Text.ByteOrder

/-!
# Commits and conventions

Whether a patch keeps the conventions is found out before it is applied, from what its steps come to in
memory; it is noted with the patch, and the commit that comes later looks at the note only. So two
answers have to agree, that of the check and that of the disk after the patch was applied.

They do, because both come from the same drafts: the check and the patch work the steps out on one disk
(`BuildMender.PatchManager.compliance_of_steps`), and a file is read as its draft afterwards
(`BuildMender.Drafts.Resolved.readText_of_mem`). The check names the drafts by their paths from the root,
and keeps them in a table by these names; since steps that were read from a text have one name for each
file, no draft takes the place of another in that table (`BuildMender.PatchManager.violations_eq_nil`).
What a project asks of a file depends on the components of its path alone, so a file keeps the conventions
under every spelling of its name or under none (`BuildMender.Convention.check_eq_nil_congr`).

A check that fails notes that the patch keeps the conventions. That does no harm: it fails because the
steps cannot be worked out, and then the patch is not applied either
(`BuildMender.PatchManager.commitsKeep_taking`).
-/

namespace BuildMender

/-! ### Names -/

/-- No backslash is left in the name of a step's file. -/
theorem EditStep.backslash_not_mem {text : Text} {step : EditStep} (h : step ∈ parse text) :
    '\\' ∉ step.file := by
  obtain ⟨raw, line, -, -, hfile⟩ := exists_writtenAs h
  rw [hfile]
  exact SourceFile.backslash_not_mem_normalize raw

/-! ### Conventions and spelling -/

namespace Convention

variable {p q : Path} {settings : Settings} {t : Text}

/-- A file has no violation if it is no source file or breaks no convention. -/
theorem check_eq_nil : check settings p t = [] ↔
    (SourceFile.isHeader p || SourceFile.isImplementation p) = true →
      ∀ k ∈ all, breaks settings p t k = false := by
  rw [check]
  split
  · rename_i h
    simp [h, List.filter_eq_nil_iff]
  · rename_i h
    simp [h]

/-- **A file keeps the conventions under every spelling of its path.** -/
theorem check_eq_nil_congr (hp : p.lead = .bare) (hq : q.lead = .bare) (h : p.body = q.body) :
    check settings p t = [] ↔ check settings q t = [] := by
  have hname : p.fileName? = q.fileName? := by rw [Path.fileName?_eq, Path.fileName?_eq, h]
  have hext : SourceFile.extension p = SourceFile.extension q := by
    rw [SourceFile.extension, SourceFile.extension, Path.extension?, Path.extension?, hname]
  have hstem : p.stem? = q.stem? := by rw [Path.stem?, Path.stem?, hname]
  have hunder (dir : Text) : SourceFile.isUnder dir p = SourceFile.isUnder dir q := by
    simp only [SourceFile.isUnder, Path.parent?_congr hp hq h]
  have hheader : SourceFile.isHeader p = SourceFile.isHeader q := by
    rw [SourceFile.isHeader, SourceFile.isHeader, hext]
  have himplementation : SourceFile.isImplementation p = SourceFile.isImplementation q := by
    rw [SourceFile.isImplementation, SourceFile.isImplementation, hext]
  have hbreaks (k : Convention) : breaks settings p t k = breaks settings q t k := by
    cases k with
    | headerSuffix =>
      simp only [breaks, breaksSuffix, hheader, hext]
    | includeGuard => simp only [breaks, breaksGuard, hheader]
    | interfaceDir => simp only [breaks, breaksInterfaceDir, hunder]
    | metaObjectInclude =>
      have hline : metaObjectLine settings p = metaObjectLine settings q := by
        unfold metaObjectLine
        rw [hstem]
      rw [breaks, breaks, breaksMetaObject, breaksMetaObject, himplementation, hline]
  simp only [check_eq_nil, hheader, himplementation, hbreaks]

end Convention

/-! ### Files that keep the conventions -/

/-- **The file at a path keeps the conventions**: it is there under some spelling, and under each under
which it can be read it has no violation as a file of the project. -/
structure KeepsConventions (conventions : Convention.Settings) (root : Path) (d : Disk) (file : Path) :
    Prop where
  isThere : ∃ p t, p.same file ∧ d.readText p = .ok t
  clean : ∀ p t, p.same file → d.readText p = .ok t →
    ∃ rel, root.relativeTo? p = some rel ∧ Convention.check conventions rel t = []

namespace PatchManager

variable {m : PatchManager} {id : PatchId} {p : Patch} {d : Disk} {root : Path} {ds : Drafts}
  {conventions : Convention.Settings} {text : Text} {steps : List EditStep}

/-! ### The table of contents -/

section Table

variable {α : Type} {name : Text} {a : α} {e : Text × α} {table : List (Text × α)}

theorem mem_insertByName (name : Text) (a : α) (table : List (Text × α)) :
    (name, a) ∈ insertByName name a table := by
  induction table with
  | nil => exact List.mem_cons_self
  | cons entry more ih =>
    obtain ⟨n, b⟩ := entry
    rw [insertByName]
    split
    · exact List.mem_cons_self
    · rename_i heq
      rw [Path.eq_of_compareText heq]
      exact List.mem_cons_self
    · exact List.mem_cons_of_mem _ ih

/-- An entry stays when another name is put in. -/
theorem mem_insertByName_of_mem (h : e ∈ table) (hne : e.1 ≠ name) :
    e ∈ insertByName name a table := by
  induction table with
  | nil => cases h
  | cons entry more ih =>
    obtain ⟨n, b⟩ := entry
    rw [insertByName]
    split
    · exact List.mem_cons_of_mem _ h
    · rename_i heq
      rcases List.mem_cons.mp h with rfl | h
      · exact absurd (Path.eq_of_compareText heq).symm hne
      · exact List.mem_cons_of_mem _ h
    · rcases List.mem_cons.mp h with rfl | h
      · exact List.mem_cons_self
      · exact List.mem_cons_of_mem _ (ih h)

/-- An entry is in the table in the end, if no other has its name. -/
theorem mem_foldl_insertByName {contents : List (Text × α)} (hone : ∀ e' ∈ contents, e'.1 = e.1 → e' = e)
    (h : e ∈ table ∨ e ∈ contents) :
    e ∈ contents.foldl (fun table e => insertByName e.1 e.2 table) table := by
  induction contents generalizing table with
  | nil => exact h.resolve_right List.not_mem_nil
  | cons e' more ih =>
    refine ih (fun e'' he'' => hone e'' (List.mem_cons_of_mem _ he'')) ?_
    by_cases hname : e'.1 = e.1
    · obtain rfl := hone e' List.mem_cons_self hname
      exact Or.inl (mem_insertByName _ _ _)
    · rcases h with h | h
      · exact Or.inl (mem_insertByName_of_mem h (Ne.symm hname))
      · rcases List.mem_cons.mp h with rfl | h
        · exact absurd rfl hname
        · exact Or.inr h

end Table

/-- **No violations** in contents with different names means none in each. -/
theorem violations_eq_nil {contents : List (Text × Text)}
    (hone : ∀ e ∈ contents, ∀ e' ∈ contents, e'.1 = e.1 → e' = e)
    (h : violations conventions contents = []) :
    ∀ e ∈ contents, Convention.check conventions ⟨e.1⟩ e.2 = [] := by
  intro e he
  have hmem : e ∈ contents.foldl (fun table e => insertByName e.1 e.2 table) [] :=
    mem_foldl_insertByName (hone e he) (Or.inr he)
  rw [violations, List.filter_eq_nil_iff] at h
  have hentry := h _ (List.mem_map_of_mem hmem)
  simpa using hentry

/-! ### The names of drafts -/

/-- The draft of a step that was read from a text is named as its file is seen from the root. -/
theorem exists_relativeName (hds : Drafts.Resolved d root (EditStep.parse text) ds) {e : Path × Text}
    (he : e ∈ ds) : ∃ rel : Path, Patch.relativeName root e.1 = rel.text ∧ rel.lead = .bare ∧
      root.components ++ rel.body = e.1.components := by
  obtain ⟨s, hs, hname⟩ := hds.named e he
  have hesc := (hds.covered s hs).1
  have hbody := Disk.body_ne_nil_of_hasFile hesc (hname ▸ hds.hasFile e he)
  have hl := EditStep.lead_of_mem_parse hs hesc hbody
  have hseen : root.relativeTo? e.1 = some (Path.assemble .bare (Path.settled (Path.pieces ⟨s.file⟩))) := by
    rw [hname, Path.relativeTo?_join hl hbody]
  have hprefix : root.components <+: e.1.components := by
    rw [hname, Path.components_join_of_bare hl]
    exact List.prefix_append _ _
  obtain ⟨rel, hrel, hlead, hcomponents⟩ := Path.exists_relativeTo? hprefix fun hroot => by
    rw [hname, Path.lead_join_of_bare hl]
    rw [Path.components_eq] at hroot
    cases hlead : root.lead <;> simp [hlead, Path.Lead.components] at hroot ⊢
  refine ⟨rel, ?_, hlead, hcomponents⟩
  obtain rfl := Option.some.inj (hseen.symm.trans hrel)
  -- no backslash is replaced, since there is none
  rw [Patch.relativeName, hseen, Option.getD_some, Text.replace]
  refine (List.map_congr_left fun c hc => ?_).trans (List.map_id _)
  refine if_neg fun hslash => ?_
  rw [hslash] at hc
  exact EditStep.backslash_not_mem hs (Path.mem_of_mem_settled hl hc)

/-- So no two drafts have one name. -/
theorem eq_of_relativeName (hds : Drafts.Resolved d root (EditStep.parse text) ds) {e e' : Path × Text}
    (he : e ∈ ds) (he' : e' ∈ ds) (h : Patch.relativeName root e'.1 = Patch.relativeName root e.1) :
    e' = e := by
  obtain ⟨rel, hrel, -, hcomponents⟩ := exists_relativeName hds he
  obtain ⟨rel', hrel', -, hcomponents'⟩ := exists_relativeName hds he'
  refine hds.eq_of_components he' he ?_
  have hsame : rel'.body = rel.body := by
    rw [Path.body, Path.body, ← hrel, ← hrel', h]
  rw [← hcomponents, ← hcomponents', hsame]

/-- **What was clean in memory is clean on disk**: if the drafts of a patch have no violations under their
names, then after they were written the files of its steps keep the conventions. -/
theorem keepsConventions_written (hds : Drafts.Resolved d root (EditStep.parse text) ds)
    (hnone : violations conventions (ds.map fun e => (Patch.relativeName root e.1, e.2)) = [])
    {s : EditStep} (hs : s ∈ EditStep.parse text) :
    KeepsConventions conventions root (Drafts.written d ds) (root.join ⟨s.file⟩) := by
  obtain ⟨e, he, hc⟩ := hds.exists_draft hs
  have hread {p : Path} {t : Text} (hp : p.same (root.join ⟨s.file⟩)) :
      (Drafts.written d ds).readText p = .ok t ↔ d.hasFile p ∧ t = e.2 :=
    hds.readText_of_mem he (fun e' he' q hf hf' => hds.eq_of_place he he' hf hf')
      ((Path.same_iff.mp hp).trans hc.symm)
  have hclean : Convention.check conventions ⟨Patch.relativeName root e.1⟩ e.2 = [] := by
    refine violations_eq_nil (fun f hf f' hf' hname => ?_) hnone (Patch.relativeName root e.1, e.2)
      (List.mem_map_of_mem he)
    obtain ⟨g, hg, rfl⟩ := List.mem_map.mp hf
    obtain ⟨g', hg', rfl⟩ := List.mem_map.mp hf'
    rw [eq_of_relativeName hds hg hg' hname]
  obtain ⟨rel, hrel, hlead, hcomponents⟩ := exists_relativeName hds he
  refine ⟨⟨e.1, e.2, Path.same_iff.mpr hc, ?_⟩, fun p t hp ht => ?_⟩
  · exact (hread (Path.same_iff.mpr hc)).mpr ⟨hds.hasFile e he, rfl⟩
  · obtain ⟨-, rfl⟩ := (hread hp).mp ht
    have hp : p.components = root.components ++ rel.body := by
      rw [Path.same_iff.mp hp, ← hc, hcomponents]
    have hprefix : root.components <+: p.components := hp ▸ List.prefix_append _ _
    obtain ⟨rel', hrel', hlead', hcomponents'⟩ := Path.exists_relativeTo? hprefix fun hroot => by
      have hsame : p.components = rel.components := by
        rw [hp, hroot, Path.components_eq rel, hlead]
        rfl
      rw [(Path.components_inj.mp hsame).1, hlead]
    refine ⟨rel', hrel', ?_⟩
    have hbody : rel'.body = rel.body := List.append_cancel_left (hcomponents'.trans hp)
    rw [Convention.check_eq_nil_congr hlead' hlead hbody]
    rwa [hrel] at hclean

/-! ### The check -/

/-- **Checking a patch of edit steps** works them out, and looks at what they come to. -/
theorem compliance_of_steps (hp : m.get? id = some p) (hc : p.content = .editInstructions steps)
    (d : Disk) : m.compliance d id = ((Drafts.ofSteps m.root steps).run d).1.map fun ds =>
      violations m.conventions (ds.map fun e => (Patch.relativeName m.root e.1, e.2)) := by
  rw [compliance, checking, FileTask.run_bind, FileTask.run_lift, find_eq_ok.mpr hp]
  dsimp only
  rw [FileTask.run_bind, hc, contentsAfter, FileTask.run_bind]
  cases (Drafts.ofSteps m.root steps).run d with
  | mk result d' => cases result <;> rfl

end PatchManager

end BuildMender
