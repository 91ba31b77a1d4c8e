import BuildMender.Patch.Manager
import BuildMender.Proofs.Disk.Copy
import BuildMender.Proofs.Patch.Resolve

/-!
# All files or none

Writing the drafts of a patch has two rounds, and the first takes all the risk. While copies are staged
any call may be refused, at any file: then the copies made so far are removed, in whatever order, and
the disk is the one there was (`BuildMender.Drafts.run_stageAll`). Once every file has its copy nothing
can be refused any more, since moving a copy that is there over a file that is there cannot be
(`BuildMender.Drafts.run_replaceAll`).

What carries both rounds is `BuildMender.Drafts.Prepared`: the copies stand beside a disk that is
otherwise untouched, and they hold the drafts that they are for. The outcome for a whole list of steps
is `BuildMender.PatchManager.run_applySteps`: an error and the same disk, or each file as its draft says.

All of it happens below the root, copies included: a copy is made in the directory of its file, and that
directory lies below the root because the file names something there
(`BuildMender.PatchManager.within_applySteps`).
-/

namespace BuildMender

/-! ### Calls that stay below the root -/

/-- A call that reaches only paths below the root, on every disk. -/
def FileCall.StaysBelow (root : Path) (c : FileCall) : Prop := ∀ d, ∀ p ∈ c.paths d, Path.Below root p

theorem FileCall.staysBelow_of_one {root p : Path} {c : FileCall} (hc : ∀ d, c.paths d = [p])
    (hp : Path.Below root p) : c.StaysBelow root := by
  intro d q hq
  rw [hc, List.mem_singleton] at hq
  rwa [hq]

theorem FileCall.LooksBelow.staysBelow {root : Path} {c : FileCall} (h : c.LooksBelow root) :
    c.StaysBelow root := by
  cases c with
  | isFile p => exact staysBelow_of_one (fun _ => rfl) h
  | read p => exact staysBelow_of_one (fun _ => rfl) h
  | rights p => exact h.elim
  | create dir => exact h.elim
  | fill p content => exact h.elim
  | rename p target => exact h.elim
  | remove p => exact h.elim

/-- A task that stays below the root reaches nothing else. -/
theorem FileTask.Within.below {ε α : Type} {root : Path} {t : FileTask ε α} {Q : α → Prop}
    (ht : t.Within (FileCall.StaysBelow root) Q) (d : Disk) : ∀ p ∈ t.reached d, Path.Below root p := by
  intro p hp
  obtain ⟨c, d', hc, hp⟩ := ht.reached hp
  exact hc d' p hp

namespace Drafts

open Path (NamesBelow)
open Disk (Beside Copy)

variable {root p : Path} {ds : Drafts} {d : Disk} {c : Copy} {cs : List Copy}

/-! ### Removing copies -/

/-- **Copies removed**, in any order: the disk is the one there was before them. -/
theorem run_discard {xs : List Copy} (h : Beside d cs) (hp : xs.Perm cs) :
    (discard (xs.map Copy.path)).run (d.withCopies cs) = (.ok (), d) := by
  induction xs generalizing cs with
  | nil =>
    obtain rfl := hp.nil_eq
    rw [Disk.withCopies_nil]
    rfl
  | cons c xs ih =>
    obtain ⟨cs₁, cs₂, rfl⟩ := List.append_of_mem (hp.subset List.mem_cons_self)
    have hrest : xs.Perm (cs₁ ++ cs₂) := (hp.trans List.perm_middle).cons_inv
    have hbeside : Beside d (cs₁ ++ cs₂) :=
      h.sublist ((List.sublist_cons_self c cs₂).append_left cs₁)
    rw [List.map_cons, discard, FileTask.run_bind, FileTask.run_ask, Disk.answer]
    dsimp only
    rw [Disk.remove_copy h, ih hbeside hrest]

/-! ### Staging -/

/-- Copies that hold the drafts they are for, beside a disk that is otherwise as it was. -/
structure Prepared (d : Disk) (made : List (Copy × Path × Text)) (staged : List Staged) : Prop where
  beside : Beside d (made.map Prod.fst)
  staged_eq : staged = made.map fun m => ⟨m.1.path, m.2.1⟩
  content : ∀ m ∈ made, m.1.content = Text.toBytes m.2.2

theorem prepared_nil (d : Disk) : Prepared d [] [] := ⟨Disk.beside_nil d, rfl, nofun⟩

theorem Prepared.map_copy {made : List (Copy × Path × Text)} {staged : List Staged}
    (h : Prepared d made staged) : staged.map Staged.copy = (made.map Prod.fst).map Copy.path := by
  rw [h.staged_eq, List.map_map, List.map_map]
  rfl

/-- Another copy made and filled. -/
theorem Prepared.append {made : List (Copy × Path × Text)} {staged : List Staged} {content : Text}
    (h : Prepared d made staged) (hbeside : Beside d (made.map Prod.fst ++ [c]))
    (hc : c.content = Text.toBytes content) :
    Prepared d (made ++ [(c, p, content)]) (staged ++ [⟨c.path, p⟩]) := by
  refine ⟨by simpa using hbeside, by simp [h.staged_eq], fun m hm => ?_⟩
  rcases List.mem_append.mp hm with hm | hm
  · exact h.content m hm
  · obtain rfl := List.mem_singleton.mp hm
    exact hc

/-- A copy being finished: it stays where it is, and if that succeeds it holds the draft. -/
theorem run_finish (h : Beside d (cs ++ [c])) (p : Path) (content : Text) :
    ∃ r b, (finish ⟨c.path, p⟩ content).run (d.withCopies (cs ++ [c])) =
        (.ok r, d.withCopies (cs ++ [{ c with content := b }])) ∧
      (r = .ok () → b = Text.toBytes content) := by
  rw [finish, FileTask.run_bind, FileTask.run_ask, Disk.answer]
  dsimp only
  rw [Disk.fill_last h]
  cases d.refuses (.fill c.place) with
  | some e =>
    refine ⟨.error e, c.content, rfl, ?_⟩
    intro h
    cases h
  | none =>
    dsimp only [Disk.changed]
    rw [FileTask.run_ask, Disk.answer]
    cases (d.withCopies (cs ++ [{ c with content := Text.toBytes content }])).find [] p with
    | ok found => exact ⟨.ok (), _, rfl, fun _ => rfl⟩
    | error e =>
      refine ⟨.error e, _, rfl, ?_⟩
      intro h
      cases h

/-- **Staging** ends in one of two ways: with an error and the disk there was before any copy, or with
each draft in a copy of its own. -/
theorem run_stageAll {made : List (Copy × Path × Text)} {staged : List Staged}
    (h : Prepared d made staged) (root : Path) (ds : Drafts) :
    (∃ e, (stageAll root staged ds).run (d.withCopies (made.map Prod.fst)) = (.error e, d)) ∨
      ∃ made' staged', (stageAll root staged ds).run (d.withCopies (made.map Prod.fst)) =
          (.ok staged', d.withCopies (made'.map Prod.fst)) ∧
        Prepared d made' staged' ∧ made'.map Prod.snd = made.map Prod.snd ++ ds := by
  -- over the drafts, with the copies made so far carried along: an error has to remove them all
  induction ds generalizing made staged with
  | nil => exact Or.inr ⟨made, staged, rfl, h, (List.append_nil _).symm⟩
  | cons draft more ih =>
    obtain ⟨p, content⟩ := draft
    rw [stageAll, FileTask.run_bind, FileTask.run_ask, Disk.answer]
    dsimp only
    cases hcreate : (d.withCopies (made.map Prod.fst)).create (p.parent?.getD root) with
    | error e =>
      -- the copy is refused: those made so far go
      have hdiscard := run_discard h.beside (List.Perm.refl _)
      rw [← h.map_copy] at hdiscard
      exact Or.inl ⟨_, FileTask.run_bind_of_ok hdiscard _⟩
    | ok made₁ =>
      obtain ⟨copy, d₁⟩ := made₁
      obtain ⟨q, hbeside, rfl⟩ := Disk.exists_copy_of_create h.beside hcreate
      obtain ⟨r, b, hfinish, hcontent⟩ := run_finish hbeside p content
      dsimp only
      rw [FileTask.run_bind, hfinish]
      dsimp only
      have hrefill := hbeside.refill b
      cases r with
      | error e =>
        -- its content or its rights are refused: it goes too, before the others
        have hperm : ((⟨copy, q, b⟩ : Copy) :: made.map Prod.fst).Perm
            (made.map Prod.fst ++ [⟨copy, q, b⟩]) := (List.perm_append_singleton _ _).symm
        have hdiscard := run_discard hrefill hperm
        rw [List.map_cons, ← h.map_copy] at hdiscard
        exact Or.inl ⟨_, FileTask.run_bind_of_ok hdiscard _⟩
      | ok done =>
        have := ih (h.append (p := p) hrefill (hcontent rfl))
        simpa using this

/-! ### Replacing -/

/-- A disk with drafts written to their files, one after another. -/
def written (d : Disk) (ds : Drafts) : Disk := ds.foldl (fun d e => d.replace e.1 e.2) d

/-- **Replacing** the files by their copies succeeds, and leaves no copy. -/
theorem run_replaceAll {made : List (Copy × Path × Text)} {staged : List Staged}
    (h : Prepared d made staged) (hfiles : ∀ e ∈ made.map Prod.snd, d.hasFile e.1) :
    (replaceAll staged).run (d.withCopies (made.map Prod.fst)) =
      (.ok (), written d (made.map Prod.snd)) := by
  -- over the copies: the disk with one file replaced takes the place of the disk
  induction made generalizing d staged with
  | nil =>
    rw [h.staged_eq, List.map_nil, List.map_nil, Disk.withCopies_nil]
    rfl
  | cons m more ih =>
    obtain ⟨c, p, content⟩ := m
    have hrename : (d.withCopies (c :: more.map Prod.fst)).rename c.path p =
        .ok ((d.replace p content).withCopies (more.map Prod.fst)) :=
      Disk.rename_copy h.beside (h.content _ List.mem_cons_self) (hfiles (p, content) List.mem_cons_self)
    have hrest : Prepared (d.replace p content) more (more.map fun m => ⟨m.1.path, m.2.1⟩) :=
      ⟨(h.beside.sublist (List.sublist_cons_self _ _)).replace p content, rfl,
        fun m hm => h.content m (List.mem_cons_of_mem _ hm)⟩
    rw [h.staged_eq, List.map_cons, replaceAll, FileTask.run_bind, FileTask.run_ask, Disk.answer]
    dsimp only
    rw [List.map_cons, hrename]
    exact ih hrest fun e he => Disk.hasFile_replace (hfiles e (List.mem_cons_of_mem _ he)) content

/-- **Drafts whose copies can all be staged** are written. -/
theorem run_write_of_staged {staged : List Staged} (hfiles : ∀ e ∈ ds, d.hasFile e.1)
    (h : ((stageAll root [] ds).run d).1 = .ok staged) :
    (write root ds).run d = (.ok (), written d ds) := by
  have hstage := run_stageAll (prepared_nil d) root ds
  rw [List.map_nil, Disk.withCopies_nil] at hstage
  rcases hstage with ⟨e, he⟩ | ⟨made, staged, hrun, hmade, hds⟩
  · rw [he] at h
    cases h
  · rw [List.map_nil, List.nil_append] at hds
    rw [write, FileTask.run_bind_of_ok hrun, run_replaceAll hmade (hds ▸ hfiles), hds]

/-- **Writing drafts for files that are there**: an error and the disk as it was, or all of them
written. -/
theorem run_write (root : Path) (hfiles : ∀ e ∈ ds, d.hasFile e.1) :
    (∃ e, (write root ds).run d = (.error e, d)) ∨ (write root ds).run d = (.ok (), written d ds) := by
  have hstage := run_stageAll (prepared_nil d) root ds
  rw [List.map_nil, Disk.withCopies_nil] at hstage
  rcases hstage with ⟨e, he⟩ | ⟨made, staged, hrun, -⟩
  · exact Or.inl ⟨e, FileTask.run_bind_of_error he _⟩
  · exact Or.inr (run_write_of_staged hfiles (congrArg Prod.fst hrun))

/-! ### What has changed -/

/-- **Nothing but the files of drafts** has changed. -/
theorem node?_written_of_ne {q : Place} (hfiles : ∀ e ∈ ds, d.hasFile e.1)
    (hq : ∀ e ∈ ds, d.follow [] e.1.components ≠ .ok q) : (written d ds).node? q = d.node? q := by
  induction ds generalizing d with
  | nil => rfl
  | cons e ds ih =>
    obtain ⟨at_, b, hfind⟩ := Disk.hasFile_iff.mp (hfiles e List.mem_cons_self)
    have hne : q ≠ at_ := fun h =>
      hq e List.mem_cons_self (h ▸ (Disk.find_file_eq_ok.mp hfind).2.2.1)
    have hrest : (written (d.replace e.1 e.2) ds).node? q = (d.replace e.1 e.2).node? q := by
      refine ih (fun e' he' => Disk.hasFile_replace (hfiles e' (List.mem_cons_of_mem _ he')) _) ?_
      intro e' he' hfollow
      exact hq e' (List.mem_cons_of_mem _ he')
        ((Disk.sameDirectories_replace d e.1 e.2).symm.follow hfollow)
    exact hrest.trans (by rw [Disk.node?_replace hfind, if_neg hne])

/-- **The file of a draft** has the content of the draft, if no other draft is for the same place. -/
theorem node?_written_of_mem {q : Place} {e : Path × Text} (hfiles : ∀ e ∈ ds, d.hasFile e.1)
    (he : e ∈ ds) (hq : d.follow [] e.1.components = .ok q)
    (hone : ∀ e' ∈ ds, d.follow [] e'.1.components = .ok q → e' = e) :
    (written d ds).node? q = some (.file (Text.toBytes e.2)) := by
  induction ds generalizing d with
  | nil => cases he
  | cons e' ds ih =>
    have hsame := Disk.sameDirectories_replace d e'.1 e'.2
    have hfiles' : ∀ e ∈ ds, (d.replace e'.1 e'.2).hasFile e.1 := fun e he =>
      Disk.hasFile_replace (hfiles e (List.mem_cons_of_mem _ he)) _
    by_cases hmem : e ∈ ds
    · exact ih hfiles' hmem (hsame.follow hq) fun e'' he'' hfollow =>
        hone e'' (List.mem_cons_of_mem _ he'') (hsame.symm.follow hfollow)
    · -- this draft is written now, and no later one is for its place
      obtain rfl : e = e' := (List.mem_cons.mp he).resolve_right hmem
      obtain ⟨at_, b, hfind⟩ := Disk.hasFile_iff.mp (hfiles e List.mem_cons_self)
      have hat : q = at_ := Except.ok.inj (hq.symm.trans (Disk.find_file_eq_ok.mp hfind).2.2.1)
      have hrest : (written (d.replace e.1 e.2) ds).node? q = (d.replace e.1 e.2).node? q := by
        refine node?_written_of_ne hfiles' fun e'' he'' hfollow => ?_
        have := hone e'' (List.mem_cons_of_mem _ he'') (hsame.symm.follow hfollow)
        exact hmem (this ▸ he'')
      exact hrest.trans (by rw [Disk.node?_replace hfind, if_pos hat])

theorem Resolved.hasFile {steps : List EditStep} (h : Resolved d root steps ds) :
    ∀ e ∈ ds, d.hasFile e.1 := by
  intro e he
  obtain ⟨t, hread, -⟩ := h.content e he
  exact Disk.hasFile_of_readText hread

/-! ### Where copies are made -/

/-- Removing copies reaches the copies. -/
theorem within_discard {copies : List Path} (h : ∀ p ∈ copies, Path.Below root p) :
    (discard copies).Within (FileCall.StaysBelow root) fun _ => True := by
  induction copies with
  | nil => trivial
  | cons copy more ih =>
    rw [List.forall_mem_cons] at h
    exact FileTask.within_ask (FileCall.staysBelow_of_one (fun _ => rfl) h.1) fun _ => ih h.2

/-- A copy and its file below the root. -/
def Staged.Below (root : Path) (s : Staged) : Prop := Path.Below root s.copy ∧ Path.Below root s.file

theorem within_finish {s : Staged} (h : s.Below root) (content : Text) :
    (finish s content).Within (FileCall.StaysBelow root) fun _ => True := by
  refine FileTask.within_ask (FileCall.staysBelow_of_one (fun _ => rfl) h.1) fun d => ?_
  split
  · trivial
  · exact FileTask.within_ask (FileCall.staysBelow_of_one (fun _ => rfl) h.2) fun _ => trivial

/-- **Staging stays below the root**: a copy is made in the directory of a file that is below it. -/
theorem within_stageAll {staged : List Staged} (hst : ∀ s ∈ staged, s.Below root)
    (hds : ∀ e ∈ ds, NamesBelow root e.1) :
    (stageAll root staged ds).Within (FileCall.StaysBelow root) fun staged =>
      ∀ s ∈ staged, s.Below root := by
  have hcopies : ∀ p ∈ staged.map Staged.copy, Path.Below root p := by
    intro p hp
    obtain ⟨s, hs, rfl⟩ := List.mem_map.mp hp
    exact (hst s hs).1
  induction ds generalizing staged with
  | nil => exact hst
  | cons e ds ih =>
    obtain ⟨p, content⟩ := e
    rw [List.forall_mem_cons] at hds
    have hfresh : ∀ d : Disk, Path.Below root (d.freshPath (p.parent?.getD root)) := fun d =>
      hds.1.parent.join_name (Disk.isName_passingName _)
    refine FileTask.within_ask (fun d q hq => ?_) fun d => ?_
    · rcases List.mem_cons.mp hq with rfl | hq
      · exact hds.1.parent
      · rw [List.mem_singleton.mp hq]
        exact hfresh d
    · split
      · exact (within_discard hcopies).bind fun _ _ => trivial
      · rename_i copy hcopy
        have hbelow : Staged.Below root ⟨copy, p⟩ := by
          refine ⟨?_, hds.1.below⟩
          rw [Disk.eq_freshPath_of_create hcopy]
          exact hfresh d
        refine (within_finish hbelow content).bind fun r _ => ?_
        split
        · refine FileTask.Within.bind (within_discard ?_) fun _ _ => trivial
          exact List.forall_mem_cons.mpr ⟨hbelow.1, hcopies⟩
        · have hst' : ∀ s ∈ staged ++ [⟨copy, p⟩], s.Below root := by
            intro s hs
            rcases List.mem_append.mp hs with hs | hs
            · exact hst s hs
            · rwa [List.mem_singleton.mp hs]
          refine ih hst' hds.2 fun q hq => ?_
          obtain ⟨s, hs, rfl⟩ := List.mem_map.mp hq
          exact (hst' s hs).1

theorem within_replaceAll {staged : List Staged} (hst : ∀ s ∈ staged, s.Below root) :
    (replaceAll staged).Within (FileCall.StaysBelow root) fun _ => True := by
  induction staged with
  | nil => trivial
  | cons s more ih =>
    rw [List.forall_mem_cons] at hst
    refine FileTask.within_ask (fun d q hq => ?_) fun d => ?_
    · rcases List.mem_cons.mp hq with rfl | hq
      · exact hst.1.1
      · rw [List.mem_singleton.mp hq]
        exact hst.1.2
    · split
      · refine FileTask.Within.bind (within_discard ?_) fun _ _ => trivial
        refine List.forall_mem_cons.mpr ⟨hst.1.1, fun p hp => ?_⟩
        obtain ⟨s', hs', rfl⟩ := List.mem_map.mp hp
        exact (hst.2 s' hs').1
      · exact ih hst.2

end Drafts

namespace PatchManager

open Drafts (Resolved written)

/-- **Carrying edit steps out** reaches nothing outside the root. -/
theorem within_applySteps (root : Path) (steps : List EditStep) :
    (applySteps root steps).Within (FileCall.StaysBelow root) fun _ => True := by
  have hsteps := (Drafts.within_ofSteps root steps).mono (fun _ hc => hc.staysBelow) fun _ h => h
  refine hsteps.bind fun ds hds => ?_
  have hstages := Drafts.within_stageAll (List.forall_mem_nil _) hds
  exact hstages.bind fun staged hst => Drafts.within_replaceAll hst

/-- **Edit steps carried out**: either they fail and the disk is as it was, or each file has the content
that its steps come to. -/
theorem run_applySteps (root : Path) (steps : List EditStep) (d : Disk) :
    (∃ e, (applySteps root steps).run d = (.error e, d)) ∨
      ∃ ds, Resolved d root steps ds ∧ (applySteps root steps).run d = (.ok (), written d ds) := by
  rw [applySteps]
  have hsnd := Drafts.run_ofSteps_snd root steps d
  cases hrun : (Drafts.ofSteps root steps).run d with
  | mk result d₁ =>
    obtain rfl : d₁ = d := by rw [← hsnd, hrun]
    cases result with
    | error e => exact Or.inl ⟨e, FileTask.run_bind_of_error hrun _⟩
    | ok ds =>
      obtain ⟨-, hds⟩ := Drafts.resolved_ofSteps hrun
      rw [FileTask.run_bind_of_ok hrun]
      rcases Drafts.run_write root hds.hasFile with h | h
      · exact Or.inl h
      · exact Or.inr ⟨ds, hds, h⟩

end PatchManager

end BuildMender
