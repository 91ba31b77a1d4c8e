import BuildMender.Proofs.Disk.Copy
import BuildMender.Proofs.Patch.Edits
import Mathlib.Data.List.Nodup
import Mathlib.Data.List.Perm.Subperm

/-!
# Disks that can be written

Making a copy beside a file can fail for want of a name: a name may be too long, and so may the path that
ends with it. It does not fail because all names are taken. Names are tried by their numbers, and of one
number more than the disk has nodes some is free (`BuildMender.Disk.exists_freshName`), so the number of a
name that is used is no greater than the number of nodes. So there is room for copies
(`BuildMender.Disk.RoomBeside`) if the names up to a number can be spelled behind the directory, and then a copy
is made unless it is refused (`BuildMender.Disk.exists_create`).

Writing drafts can fail although each of them is for a file that is there: a copy may be refused, or
there may be no room for one. Where neither happens the drafts are written
(`BuildMender.Drafts.run_write_of_writable`), and what a patch comes to is then a matter of its steps and
of the contents of files alone.

The one thing to know is that this is for good. Giving files other contents leaves the places of a disk,
its directories and what it refuses (`BuildMender.Disk.Rewritten`), so a disk that can be written can
still be after one patch when the next one comes (`BuildMender.Disk.Writable.of_rewritten`).
-/

namespace BuildMender

namespace Disk

variable {d : Disk} {p dir : Path} {q at_ : Place} {b : ByteArray} {n : Nat}

/-! ### Fresh names -/

/-- The number of a name can be read off it. -/
theorem passingName_injective : Function.Injective passingName := by
  intro n n' h
  have hvalue (n : Nat) : Nat.ofDigitChars 10 (Text.repeated (6 - (Text.decimal n).length) "0" ++
      Text.decimal n) 0 = n := by
    have hzeros : Text.repeated (6 - (Text.decimal n).length) "0" =
        List.replicate (6 - (Text.decimal n).length) '0' := by
      simp [Text.repeated]
    rw [hzeros, Nat.ofDigitChars_append, Nat.ofDigitChars_replicate_zero, Nat.mul_zero, Text.decimal,
      Nat.ofDigitChars_ten_toDigits]
  rw [passingName, passingName, List.append_assoc, List.append_assoc] at h
  rw [← hvalue n, ← hvalue n', List.append_cancel_left h]

/-- Of one number more than a list has members some is that of a name which is not in it. -/
theorem exists_free (names : List Text) : ∃ n ≤ names.length, passingName n ∉ names := by
  by_contra h
  push Not at h
  have hsub : (List.range (names.length + 1)).map passingName ⊆ names := by
    intro name hname
    obtain ⟨n, hn, rfl⟩ := List.mem_map.mp hname
    exact h n (Nat.lt_succ_iff.mp (List.mem_range.mp hn))
  have hnodup : ((List.range (names.length + 1)).map passingName).Nodup :=
    List.nodup_range.map passingName_injective
  have hlen := (hnodup.subperm hsub).length_le
  rw [List.length_map, List.length_range] at hlen
  omega

/-- **The fresh name of a directory** is free there, and its number is no greater than that of the nodes. -/
theorem exists_freshName (d : Disk) (at_ : Place) :
    ∃ n ≤ d.nodes.length, d.freshName at_ = passingName n ∧ d.node? (at_ ++ [passingName n]) = none := by
  -- some number up to that of the nodes is free, since each node takes one name at most
  obtain ⟨n, hn, hfree⟩ := exists_free (d.nodes.map fun e => e.1.getLast?.getD [])
  have hnone : d.node? (at_ ++ [passingName n]) = none := by
    refine (node?_eq_none_iff (by simp)).mpr fun hmem => hfree ?_
    obtain ⟨e, he, hplace⟩ := List.mem_map.mp hmem
    refine List.mem_map.mpr ⟨e, he, ?_⟩
    rw [hplace, List.getLast?_concat, Option.getD_some]
  rw [List.length_map] at hn
  rw [freshName]
  cases hfind : (List.range d.nodes.length).find? fun n =>
    (d.node? (at_ ++ [passingName n])).isNone with
  | some k =>
    have hk := List.mem_range.mp (List.mem_of_find?_eq_some hfind)
    have hfound := List.find?_some hfind
    exact ⟨k, Nat.le_of_lt hk, rfl, by simpa using hfound⟩
  | none =>
    have htaken := List.find?_eq_none.mp hfind
    obtain rfl : n = d.nodes.length := by
      by_contra hne
      exact htaken n (List.mem_range.mpr (by omega)) (by simp [hnone])
    exact ⟨_, Nat.le_refl _, rfl, hnone⟩

/-! ### Room -/

/-- **Room beside the files of a directory**: names up to a number can be spelled there. -/
def RoomBeside (bound : Nat) (dir : Path) : Prop :=
  ∀ n ≤ bound, (Text.toBytes (passingName n)).size ≤ maxName ∧ Spelled (dir.join ⟨passingName n⟩)

theorem RoomBeside.mono {bound bound' : Nat} (h : RoomBeside bound dir) (hle : bound' ≤ bound) :
    RoomBeside bound' dir :=
  fun n hn => h n (Nat.le_trans hn hle)

/-- What can be spelled with a name behind it can be spelled. -/
theorem spelled_of_join {name : Text} (hl : Path.lead ⟨name⟩ ≠ .root) (hd : dir.text ≠ [])
    (h : Spelled (dir.join ⟨name⟩)) : Spelled dir := by
  obtain ⟨hnul, -, hlen⟩ := h
  obtain ⟨more, hmore⟩ : ∃ more, (dir.join ⟨name⟩).text = dir.text ++ more := by
    rw [Path.join, if_neg (by simpa [Path.isAbsolute] using hl)]
    split
    · exact ⟨_, rfl⟩
    · exact ⟨_, List.append_assoc _ _ _⟩
  rw [hmore] at hnul hlen
  refine ⟨?_, hd, Nat.lt_of_le_of_lt ?_ hlen⟩
  · rw [List.contains_append, Bool.or_eq_false_iff] at hnul
    exact hnul.1
  · rw [Text.toBytes, Text.toBytes, String.ofList_append, String.toByteArray_append, ByteArray.size_append]
    exact Nat.le_add_right _ _

/-- **A new file can be made** in a directory that is there and has room, unless it is refused. -/
theorem exists_create (hroom : RoomBeside d.nodes.length dir) (hdir : d.follow [] dir.components = .ok at_)
    (hnode : d.node? at_ = some .directory) (hcreate : ∀ q, d.refuses (.create q) = none) :
    ∃ p d', d.create dir = .ok (p, d') := by
  obtain ⟨n, hn, hname, hfree⟩ := exists_freshName d at_
  obtain ⟨hsize, hspelled⟩ := hroom n hn
  have hisName := isName_passingName n
  have hfrom : (d.locate [] dir).toOption.getD [] = at_ := by
    by_cases hd : dir.text = []
    · obtain ⟨t⟩ := dir
      obtain rfl : t = [] := hd
      cases hdir
      rfl
    · have hs := spelled_of_join (by simp [hisName.lead]) hd hspelled
      have hlocate : d.locate [] dir = .ok at_ :=
        locate_eq_ok.mpr ⟨hs, hdir, fun _ b hb => by rw [hnode] at hb; cases hb⟩
      rw [hlocate]
      rfl
  have hpath : d.freshPath dir = dir.join ⟨passingName n⟩ := by
    rw [freshPath, hfrom, hname]
  have hlocate : d.locate [] (d.freshPath dir) = .ok (at_ ++ [passingName n]) := by
    rw [hpath]
    refine locate_eq_ok.mpr ⟨hspelled, ?_, fun hasks => ?_⟩
    · rw [Path.components_join_of_bare hisName.lead, hisName.body, follow_append_eq_ok]
      exact ⟨at_, hdir, follow_name_eq_ok.mpr ⟨hnode, Nat.not_lt.mpr hsize, rfl⟩⟩
    · rw [asksDirectory_join_name dir hisName] at hasks
      cases hasks
  rw [create, hlocate]
  dsimp only
  rw [hfree, if_neg (by simp), hcreate]
  exact ⟨_, _, rfl⟩

end Disk

/-! ### Room for the files of steps -/

namespace Disk

variable {d d' : Disk} {root : Path} {steps more : List EditStep}

/-- **The directory of a file** is there. -/
theorem exists_directory_of_hasFile {rel : Path} (hesc : rel.escapes = false)
    (h : d.hasFile (root.join rel)) :
    ∃ at_, d.follow [] ((root.join rel).parent?.getD root).components = .ok at_ ∧
      d.node? at_ = some .directory := by
  obtain ⟨hl, hup⟩ := Path.escapes_eq_false.mp hesc
  have hb := body_ne_nil_of_hasFile hesc h
  have hjoin : (root.join rel).body = root.body ++ rel.body := Path.body_join hl
  obtain ⟨dir, hdir, hlead, hbody⟩ := Path.exists_parent (p := root.join rel) (by simp [hjoin, hb])
  obtain ⟨q, b, hfind⟩ := Disk.hasFile_iff.mp h
  obtain ⟨-, -, hf, -⟩ := find_file_eq_ok.mp hfind
  -- the last component is a name, and it is looked up in the directory
  obtain ⟨n, hn⟩ := exists_name_of_mem_body hup (List.getLast_mem hb)
  have hlast : (root.join rel).components = dir.components ++ [.name n] := by
    rw [Path.components_eq, Path.components_eq dir, hlead, hbody, List.append_assoc, hjoin,
      List.dropLast_append_of_ne_nil hb, List.append_assoc, ← hn, List.dropLast_concat_getLast]
  rw [hlast, follow_append_eq_ok] at hf
  obtain ⟨at_, hat, hname⟩ := hf
  exact ⟨at_, by rwa [hdir, Option.getD_some], (follow_name_eq_ok.mp hname).1⟩

/-- **A disk on which the files of some steps can be written**: no copy is refused, and there is room for
one beside each of the files that are there. -/
structure Writable (d : Disk) (root : Path) (steps : List EditStep) : Prop where
  create : ∀ q, d.refuses (.create q) = none
  fill : ∀ q, d.refuses (.fill q) = none
  room : ∀ s ∈ steps, d.hasFile (root.join ⟨s.file⟩) →
    RoomBeside (d.nodes.length + steps.length) ((root.join ⟨s.file⟩).parent?.getD root)

/-- A disk that can be written still can when files have other contents. -/
theorem Writable.of_rewritten (h : d.Writable root steps) (hd : Rewritten d d') (hmore : more.Sublist steps) :
    d'.Writable root more where
  create q := by rw [hd.refuses, h.create]
  fill q := by rw [hd.refuses, h.fill]
  room s hs hfile := by
    rw [hd.hasFile_iff] at hfile
    refine (h.room s (hmore.subset hs) hfile).mono ?_
    rw [hd.length_eq]
    exact Nat.add_le_add_left hmore.length_le _

end Disk

/-! ### Writing drafts -/

namespace Drafts

open Disk (Beside Copy RoomBeside)

variable {d : Disk} {root p : Path} {ds : Drafts} {c : Copy} {cs : List Copy} {steps done : List EditStep}

/-- A copy that is not refused its content is finished. -/
theorem run_finish_of_fill (h : Beside d (cs ++ [c])) (hfill : d.refuses (.fill c.place) = none)
    (hp : d.hasFile p) (content : Text) :
    (finish ⟨c.path, p⟩ content).run (d.withCopies (cs ++ [c])) =
      (.ok (.ok ()), d.withCopies (cs ++ [{ c with content := Text.toBytes content }])) := by
  obtain ⟨q, b, hfind⟩ := Disk.hasFile_iff.mp hp
  rw [finish, FileTask.run_bind, FileTask.run_ask, Disk.answer]
  dsimp only
  rw [Disk.fill_last h, hfill]
  dsimp only [Disk.changed]
  rw [FileTask.run_ask, Disk.answer, Disk.find_withCopies hfind]

/-- **All copies can be staged** if each has room for its number, whatever copies there are already. -/
theorem exists_stageAll {made : List (Copy × Path × Text)} {staged : List Staged}
    (h : Prepared d made staged) (hcreate : ∀ q, d.refuses (.create q) = none)
    (hfill : ∀ q, d.refuses (.fill q) = none) (hfiles : ∀ e ∈ ds, d.hasFile e.1)
    (hdirs : ∀ e ∈ ds, ∃ at_, d.follow [] (e.1.parent?.getD root).components = .ok at_ ∧
      d.node? at_ = some .directory)
    (hroom : ∀ e ∈ ds, RoomBeside (d.nodes.length + made.length + ds.length) (e.1.parent?.getD root)) :
    ∃ staged', ((stageAll root staged ds).run (d.withCopies (made.map Prod.fst))).1 = .ok staged' := by
  induction ds generalizing made staged with
  | nil => exact ⟨staged, rfl⟩
  | cons draft more ih =>
    obtain ⟨p, content⟩ := draft
    rw [List.forall_mem_cons] at hfiles hdirs
    obtain ⟨at_, hat, hnode⟩ := hdirs.1
    have hsame := Disk.sameDirectories_withCopies d (made.map Prod.fst)
    have hnodes : (d.withCopies (made.map Prod.fst)).nodes.length = d.nodes.length + made.length := by
      simp [Disk.withCopies]
    -- the names that are tried have numbers up to that of the nodes, copies included
    have hnow : RoomBeside (d.withCopies (made.map Prod.fst)).nodes.length (p.parent?.getD root) :=
      (hroom (p, content) List.mem_cons_self).mono (by rw [hnodes]; exact Nat.le_add_right _ _)
    obtain ⟨copy, d₁, hcopy⟩ := Disk.exists_create hnow (hsame.follow hat) ((hsame at_).mp hnode) hcreate
    obtain ⟨q, hbeside, rfl⟩ := Disk.exists_copy_of_create h.beside hcopy
    have hfinish := run_finish_of_fill hbeside (hfill q) hfiles.1 content
    rw [stageAll, FileTask.run_bind, FileTask.run_ask, Disk.answer]
    dsimp only
    rw [hcopy]
    dsimp only
    rw [FileTask.run_bind, hfinish]
    have hprepared := h.append (p := p) (hbeside.refill (Text.toBytes content)) rfl
    have hmore := ih hprepared hfiles.2 hdirs.2 fun e he => by
      have := hroom e (List.mem_cons_of_mem _ he)
      simpa [Nat.add_assoc, Nat.add_comm 1] using this
    simpa using hmore

/-- There are no more drafts than steps. -/
theorem Resolved.length_le (h : Resolved d root done ds) : ds.length ≤ done.length := by
  have hsub : ds.keys ⊆ done.map fun s => (root.join ⟨s.file⟩).components := by
    intro key hkey
    obtain ⟨e, he, rfl⟩ := List.mem_map.mp hkey
    obtain ⟨s, hs, hname⟩ := h.named e he
    exact List.mem_map.mpr ⟨s, hs, by rw [hname]⟩
  have := (h.distinct.subperm hsub).length_le
  rwa [keys, List.length_map, List.length_map] at this

/-- **Drafts are written** on a disk that can be. -/
theorem run_write_of_writable (hw : d.Writable root steps) (h : Resolved d root steps ds) :
    (write root ds).run d = (.ok (), written d ds) := by
  have hdraft : ∀ e ∈ ds, (∃ at_, d.follow [] (e.1.parent?.getD root).components = .ok at_ ∧
      d.node? at_ = some .directory) ∧
      RoomBeside (d.nodes.length + steps.length) (e.1.parent?.getD root) := by
    intro e he
    obtain ⟨s, hs, hname⟩ := h.named e he
    have hfile := h.hasFile e he
    rw [hname] at hfile ⊢
    exact ⟨Disk.exists_directory_of_hasFile (h.covered s hs).1 hfile, hw.room s hs hfile⟩
  have hstage := exists_stageAll (prepared_nil d) hw.create hw.fill h.hasFile
    (fun e he => (hdraft e he).1) fun e he => (hdraft e he).2.mono (by simpa using h.length_le)
  obtain ⟨staged, hstaged⟩ := hstage
  rw [List.map_nil, Disk.withCopies_nil] at hstaged
  exact run_write_of_staged h.hasFile hstaged

end Drafts

end BuildMender
