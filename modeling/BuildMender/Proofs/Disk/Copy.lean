import BuildMender.Proofs.Disk.Place
import BuildMender.FileTask
import Mathlib.Data.List.Nodup

/-!
# Copies come and go

A copy is put beside a file and is later removed, or moved over the file. What has to be known about
copies is that nothing else notices them: a disk with copies is the disk without them and, after all
its nodes, the copies in the order in which they were made (`BuildMender.Disk.withCopies`). So removing
them gives the disk itself back and not one like it.

What makes this work is that the copies stand *beside* the disk (`BuildMender.Disk.Beside`): their paths
lead to places of their own, at which the disk has nothing. A new copy stands there because its name is
a fresh one (`BuildMender.Disk.exists_copy_of_create`), and the copies that are left keep standing there
when one of them takes the place of a file (`BuildMender.Disk.rename_copy`).
-/

namespace BuildMender

namespace Disk

open Path (slashed idle IsName)

variable {d : Disk} {p : Path} {q : Place} {b : ByteArray}

/-! ### The names of copies -/

theorem isName_passingName (n : Nat) : IsName (passingName n) := by
  have hdigit : ∀ c ∈ Text.decimal n, c ≠ '/' := fun c hc h =>
    absurd (Nat.isDigit_of_mem_toDigits (by decide) (by decide) hc) (by rw [h]; decide)
  refine ⟨fun h => ?_, rfl, nofun⟩
  rw [passingName, List.mem_append, List.mem_append] at h
  rcases h with (h | h) | h
  · revert h
    decide
  · have : ∀ k, '/' ∉ Text.repeated k "0" := by
      intro k hk
      simp [Text.repeated] at hk
    exact this _ h
  · exact hdigit _ h rfl

/-- A path that asks for a directory ends with a piece that names nothing. -/
theorem idle_of_asksDirectory (h : asksDirectory p) :
    ∃ ps t, slashed p.text = ps ++ [t] ∧ idle t := by
  rw [asksDirectory, Bool.or_eq_true] at h
  rcases h with h | h
  · obtain ⟨a, ha⟩ := List.isSuffixOf_iff_suffix.mp h
    exact ⟨slashed a, [], by rw [← ha]; exact Path.slashed_append_cons a [], rfl⟩
  · obtain ⟨a, ha⟩ := List.isSuffixOf_iff_suffix.mp h
    exact ⟨slashed a, ['.'], by rw [← ha]; exact Path.slashed_append_cons a ['.'], rfl⟩

/-- A path that ends with a name asks for no directory. -/
theorem asksDirectory_join_name (dir : Path) {n : Text} (hn : IsName n) :
    asksDirectory (dir.join ⟨n⟩) = false := by
  by_contra hc
  obtain ⟨ps, t, hp, ht⟩ := idle_of_asksDirectory (eq_true_of_ne_false hc)
  have hlast : n = t := by
    by_cases hd : dir.text = []
    · rw [Path.join_of_empty hd, hn.slashed] at hp
      have happend : [] ++ [n] = ps ++ [t] := hp
      exact List.singleton_inj.mp (List.append_inj' happend rfl).2
    · have hroot : Path.lead ⟨n⟩ ≠ .root := by simp [hn.lead]
      obtain ⟨qs, -, -, hj⟩ := Path.slashed_join hroot hd
      rw [hj, hn.slashed] at hp
      exact List.singleton_inj.mp (List.append_inj' hp rfl).2
  rw [← hlast, hn.not_idle] at ht
  cases ht

/-! ### A disk with copies -/

/-- A copy: its path, the place it leads to, and the content it has so far. -/
structure Copy where
  path : Path
  place : Place
  content : ByteArray

/-- What a copy adds to a tree. -/
def Copy.entry (c : Copy) : Place × Node := (c.place, .file c.content)

/-- A disk with copies, in the order in which they were made. -/
def withCopies (d : Disk) (cs : List Copy) : Disk := { d with nodes := d.nodes ++ cs.map Copy.entry }

/-- **Copies beside a disk**: their paths lead to different places at which the disk has nothing. -/
structure Beside (d : Disk) (cs : List Copy) : Prop where
  leads : ∀ c ∈ cs, Spelled c.path ∧ asksDirectory c.path = false ∧
    d.follow [] c.path.components = .ok c.place
  free : ∀ c ∈ cs, c.place ≠ [] ∧ c.place ∉ d.nodes.map Prod.fst
  distinct : (cs.map Copy.place).Nodup

variable {c : Copy} {cs cs' : List Copy}

@[simp] theorem withCopies_nil (d : Disk) : d.withCopies [] = d := by
  simp [withCopies]

@[simp] theorem refuses_withCopies : (d.withCopies cs).refuses = d.refuses := rfl

theorem beside_nil (d : Disk) : Beside d [] := ⟨nofun, nofun, List.nodup_nil⟩

/-- Some copies may be left out. -/
theorem Beside.sublist (h : Beside d cs) (hs : cs'.Sublist cs) : Beside d cs' where
  leads c hc := h.leads c (hs.subset hc)
  free c hc := h.free c (hs.subset hc)
  distinct := h.distinct.sublist (hs.map _)

theorem node?_withCopies (h : q ≠ []) :
    (d.withCopies cs).node? q = (d.node? q).or ((cs.map Copy.entry).lookup q) := by
  rw [node?_of_ne h, node?_of_ne h, withCopies, List.lookup_append]

theorem lookup_entry_ne_directory (cs : List Copy) (q : Place) :
    (cs.map Copy.entry).lookup q ≠ some .directory := by
  induction cs with
  | nil => exact nofun
  | cons c cs ih =>
    by_cases hq : q = c.place
    · rw [List.map_cons, Copy.entry, hq, List.lookup_cons_self]
      exact nofun
    · rwa [List.map_cons, Copy.entry, lookup_cons_of_ne hq]

theorem lookup_entry_of_mem (hd : (cs.map Copy.place).Nodup) (hc : c ∈ cs) :
    (cs.map Copy.entry).lookup c.place = some (.file c.content) := by
  induction cs with
  | nil => cases hc
  | cons c' cs ih =>
    rw [List.map_cons, List.nodup_cons] at hd
    rcases List.mem_cons.mp hc with rfl | hc
    · exact List.lookup_cons_self
    · have hne : c.place ≠ c'.place := fun h => hd.1 (h ▸ List.mem_map_of_mem hc)
      rw [List.map_cons, Copy.entry, lookup_cons_of_ne hne, ih hd.2 hc]

/-- Copies are no directories. -/
theorem sameDirectories_withCopies (d : Disk) (cs : List Copy) :
    SameDirectories d (d.withCopies cs) := by
  intro q
  by_cases hq : q = []
  · simp [hq]
  · rw [node?_withCopies hq]
    have := lookup_entry_ne_directory cs q
    cases h : d.node? q <;> simp [this]

theorem node?_copy (h : Beside d cs) (hc : c ∈ cs) :
    (d.withCopies cs).node? c.place = some (.file c.content) := by
  obtain ⟨hne, hfree⟩ := h.free c hc
  rw [node?_withCopies hne, (node?_eq_none_iff hne).mpr hfree, Option.none_or,
    lookup_entry_of_mem h.distinct hc]

/-- **A copy is found** at its path. -/
theorem find_copy (h : Beside d cs) (hc : c ∈ cs) :
    (d.withCopies cs).find [] c.path = .ok (c.place, .file c.content) := by
  obtain ⟨hs, ha, hf⟩ := h.leads c hc
  exact find_file_eq_ok.mpr ⟨hs, ha, (sameDirectories_withCopies d cs).follow hf, node?_copy h hc⟩

/-- A file is found among copies where it was found without them. -/
theorem find_withCopies (h : d.find [] p = .ok (q, .file b)) :
    (d.withCopies cs).find [] p = .ok (q, .file b) := by
  obtain ⟨hs, ha, hf, hn⟩ := find_file_eq_ok.mp h
  refine find_file_eq_ok.mpr ⟨hs, ha, (sameDirectories_withCopies d cs).follow hf, ?_⟩
  have hne : q ≠ [] := fun hq => by simp [hq] at hn
  rw [node?_withCopies hne, hn, Option.some_or]

/-! ### A copy removed -/

theorem filter_nodes_of_free (h : q ∉ d.nodes.map Prod.fst) :
    (d.nodes.filter fun e => e.1 != q) = d.nodes := by
  rw [List.filter_eq_self]
  intro e he
  rw [bne_iff_ne]
  exact fun hq => h (hq ▸ List.mem_map_of_mem he)

theorem filter_entry_of_free (h : q ∉ cs.map Copy.place) :
    ((cs.map Copy.entry).filter fun e => e.1 != q) = cs.map Copy.entry := by
  rw [List.filter_eq_self]
  intro e he
  obtain ⟨c, hc, rfl⟩ := List.mem_map.mp he
  rw [bne_iff_ne]
  exact fun hq => h (hq ▸ List.mem_map_of_mem hc)

theorem erase_copy {cs : List Copy} (h : Beside d (cs ++ c :: cs')) :
    (d.withCopies (cs ++ c :: cs')).erase c.place = d.withCopies (cs ++ cs') := by
  have hd := h.distinct
  rw [List.map_append, List.map_cons, List.nodup_middle, List.nodup_cons, List.mem_append, not_or] at hd
  have hfree := (h.free c (by simp)).2
  simp only [erase, withCopies, List.map_append, List.map_cons, List.filter_append, List.filter_cons]
  rw [filter_nodes_of_free hfree, filter_entry_of_free hd.1.1, filter_entry_of_free hd.1.2]
  simp [Copy.entry]

/-- **A copy removed** leaves the disk and the other copies. -/
theorem remove_copy (h : Beside d (cs ++ c :: cs')) :
    (d.withCopies (cs ++ c :: cs')).remove c.path = d.withCopies (cs ++ cs') := by
  rw [remove, find_copy h (by simp : c ∈ cs ++ c :: cs')]
  exact erase_copy h

/-! ### A copy made -/

theorem put_of_free {n : Node} (h : q ∉ d.nodes.map Prod.fst) :
    d.put q n = { d with nodes := d.nodes ++ [(q, n)] } := by
  rw [put, if_neg (by simpa using h)]

/-- A new file gets the fresh name of its directory. -/
theorem eq_freshPath_of_create {dir : Path} (h : (d.answer (.create dir)).1 = .ok p) :
    p = d.freshPath dir := by
  rw [answer, create] at h
  split at h
  · rename_i hc
    split at hc
    · cases hc
    · split at hc
      · cases hc
      · split at hc
        · cases hc
        · cases hc
          exact (Except.ok.inj h).symm
  · cases h

/-- **A new copy** stands beside the disk as those before it do. -/
theorem exists_copy_of_create {dir : Path} {d' : Disk} (h : Beside d cs)
    (hc : (d.withCopies cs).create dir = .ok (p, d')) :
    ∃ q, Beside d (cs ++ [⟨p, q, ⟨#[]⟩⟩]) ∧ d' = d.withCopies (cs ++ [⟨p, q, ⟨#[]⟩⟩]) := by
  rw [create] at hc
  split at hc
  · cases hc
  rename_i q hq
  split at hc
  · cases hc
  rename_i hnone
  split at hc
  · cases hc
  obtain ⟨rfl, rfl⟩ := Prod.mk.inj (Except.ok.inj hc)
  have hne : q ≠ [] := fun h => by simp [h] at hnone
  obtain ⟨hs, hf, -⟩ := locate_eq_ok.mp hq
  have hfree : q ∉ (d.withCopies cs).nodes.map Prod.fst :=
    (node?_eq_none_iff hne).mp (Option.not_isSome_iff_eq_none.mp hnone)
  have hsplit : q ∉ d.nodes.map Prod.fst ∧ q ∉ cs.map Copy.place := by
    rw [withCopies, List.map_append, List.mem_append, not_or, List.map_map] at hfree
    exact hfree
  refine ⟨q, ⟨?_, ?_, ?_⟩, ?_⟩
  · intro c hc
    rcases List.mem_append.mp hc with hc | hc
    · exact h.leads c hc
    · obtain rfl := List.mem_singleton.mp hc
      exact ⟨hs, asksDirectory_join_name dir (isName_passingName _),
        (sameDirectories_withCopies d cs).symm.follow hf⟩
  · intro c hc
    rcases List.mem_append.mp hc with hc | hc
    · exact h.free c hc
    · obtain rfl := List.mem_singleton.mp hc
      exact ⟨hne, hsplit.1⟩
  · rw [List.map_append, List.nodup_append_comm]
    exact List.nodup_cons.mpr ⟨hsplit.2, h.distinct⟩
  · rw [put_of_free hfree]
    simp [withCopies, Copy.entry]

/-- The content of a copy plays no part in where it stands. -/
theorem Beside.refill (h : Beside d (cs ++ [c])) (b : ByteArray) :
    Beside d (cs ++ [{ c with content := b }]) where
  leads c' hc := by
    rcases List.mem_append.mp hc with hc | hc
    · exact h.leads c' (List.mem_append_left _ hc)
    · obtain rfl := List.mem_singleton.mp hc
      exact h.leads c (by simp)
  free c' hc := by
    rcases List.mem_append.mp hc with hc | hc
    · exact h.free c' (List.mem_append_left _ hc)
    · obtain rfl := List.mem_singleton.mp hc
      exact h.free c (by simp)
  distinct := by simpa using h.distinct

theorem map_update_of_free {es : List (Place × Node)} {n : Node} (h : q ∉ es.map Prod.fst) :
    (es.map fun e => if e.1 == q then (e.1, n) else e) = es := by
  refine (List.map_congr_left fun e he => ?_).trans (List.map_id es)
  have hne : e.1 ≠ q := fun hq => h (hq ▸ List.mem_map_of_mem he)
  rw [beq_false_of_ne hne]
  rfl

theorem map_fst_entry (cs : List Copy) : (cs.map Copy.entry).map Prod.fst = cs.map Copy.place := by
  rw [List.map_map]
  rfl

theorem put_last (h : Beside d (cs ++ [c])) (b : ByteArray) :
    (d.withCopies (cs ++ [c])).put c.place (.file b) =
      d.withCopies (cs ++ [{ c with content := b }]) := by
  have hd := h.distinct
  rw [List.map_append, List.nodup_append_comm] at hd
  have hcs : c.place ∉ (cs.map Copy.entry).map Prod.fst := by
    rw [map_fst_entry]
    exact (List.nodup_cons.mp hd).1
  have hfree := (h.free c (by simp)).2
  rw [put, if_pos (by simp [withCopies, Copy.entry])]
  simp only [withCopies, List.map_append]
  rw [map_update_of_free hfree, map_update_of_free hcs]
  simp [Copy.entry]

/-- **The last copy given its content**: nothing else changes, or nothing at all. -/
theorem fill_last (h : Beside d (cs ++ [c])) (t : Text) :
    (d.withCopies (cs ++ [c])).fill c.path t =
      match d.refuses (.fill c.place) with
      | some e => .error e
      | none => .ok (d.withCopies (cs ++ [{ c with content := Text.toBytes t }])) := by
  have hfind := find_copy h (by simp : c ∈ cs ++ [c])
  cases hr : d.refuses (.fill c.place) with
  | some e => simp [fill, hfind, hr]
  | none => simp [fill, hfind, hr, put_last h]

/-! ### A copy moved over a file -/

/-- A file that is there given another content. -/
def replace (d : Disk) (p : Path) (t : Text) : Disk :=
  match d.find [] p with
  | .ok (at_, .file _) => d.put at_ (.file (Text.toBytes t))
  | _ => d

theorem replace_of_find (h : d.find [] p = .ok (q, .file b)) (t : Text) :
    d.replace p t = d.put q (.file (Text.toBytes t)) := by
  rw [replace, h]

theorem ne_nil_of_file (h : d.node? q = some (.file b)) : q ≠ [] := fun hq => by simp [hq] at h

theorem mem_places_of_file (h : d.node? q = some (.file b)) : q ∈ d.nodes.map Prod.fst :=
  (node?_isSome_iff (ne_nil_of_file h)).mp (by rw [h]; rfl)

/-- What stands where after a file was given another content. -/
theorem node?_replace (h : d.find [] p = .ok (q, .file b)) (t : Text) (r : Place) :
    (d.replace p t).node? r = if r = q then some (.file (Text.toBytes t)) else d.node? r := by
  rw [replace_of_find h, node?_put (ne_nil_of_file (find_eq_ok.mp h).2)]

/-- A file with another content leaves the directories as they are. -/
theorem sameDirectories_put (h : d.node? q = some (.file b)) (b' : ByteArray) :
    SameDirectories d (d.put q (.file b')) := by
  intro r
  rw [node?_put (ne_nil_of_file h)]
  split
  · rename_i hr
    simp [hr, h]
  · rfl

theorem sameDirectories_replace (d : Disk) (p : Path) (t : Text) :
    SameDirectories d (d.replace p t) := by
  rw [replace]
  split
  · rename_i q b h
    exact sameDirectories_put (find_eq_ok.mp h).2 _
  · exact fun _ => Iff.rfl

theorem map_fst_replace (d : Disk) (p : Path) (t : Text) :
    (d.replace p t).nodes.map Prod.fst = d.nodes.map Prod.fst := by
  rw [replace]
  split
  · rename_i q b h
    exact map_fst_put (mem_places_of_file (find_eq_ok.mp h).2)
  · rfl

/-- Files that were there are there still, at the same places. -/
theorem hasFile_replace {p' : Path} (h : d.hasFile p) (t : Text) : (d.replace p' t).hasFile p := by
  obtain ⟨q, b, h⟩ := hasFile_iff.mp h
  obtain ⟨hs, ha, hf, hn⟩ := find_file_eq_ok.mp h
  have hn' : ∃ b', (d.replace p' t).node? q = some (.file b') := by
    by_cases hp' : ∃ q' b', d.find [] p' = .ok (q', .file b')
    · obtain ⟨q', b', hp'⟩ := hp'
      rw [node?_replace hp']
      split
      · exact ⟨_, rfl⟩
      · exact ⟨b, hn⟩
    · rw [replace]
      split
      · rename_i q' b' hf'
        exact absurd ⟨q', b', hf'⟩ hp'
      · exact ⟨b, hn⟩
  obtain ⟨b', hn'⟩ := hn'
  exact hasFile_iff.mpr ⟨q, b', find_file_eq_ok.mpr
    ⟨hs, ha, (sameDirectories_replace d p' t).follow hf, hn'⟩⟩

/-- Copies stand beside a disk as long as it has the same places and directories. -/
theorem Beside.replace (h : Beside d cs) (p : Path) (t : Text) : Beside (d.replace p t) cs where
  leads c hc := by
    obtain ⟨hs, ha, hf⟩ := h.leads c hc
    exact ⟨hs, ha, (sameDirectories_replace d p t).follow hf⟩
  free c hc := by
    rw [map_fst_replace]
    exact h.free c hc
  distinct := h.distinct

theorem put_withCopies {n : Node} (hq : q ∈ d.nodes.map Prod.fst) (h : q ∉ cs.map Copy.place) :
    (d.withCopies cs).put q n = (d.put q n).withCopies cs := by
  have hin : (d.withCopies cs).nodes.any (fun e => e.1 == q) := by
    obtain ⟨e, he, heq⟩ := List.mem_map.mp hq
    exact List.any_eq_true.mpr ⟨e, List.mem_append_left _ he, by simp [heq]⟩
  have hcopies : q ∉ (cs.map Copy.entry).map Prod.fst := by rwa [map_fst_entry]
  rw [put, if_pos hin, put, if_pos (by simpa using hq)]
  simp only [withCopies, List.map_append]
  rw [map_update_of_free hcopies]

/-- **A copy moved over its file**: the file has the content of the copy, and the other copies stand
where they stood. -/
theorem rename_copy {t : Text} (h : Beside d (c :: cs)) (hc : c.content = Text.toBytes t)
    (hp : d.hasFile p) :
    (d.withCopies (c :: cs)).rename c.path p = .ok ((d.replace p t).withCopies cs) := by
  obtain ⟨q, b, hp⟩ := hasFile_iff.mp hp
  have hfind : (d.withCopies (c :: cs)).find [] p = .ok (q, .file b) := find_withCopies hp
  obtain ⟨hl, hn⟩ := find_eq_ok.mp hfind
  have hmem := mem_places_of_file (find_eq_ok.mp hp).2
  have hother : q ∉ cs.map Copy.place := by
    intro hq
    obtain ⟨c', hc', rfl⟩ := List.mem_map.mp hq
    exact (h.free c' (List.mem_cons_of_mem _ hc')).2 hmem
  rw [rename, find_copy h List.mem_cons_self]
  simp only [hl, hn]
  -- the copy goes first, so that the file is put on a disk with the others only
  have hfirst : Beside d ([] ++ c :: cs) := h
  have herase : (d.withCopies (c :: cs)).erase c.place = d.withCopies cs := erase_copy hfirst
  rw [herase, put_withCopies hmem hother, hc, replace_of_find hp]

end Disk

end BuildMender
