import BuildMender.FileView.Memory
import BuildMender.Proofs.Path.Relative
import BuildMender.Proofs.Text.ByteOrder
import Mathlib.Data.List.Pairwise

/-!
# What is found among files held in memory

Looking up a path after something was put there is settled by one case distinction
(`BuildMender.MemoryFiles.find?_put`), and so it is after directories were made
(`BuildMender.MemoryFiles.find?_makeDirectories`): what is made are the paths whose components begin the
directory's. From this follows what a whole tree of files looks like that was added below a directory
(`BuildMender.MemoryFiles.plant`): seen from that directory it looks the same wherever it stands
(`BuildMender.MemoryFiles.find?_plant`).

Listing a directory goes over the entries themselves, and not over what is found at a path. The two agree because
no path is entered twice, however files and directories are added (`BuildMender.MemoryFiles.distinct_ofAdded`), so
that what stands in the list is what is found (`BuildMender.MemoryFiles.find?_eq_some`). Then two entries of one
directory have two names, and they are listed in the order of these.
-/

namespace BuildMender

namespace Path

variable {p : Path} {c : Component}

/-- A component that is what its spelling means. -/
def Component.IsPart (c : Component) : Prop := body ⟨c.text⟩ = [c] ∧ lead ⟨c.text⟩ ≠ .root

theorem isPart_of_mem_body (h : c ∈ p.body) : c.IsPart := by
  rw [body_eq, active, List.mem_map] at h
  obtain ⟨piece, hpiece, rfl⟩ := h
  obtain ⟨hmem, hidle⟩ := List.mem_filter.mp hpiece
  have hidle : idle piece = false := by simpa using hidle
  have htext : (component piece).text = piece := by
    rw [component]
    split
    · rename_i h
      exact h.symm
    · rfl
  have hslashed : slashed piece = [piece] :=
    Text.split_of_none fun _ hc hs => not_mem_of_mem_slashed hmem (of_decide_eq_true hs ▸ hc)
  rw [Component.IsPart, htext]
  refine ⟨?_, ?_⟩
  · rw [body_eq, hslashed]
    simp [active, hidle]
  · rw [lead_eq, hslashed]
    unfold leadOf
    split <;> simp_all

end Path

namespace MemoryFiles

open Path

variable {m : MemoryFiles} {p q root : Path} {content : Option Text} {cs : List Component}

/-! ### Putting -/

/-- A path is found after something was put there, and all else is found as before. -/
theorem find?_put : (m.put q content).find? p = if q.same p then some content else m.find? p := by
  have hsame {a : Path} (ha : a.same q) : a.same p = q.same p := by
    rw [same, same, eq_of_beq ha]
  have hback {a : Path} (ha : a.same p) (hq : q.same p) : a.same q := by
    rw [same, eq_of_beq ha, eq_of_beq hq, beq_self_eq_true]
  rw [put]
  split
  · rename_i hany
    have hkept : (fun e : Path × Option Text => e.1.same p) ∘
        (fun e : Path × Option Text => if e.1.same q then (e.1, content) else e) =
          fun e => e.1.same p := by
      funext e
      simp only [Function.comp_apply]
      split <;> rfl
    rw [find?, find?]
    simp only [List.find?_map, hkept]
    cases hfind : m.entries.find? fun e => e.1.same p with
    | none =>
      obtain ⟨e, he, heq⟩ := List.any_eq_true.mp hany
      have hne := List.find?_eq_none.mp hfind e he
      rw [hsame heq] at hne
      rw [if_neg hne]
      rfl
    | some e =>
      have he : e.1.same p := by simpa using List.find?_some hfind
      by_cases hq : q.same p
      · simp [hq, hback he hq]
      · have hne : ¬e.1.same q := fun heq => hq (hsame heq ▸ he)
        simp [hq, hne]
  · rename_i hany
    have hnone : ∀ e ∈ m.entries, e.1.same q = false := by simpa using hany
    rw [find?, find?]
    simp only [List.find?_append]
    by_cases hq : q.same p
    · have : (m.entries.find? fun e => e.1.same p) = none := by
        refine List.find?_eq_none.mpr fun e he hep => ?_
        have hne := hnone e he
        rw [hback hep hq] at hne
        cases hne
      simp [this, hq]
    · cases m.entries.find? fun e => e.1.same p <;> simp [hq]

/-! ### Making directories -/

theorem components_ofComponents (h : ∀ c ∈ cs, c.IsPart) :
    (ofComponents (.root :: cs)).components = .root :: cs := by
  induction cs using List.reverseRecOn with
  | nil => decide
  | append_singleton cs c ih =>
    obtain ⟨hbody, hlead⟩ := h c (by simp)
    have ih := ih fun d hd => h d (List.mem_append_left _ hd)
    have htext : (ofComponents (.root :: cs)).text ≠ [] := by
      intro hnil
      have hlead : (ofComponents (.root :: cs)).lead = .bare := by rw [lead, hnil]
      have hbody : (ofComponents (.root :: cs)).body = [] := by rw [body_eq, hnil]; rfl
      rw [components_eq, hlead, hbody] at ih
      cases ih
    have hstep : ofComponents (.root :: (cs ++ [c])) = (ofComponents (.root :: cs)).join ⟨c.text⟩ := by
      simp [ofComponents]
    rw [hstep, components_join hlead (Or.inl htext), ih, hbody]
    rfl

theorem find?_congr (h : p.components = q.components) : m.find? p = m.find? q := by
  simp only [find?, same, h]

/-- A directory made, unless something is there. -/
def makeDirectory (m : MemoryFiles) (q : Path) : MemoryFiles :=
  if (m.find? q).isSome then m else m.put q none

theorem find?_makeDirectory : (m.makeDirectory q).find? p =
    if p.components = q.components then some ((m.find? p).getD none) else m.find? p := by
  rw [makeDirectory]
  by_cases hp : p.components = q.components
  · rw [if_pos hp, find?_congr hp]
    cases hfind : m.find? q with
    | some x => rw [Option.isSome_some, if_pos rfl, find?_congr hp, hfind, Option.getD_some]
    | none =>
      have hself : q.same q := beq_self_eq_true _
      rw [Option.isSome_none, if_neg (by decide), find?_put, if_pos hself, find?_congr hp, hfind,
        Option.getD_none]
  · have hsame : q.same p = false := beq_eq_false_iff_ne.mpr (Ne.symm hp)
    rw [if_neg hp]
    split
    · rfl
    · rw [find?_put, hsame, if_neg (by decide)]

/-- **What is found after the directories of a path were made**: a directory wherever the path goes
through, unless something was there. -/
theorem find?_makeDirectories (hq : q.lead = .root) : (m.makeDirectories q).find? p =
    if p.components ≠ [] ∧ p.components <+: q.components then some ((m.find? p).getD none)
    else m.find? p := by
  obtain ⟨cs, hcs, hpart⟩ : ∃ cs, q.components = .root :: cs ∧ ∀ c ∈ cs, c.IsPart :=
    ⟨q.body, by rw [components_eq, hq]; rfl, fun _ => isPart_of_mem_body⟩
  -- the directories are made one after the other, each by one component longer
  have hrun (n : Nat) (hn : n ≤ q.components.length) :
      ((List.range n).foldl (fun m n => m.makeDirectory (ofComponents (q.components.take (n + 1))))
        m).find? p =
      if p.components ≠ [] ∧ p.components <+: q.components.take n then some ((m.find? p).getD none)
      else m.find? p := by
    induction n with
    | zero => simp
    | succ n ih =>
      have hmade : (ofComponents (q.components.take (n + 1))).components = q.components.take (n + 1) := by
        rw [hcs, List.take_succ_cons]
        exact components_ofComponents fun c hc => hpart c (List.mem_of_mem_take hc)
      rw [List.range_succ, List.foldl_append, List.foldl_cons, List.foldl_nil, find?_makeDirectory, hmade,
        ih (by omega), ← List.take_append_getElem hn]
      simp only [List.prefix_concat_iff]
      by_cases hp : p.components = q.components.take n ++ [q.components[n]]
      · have hne : p.components ≠ [] := by
          rw [hp]
          exact List.append_ne_nil_of_right_ne_nil _ (List.cons_ne_nil _ _)
        simp only [hp] at hne ⊢
        simp only [hne, if_true, true_or, and_self, ne_eq, not_false_eq_true]
        split <;> simp
      · simp only [hp, if_false, false_or]
  have := hrun q.components.length (Nat.le_refl _)
  rwa [List.take_length] at this

/-- What stands at a path does not depend on its spelling. -/
theorem lookup_congr (h : p.components = q.components) : m.lookup p = m.lookup q := by
  obtain ⟨hlead, hbody⟩ := components_inj.mp h
  rw [lookup, lookup, anchor, anchor, isAbsolute, isAbsolute, hlead]
  split
  · exact find?_congr h
  · rename_i habsolute
    have hq : q.lead ≠ .root := by simpa using habsolute
    by_cases hd : m.root.text = []
    · rw [join_of_empty hd, join_of_empty hd]
      exact find?_congr h
    · refine find?_congr ?_
      rw [components_join (hlead ▸ hq) (Or.inl hd), components_join hq (Or.inl hd), hbody]

/-! ### A tree of files below a directory -/

/-- One file or directory added at a path taken from a directory. -/
def plantEntry (root : Path) (m : MemoryFiles) (e : Path × Option Text) : MemoryFiles :=
  match e.2 with
  | some content => m.addFile (root.join e.1) content
  | none => m.addDirectory (root.join e.1)

/-- A tree of files added below a directory, and nothing else. -/
def plant (root : Path) (tree : List (Path × Option Text)) : MemoryFiles :=
  tree.foldl (plantEntry root) (empty root)

/-- What one added file or directory makes of what is found at a path inside the directory. -/
def seen (cs : List Component) (e : Path × Option Text) (found : Option (Option Text)) :
    Option (Option Text) :=
  match e.2 with
  | some content =>
    if cs = e.1.body then some (some content)
    else if cs <+: e.1.body.dropLast then some (found.getD none) else found
  | none => if cs <+: e.1.body then some (found.getD none) else found

theorem find?_plantEntry {e : Path × Option Text} (hroot : root.lead = .root) (hp : p.lead ≠ .root)
    (he : e.1.lead ≠ .root) (hb : e.1.body ≠ []) :
    (plantEntry root m e).find? (root.join p) = seen p.body e (m.find? (root.join p)) := by
  have hd : root.text ≠ [] := by
    intro hnil
    rw [lead, hnil] at hroot
    cases hroot
  have hcs {q : Path} (hq : q.lead ≠ .root) : (root.join q).components = root.components ++ q.body :=
    components_join hq (Or.inl hd)
  have hlead {q : Path} (hq : q.lead ≠ .root) : (root.join q).lead = .root := (lead_join hq hd).trans hroot
  have habs : (root.join e.1).isAbsolute := by simp [isAbsolute, hlead he]
  have hne : root.components ≠ [] := by rw [components_eq, hroot]; simp [Lead.components]
  rw [plantEntry, seen]
  cases e.2 with
  | none =>
    simp only [addDirectory, anchor, habs, if_true]
    rw [find?_makeDirectories (hlead he), hcs hp, hcs he]
    simp [hne, List.prefix_append_right_inj]
  | some content =>
    obtain ⟨dir, hdir, hdirLead, hdirBody⟩ :=
      exists_parent (p := root.join e.1) (by simp [body_join he, hb])
    have hdirComponents : dir.components = root.components ++ e.1.body.dropLast := by
      rw [components_eq, hdirLead, hdirBody, body_join he, List.dropLast_append_of_ne_nil hb,
        lead_join he hd, components_eq, List.append_assoc]
    have hsame : (root.join e.1).same (root.join p) = decide (p.body = e.1.body) := by
      rw [same, hcs he, hcs hp, Bool.eq_iff_iff]
      simp [eq_comm (a := p.body)]
    simp only [addFile, anchor, habs, if_true, hdir]
    rw [find?_put, hsame, find?_makeDirectories (hdirLead.trans (hlead he)), hdirComponents, hcs hp]
    simp [hne, List.prefix_append_right_inj]

/-- **A tree of files, looked at from the directory that it was added to**, is the same wherever that
directory is. -/
theorem find?_plant {tree : List (Path × Option Text)} (hroot : root.lead = .root) (hp : p.lead ≠ .root)
    (htree : ∀ e ∈ tree, e.1.lead ≠ .root ∧ e.1.body ≠ []) :
    (plant root tree).find? (root.join p) = tree.foldl (fun found e => seen p.body e found) none := by
  have hrun (m : MemoryFiles) : (tree.foldl (plantEntry root) m).find? (root.join p) =
      tree.foldl (fun found e => seen p.body e found) (m.find? (root.join p)) := by
    induction tree generalizing m with
    | nil => rfl
    | cons e tree ih =>
      obtain ⟨he, hb⟩ := htree e List.mem_cons_self
      rw [List.foldl_cons, ih fun d hd => htree d (List.mem_cons_of_mem _ hd),
        find?_plantEntry hroot hp he hb, List.foldl_cons]
  exact hrun _

/-- The directory that the tree was added to is no file: at most it was made on the way. -/
theorem getD_foldl_seen {tree : List (Path × Option Text)} (htree : ∀ e ∈ tree, e.1.body ≠ [])
    (found : Option (Option Text)) (h : found.getD none = none) :
    (tree.foldl (fun found e => seen [] e found) found).getD none = none := by
  induction tree generalizing found with
  | nil => exact h
  | cons e tree ih =>
    have hne : [] ≠ e.1.body := (htree e List.mem_cons_self).symm
    rw [List.foldl_cons]
    refine ih (fun d hd => htree d (List.mem_cons_of_mem _ hd)) _ ?_
    rw [seen]
    cases e.2 <;> simp [hne, h]

/-! ### One entry for each path -/

/-- Two entries stand at two paths. -/
def Apart (a b : Path × Option Text) : Prop := a.1.components ≠ b.1.components

instance : Std.Symm Apart := ⟨fun _ _ => Ne.symm⟩

/-- **No path is entered twice**, in whatever spelling. -/
def Distinct (m : MemoryFiles) : Prop := m.entries.Pairwise Apart

theorem Distinct.put (h : m.Distinct) (q : Path) (content : Option Text) : (m.put q content).Distinct := by
  rw [Distinct, MemoryFiles.put]
  split
  · -- an entry that is there keeps its spelling
    refine List.pairwise_map.mpr (h.imp fun {a b} hne => ?_)
    have hkept (e : Path × Option Text) : (if e.1.same q then (e.1, content) else e).1 = e.1 := by
      split <;> rfl
    rwa [Apart, hkept, hkept]
  · rename_i hany
    refine List.pairwise_append.mpr ⟨h, List.pairwise_singleton _ _, fun a ha b hb heq => hany ?_⟩
    obtain rfl := List.mem_singleton.mp hb
    exact List.any_eq_true.mpr ⟨a, ha, beq_iff_eq.mpr heq⟩

theorem Distinct.makeDirectories (h : m.Distinct) (q : Path) : (m.makeDirectories q).Distinct := by
  refine List.foldlRecOn _ _ h fun m hm n _ => ?_
  dsimp only
  split
  · exact hm
  · exact hm.put _ _

/-- One file or directory added. -/
def add (m : MemoryFiles) (e : Path × Option Text) : MemoryFiles :=
  match e.2 with
  | some content => m.addFile e.1 content
  | none => m.addDirectory e.1

/-- Files and directories added one after another, and nothing else. -/
def ofAdded (root : Path) (added : List (Path × Option Text)) : MemoryFiles := added.foldl add (empty root)

theorem Distinct.add (h : m.Distinct) (e : Path × Option Text) : (m.add e).Distinct := by
  rw [MemoryFiles.add]
  split
  · rw [addFile]
    refine Distinct.put ?_ _ _
    split
    · exact h.makeDirectories _
    · exact h
  · exact h.makeDirectories _

/-- Files and directories that were added one after another stand at one path each. -/
theorem distinct_ofAdded (root : Path) (added : List (Path × Option Text)) : (ofAdded root added).Distinct :=
  List.foldlRecOn _ _ List.Pairwise.nil fun _ hm e _ => hm.add e

/-- **What is found at a path** is what was entered there. -/
theorem find?_eq_some (h : m.Distinct) {found : Option Text} :
    m.find? p = some found ↔ ∃ e ∈ m.entries, e.1.same p ∧ e.2 = found := by
  rw [find?, Option.map_eq_some_iff]
  constructor
  · rintro ⟨e, he, rfl⟩
    exact ⟨e, List.mem_of_find?_eq_some he, by simpa using List.find?_some he, rfl⟩
  · rintro ⟨e, he, hep, rfl⟩
    cases hfind : m.entries.find? fun e => e.1.same p with
    | none => exact absurd hep (List.find?_eq_none.mp hfind e he)
    | some e' =>
      have hsame : e'.1.same p := by simpa using List.find?_some hfind
      refine ⟨e', rfl, congrArg Prod.snd ?_⟩
      by_contra hne
      exact h.forall (List.mem_of_find?_eq_some hfind) he hne ((eq_of_beq hsame).trans (eq_of_beq hep).symm)

/-! ### Listing a directory -/

/-- The entry of a directory that stands for an entry of the files. -/
def entryOf (e : Path × Option Text) : DirectoryEntry :=
  ⟨e.1, e.1.fileName?.getD [], if e.2.isSome then .file else .directory⟩

theorem mem_children {d : DirectoryEntry} :
    d ∈ m.children p ↔ ∃ e ∈ m.entries, e.1.parent?.any (·.same p) ∧ entryOf e = d := by
  simp only [children, List.mem_map, List.mem_mergeSort, List.mem_filter, and_assoc]
  rfl

theorem pairwise_children (h : m.Distinct) (p : Path) :
    (m.children p).Pairwise fun a b => a.path.components ≠ b.path.components := by
  refine List.pairwise_map.mpr ?_
  have hperm := List.mergeSort_perm (m.entries.filter fun e => e.1.parent?.any (·.same p))
    fun a b => a.1.compare b.1 != .gt
  exact (hperm.pairwise_iff Ne.symm).mpr (h.filter _)

end MemoryFiles

namespace DirectoryEntry

theorem precedes_iff {a b : DirectoryEntry} : precedes a b ↔ (Path.compareText a.name b.name).isLE := by
  rw [precedes]
  cases Path.compareText a.name b.name <;> decide

theorem precedes_trans (a b c : DirectoryEntry) (hab : precedes a b) (hbc : precedes b c) : precedes a c := by
  rw [precedes_iff] at *
  exact Std.TransCmp.isLE_trans hab hbc

theorem precedes_total (a b : DirectoryEntry) : precedes a b || precedes b a := by
  rw [Bool.or_eq_true, precedes_iff, precedes_iff]
  cases h : Path.compareText a.name b.name with
  | lt => exact Or.inl rfl
  | eq => exact Or.inl rfl
  | gt => rw [Std.OrientedCmp.lt_of_gt h]; exact Or.inr rfl

end DirectoryEntry

namespace MemoryFiles

variable {m : MemoryFiles} {p : Path}

/-- **A directory is listed by name**, with one entry for each path that has it for its parent. -/
theorem list_eq_ok (h : m.Distinct) (hdir : m.find? (m.anchor p) = some none) :
    ∃ es, m.list p = .ok es ∧ es.Pairwise (DirectoryEntry.precedes · ·) ∧
      (es.Pairwise fun a b => a.path.components ≠ b.path.components) ∧
      ∀ d, d ∈ es ↔ ∃ e ∈ m.entries, e.1.parent?.any (·.same (m.anchor p)) ∧ entryOf e = d := by
  have hperm := List.mergeSort_perm (m.children (m.anchor p)) DirectoryEntry.precedes
  refine ⟨(m.children (m.anchor p)).mergeSort DirectoryEntry.precedes, ?_, ?_, ?_, fun d => ?_⟩
  · simp only [list, hdir]
  · exact List.pairwise_mergeSort DirectoryEntry.precedes_trans DirectoryEntry.precedes_total _
  · exact (hperm.pairwise_iff Ne.symm).mpr (pairwise_children h _)
  · rw [List.mem_mergeSort, mem_children]

theorem list_eq_error (hdir : m.find? (m.anchor p) ≠ some none) : ∃ reason, m.list p = .error reason := by
  simp only [list]
  split
  · rename_i hfound
    exact absurd hfound hdir
  · exact ⟨_, rfl⟩
  · exact ⟨_, rfl⟩

end MemoryFiles

end BuildMender
