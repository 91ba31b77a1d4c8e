import BuildMender.Proofs.Disk.Place

/-!
# The names of files and directories

Two spellings that lead to one file may have little in common, but they end in the same name, and it is
the name of the place (`BuildMender.Disk.fileName?_of_file`). A spelling could end in `..` only if there
were a file above the place that was reached before, and above such a place there are directories
(`BuildMender.Disk.Grounded`).

A place that is reached can be spelled out from the root of the disk, and this spelling leads there and
nowhere else (`BuildMender.Disk.eq_of_follow_assemble`).
-/

namespace BuildMender

namespace Path

/-- The names among the components of a path are names. -/
theorem isName_of_mem_components {p : Path} {n : Text} (h : Component.name n ∈ p.components) : IsName n := by
  have hbody : Component.name n ∈ p.body := by
    rw [components_eq] at h
    cases hl : p.lead <;> simpa [hl, Lead.components] using h
  rw [body_eq, active, List.mem_map] at hbody
  obtain ⟨piece, hpiece, hc⟩ := hbody
  obtain ⟨hmem, hidle⟩ := List.mem_filter.mp hpiece
  rw [component] at hc
  split at hc
  · cases hc
  · rename_i hup
    cases hc
    exact ⟨not_mem_of_mem_slashed hmem, by simpa using hidle, hup⟩

/-- Names put together from the root are the components of what comes out. -/
theorem components_assemble_root {ns : List Text} (h : ∀ n ∈ ns, IsName n) :
    (assemble .root ns).components = .root :: ns.map .name := by
  have hslash : ∀ n ∈ ns, '/' ∉ n := fun n hn => (h n hn).slashless
  have hactive : active ns = ns.map .name := by
    rw [active, List.filter_eq_self.mpr fun n hn => by simp [(h n hn).not_idle]]
    exact List.map_congr_left fun n hn => if_neg (h n hn).ne_up
  have hlead : (assemble .root ns).lead = .root := lead_assemble hslash fun h => by cases h
  rw [components_eq, hlead, body_assemble hslash, hactive]
  rfl

end Path

namespace Disk

open Path (IsName)

variable {d : Disk} {p : Path} {at_ q r : Place} {b : ByteArray} {cs : List Path.Component}

/-! ### Above what is reached -/

/-- A place with directories above it, up to the root. -/
def Grounded (d : Disk) (q : Place) : Prop := ∀ k < q.length, d.node? (q.take k) = some .directory

theorem grounded_nil (d : Disk) : d.Grounded [] := fun _ h => absurd h (Nat.not_lt_zero _)

theorem Grounded.dropLast (h : d.Grounded q) : d.Grounded q.dropLast := by
  intro k hk
  rw [List.length_dropLast] at hk
  rw [List.dropLast_eq_take, List.take_take, Nat.min_eq_left (by omega)]
  exact h k (by omega)

/-- Above a file or a directory that is not the root is a directory. -/
theorem Grounded.node?_dropLast (h : d.Grounded q) : d.node? q.dropLast = some .directory := by
  by_cases hq : q = []
  · rw [hq]
    rfl
  · rw [List.dropLast_eq_take]
    exact h _ (Nat.sub_lt (List.length_pos_iff.mpr hq) Nat.one_pos)

/-- What is reached has directories above it. -/
theorem Grounded.follow (h : d.Grounded at_) (hf : d.follow at_ cs = .ok q) : d.Grounded q := by
  induction cs generalizing at_ with
  | nil =>
    cases hf
    exact h
  | cons c cs ih =>
    cases c with
    | root => exact ih (grounded_nil d) hf
    | here => exact ih h hf
    | up => exact ih h.dropLast (follow_up_eq_ok.mp hf).2
    | name n =>
      obtain ⟨hd, -, hf⟩ := follow_name_eq_ok.mp hf
      refine ih (fun k hk => ?_) hf
      rw [List.length_append, List.length_singleton] at hk
      rw [List.take_append_of_le_length (by omega)]
      rcases Nat.lt_succ_iff_lt_or_eq.mp hk with hk | rfl
      · exact h k hk
      · rwa [List.take_length]

/-! ### The name of a file -/

/-- **A path that leads to a file ends in the file's name.** -/
theorem fileName?_of_file (hf : d.follow [] p.components = .ok q) (hn : d.node? q = some (.file b)) :
    p.fileName? = q.getLast? := by
  rw [Path.components_eq, follow_append_eq_ok] at hf
  obtain ⟨s, hs, hf⟩ := hf
  obtain rfl : [] = s := by
    cases hl : p.lead <;> rw [hl] at hs <;> exact Except.ok.inj hs
  rw [Path.fileName?_eq]
  rcases List.eq_nil_or_concat p.body with hb | ⟨init, c, hb⟩
  · -- nothing leads to the root
    rw [hb] at hf
    cases hf
    cases hn
  · rw [hb, List.concat_eq_append, follow_append_eq_ok] at hf
    obtain ⟨r, hr, hq⟩ := hf
    have hmem : c ∈ p.body := by simp [hb]
    rw [hb, List.concat_eq_append, List.getLast?_concat]
    cases c with
    | root => exact absurd hmem (Path.root_not_mem_body p)
    | here => exact absurd hmem (Path.here_not_mem_body p)
    | up =>
      -- above what was reached before there is a directory
      obtain ⟨-, hq⟩ := follow_up_eq_ok.mp hq
      cases hq
      have habove := ((grounded_nil d).follow hr).node?_dropLast
      exact absurd (habove.symm.trans hn) (by simp)
    | name n =>
      obtain ⟨-, -, hq⟩ := follow_name_eq_ok.mp hq
      cases hq
      rw [List.getLast?_concat]
      rfl

/-! ### Spelling out a place -/

/-- The names of what is reached are names. -/
theorem isName_of_follow (h : ∀ n ∈ at_, IsName n) (hcs : ∀ n, .name n ∈ cs → IsName n)
    (hf : d.follow at_ cs = .ok q) : ∀ n ∈ q, IsName n := by
  induction cs generalizing at_ with
  | nil =>
    cases hf
    exact h
  | cons c cs ih =>
    have hmore : ∀ n, .name n ∈ cs → IsName n := fun n hn => hcs n (List.mem_cons_of_mem c hn)
    cases c with
    | root => exact ih (fun _ hn => absurd hn List.not_mem_nil) hmore hf
    | here => exact ih h hmore hf
    | up => exact ih (fun n hn => h n (List.dropLast_subset _ hn)) hmore (follow_up_eq_ok.mp hf).2
    | name n =>
      refine ih (fun m hm => ?_) hmore (follow_name_eq_ok.mp hf).2.2
      rcases List.mem_append.mp hm with hm | hm
      · exact h m hm
      · rw [List.mem_singleton.mp hm]
        exact hcs n List.mem_cons_self

theorem isName_of_mem_placeOf {n : Text} (h : n ∈ placeOf p) : IsName n := by
  obtain ⟨c, hc, hn⟩ := List.mem_filterMap.mp h
  cases c <;> cases hn
  exact Path.isName_of_mem_components hc

/-- **A place spelled out from the root** is what its spelling leads to. -/
theorem eq_of_follow_assemble (h : ∀ n ∈ r, IsName n)
    (hf : d.follow [] (Path.assemble .root r).components = .ok q) : q = r := by
  rw [Path.components_assemble_root h] at hf
  have hnames : ∀ c ∈ r.map Path.Component.name, ∃ n, c = .name n := fun c hc => by
    obtain ⟨n, -, rfl⟩ := List.mem_map.mp hc
    exact ⟨n, rfl⟩
  have hq := eq_of_follow_names hnames hf
  rw [hq, List.nil_append, List.map_map]
  exact List.map_id r

end Disk

end BuildMender
