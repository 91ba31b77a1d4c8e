import BuildMender.Disk.Copy
import BuildMender.Proofs.Path.Relative

/-!
# Places on a disk

Where a path leads is a matter of the directories on the way and of nothing else: two disks with the
same directories take every path to the same place (`BuildMender.Disk.SameDirectories.follow`). What
stands at the place matters only at the end, where a path that asks for a directory must not come upon
a file (`BuildMender.Disk.locate_eq_ok`).

The second half is about paths below a directory. A path that stays inside its directory leads to a
place below the directory's own place (`BuildMender.Disk.inside_of_below`), whatever is on the disk.
-/

namespace BuildMender

/-! ### Tables -/

section Table

variable {α β : Type} [BEq α] [LawfulBEq α] {k k' : α}

theorem lookup_cons_of_ne (h : k' ≠ k) (b : β) (es : List (α × β)) :
    List.lookup k' ((k, b) :: es) = List.lookup k' es := by
  rw [List.lookup_cons, beq_false_of_ne h]

/-- The entries of one key changed. -/
theorem lookup_map_update (es : List (α × β)) (k k' : α) (f : β → β) :
    (es.map fun e => if e.1 == k then (e.1, f e.2) else e).lookup k' =
      if k' == k then (es.lookup k').map f else es.lookup k' := by
  induction es with
  | nil => simp
  | cons e es ih =>
    obtain ⟨a, b⟩ := e
    have hfst : (if a == k then (a, f b) else (a, b)) = (a, if a == k then f b else b) := by
      split <;> rfl
    rw [List.map_cons, hfst]
    by_cases hk : k' = a
    · subst hk
      rw [List.lookup_cons_self, List.lookup_cons_self]
      split <;> simp
    · rw [lookup_cons_of_ne hk, ih, lookup_cons_of_ne hk]

end Table

namespace Disk

open Path (slashed idle active Below)

variable {d d' : Disk} {at_ q : Place} {n : Node}

/-! ### What stands where after a change -/

@[simp] theorem node?_nil (d : Disk) : d.node? [] = some .directory := rfl

theorem node?_of_ne (h : q ≠ []) : d.node? q = d.nodes.lookup q := by
  cases q with
  | nil => exact absurd rfl h
  | cons _ _ => rfl

/-- Something stands at each place that the tree lists. -/
theorem node?_isSome_iff (h : q ≠ []) : (d.node? q).isSome ↔ q ∈ d.nodes.map Prod.fst := by
  rw [node?_of_ne h, List.lookup_isSome_iff, List.mem_map]
  exact ⟨fun ⟨e, he, hq⟩ => ⟨e, he, (eq_of_beq hq).symm⟩, fun ⟨e, he, hq⟩ => ⟨e, he, by simp [hq]⟩⟩

theorem node?_eq_none_iff (h : q ≠ []) : d.node? q = none ↔ q ∉ d.nodes.map Prod.fst := by
  rw [← node?_isSome_iff h, Option.not_isSome_iff_eq_none]

/-- **A node put at a place** stands there, and everything else stands where it stood. -/
theorem node?_put (h : at_ ≠ []) : (d.put at_ n).node? q = if q = at_ then some n else d.node? q := by
  by_cases hq : q = []
  · subst hq
    rw [if_neg (Ne.symm h)]
    rfl
  rw [node?_of_ne hq, node?_of_ne hq, put]
  by_cases hm : at_ ∈ d.nodes.map Prod.fst
  · rw [if_pos (by simpa using hm), lookup_map_update d.nodes at_ q fun _ => n]
    by_cases hqa : q = at_
    · obtain ⟨m, hm⟩ := Option.isSome_iff_exists.mp ((node?_isSome_iff h).mpr hm)
      rw [node?_of_ne h] at hm
      simp [hqa, hm]
    · rw [if_neg (by simpa using hqa), if_neg hqa]
  · have hnone : d.nodes.lookup at_ = none := by rwa [← node?_of_ne h, node?_eq_none_iff h]
    rw [if_neg (by simpa using hm), List.lookup_append]
    by_cases hqa : q = at_
    · rw [hqa, hnone, List.lookup_cons_self, if_pos rfl]
      rfl
    · rw [lookup_cons_of_ne hqa, List.lookup_nil, Option.or_none, if_neg hqa]

/-- A node put over another leaves the listed places as they are. -/
theorem map_fst_put (h : at_ ∈ d.nodes.map Prod.fst) :
    (d.put at_ n).nodes.map Prod.fst = d.nodes.map Prod.fst := by
  rw [put, if_pos (by simpa using h), List.map_map]
  refine List.map_congr_left fun e _ => ?_
  rw [Function.comp_apply]
  split <;> rfl

@[simp] theorem refuses_put : (d.put at_ n).refuses = d.refuses := by
  rw [put]
  split <;> rfl

/-! ### Following components -/

/-- Two disks with the same directories. -/
def SameDirectories (d d' : Disk) : Prop :=
  ∀ q, d.node? q = some .directory ↔ d'.node? q = some .directory

theorem SameDirectories.symm (h : SameDirectories d d') : SameDirectories d' d := fun q => (h q).symm

theorem follow_name (d : Disk) (at_ : Place) (n : Text) (cs : List Path.Component) :
    d.follow at_ (.name n :: cs) =
      match d.node? at_ with
      | none => .error .notFound
      | some (.file _) => .error .notDirectory
      | some .directory =>
        if maxName < (Text.toBytes n).size then .error .nameTooLong else d.follow (at_ ++ [n]) cs :=
  rfl

theorem follow_up (d : Disk) (at_ : Place) (cs : List Path.Component) :
    d.follow at_ (.up :: cs) =
      match d.node? at_ with
      | none => .error .notFound
      | some (.file _) => .error .notDirectory
      | some .directory => d.follow at_.dropLast cs :=
  rfl

theorem follow_name_eq_ok {n : Text} {cs : List Path.Component} :
    d.follow at_ (.name n :: cs) = .ok q ↔ d.node? at_ = some .directory ∧
      ¬ maxName < (Text.toBytes n).size ∧ d.follow (at_ ++ [n]) cs = .ok q := by
  rw [follow_name]
  split
  · simp_all
  · simp_all
  · split <;> simp_all

theorem follow_up_eq_ok {cs : List Path.Component} :
    d.follow at_ (.up :: cs) = .ok q ↔
      d.node? at_ = some .directory ∧ d.follow at_.dropLast cs = .ok q := by
  rw [follow_up]
  split <;> simp_all

/-- Where a path leads is a matter of directories alone. -/
theorem SameDirectories.follow (h : SameDirectories d d') {cs : List Path.Component}
    (hf : d.follow at_ cs = .ok q) : d'.follow at_ cs = .ok q := by
  induction cs generalizing at_ with
  | nil => exact hf
  | cons c cs ih =>
    cases c with
    | root => exact ih hf
    | here => exact ih hf
    | up =>
      obtain ⟨hd, hf⟩ := follow_up_eq_ok.mp hf
      exact follow_up_eq_ok.mpr ⟨(h _).mp hd, ih hf⟩
    | name n =>
      obtain ⟨hd, hn, hf⟩ := follow_name_eq_ok.mp hf
      exact follow_name_eq_ok.mpr ⟨(h _).mp hd, hn, ih hf⟩

theorem follow_append_eq_ok {cs cs' : List Path.Component} :
    d.follow at_ (cs ++ cs') = .ok q ↔ ∃ r, d.follow at_ cs = .ok r ∧ d.follow r cs' = .ok q := by
  induction cs generalizing at_ with
  | nil => exact ⟨fun h => ⟨at_, rfl, h⟩, by rintro ⟨r, hr, h⟩; cases hr; exact h⟩
  | cons c cs ih =>
    cases c with
    | root => exact ih
    | here => exact ih
    | up =>
      rw [List.cons_append, follow_up_eq_ok, ih]
      exact ⟨fun ⟨hd, r, hr, h⟩ => ⟨r, follow_up_eq_ok.mpr ⟨hd, hr⟩, h⟩,
        fun ⟨r, hr, h⟩ => ⟨(follow_up_eq_ok.mp hr).1, r, (follow_up_eq_ok.mp hr).2, h⟩⟩
    | name n =>
      rw [List.cons_append, follow_name_eq_ok, ih]
      exact ⟨fun ⟨hd, hn, r, hr, h⟩ => ⟨r, follow_name_eq_ok.mpr ⟨hd, hn, hr⟩, h⟩,
        fun ⟨r, hr, h⟩ =>
          have hr := follow_name_eq_ok.mp hr
          ⟨hr.1, hr.2.1, r, hr.2.2, h⟩⟩

/-- **Names lead down**: the place that is reached is the one that they spell. -/
theorem eq_of_follow_names {cs : List Path.Component} (hc : ∀ c ∈ cs, ∃ n, c = .name n)
    (hf : d.follow at_ cs = .ok q) : q = at_ ++ cs.map Path.Component.text := by
  induction cs generalizing at_ with
  | nil =>
    cases hf
    exact (List.append_nil _).symm
  | cons c cs ih =>
    obtain ⟨n, rfl⟩ := hc c List.mem_cons_self
    obtain ⟨-, -, hf⟩ := follow_name_eq_ok.mp hf
    rw [ih (fun c hm => hc c (List.mem_cons_of_mem _ hm)) hf, List.append_assoc]
    rfl

/-! ### Finding -/

/-- What a path has to be spelled like for the machine to follow it. -/
def Spelled (p : Path) : Prop :=
  p.text.contains (Char.ofNat 0) = false ∧ p.text ≠ [] ∧ (Text.toBytes p.text).size < pathBound

theorem locate_of_spelled {p : Path} (h : Spelled p) : d.locate at_ p =
    match d.follow at_ p.components with
    | .error e => .error e
    | .ok at_ =>
      match d.node? at_ with
      | some (.file _) => if asksDirectory p then .error .notDirectory else .ok at_
      | _ => .ok at_ := by
  obtain ⟨hnul, hne, hlen⟩ := h
  have hnul' : ¬p.text.contains (Char.ofNat 0) := by simpa using hnul
  have hne' : ¬p.text.isEmpty := by simpa using hne
  exact (if_neg hnul').trans ((if_neg hne').trans (if_neg (Nat.not_le.mpr hlen)))

theorem spelled_of_locate {p : Path} (h : d.locate at_ p = .ok q) : Spelled p := by
  rw [locate] at h
  split at h
  · cases h
  · rename_i hnul
    split at h
    · cases h
    · rename_i hne
      split at h
      · cases h
      · rename_i hlen
        exact ⟨by simpa using hnul, by simpa using hne, Nat.not_le.mp hlen⟩

/-- **Where a path is located**: where its components lead, unless it asks for a directory and a file
stands there. -/
theorem locate_eq_ok {p : Path} : d.locate at_ p = .ok q ↔
    Spelled p ∧ d.follow at_ p.components = .ok q ∧
      (asksDirectory p → ∀ b, d.node? q ≠ some (.file b)) := by
  by_cases hs : Spelled p
  · rw [locate_of_spelled hs, and_iff_right hs]
    cases hf : d.follow at_ p.components with
    | error e => simp
    | ok r =>
      simp only
      split
      · rename_i b hb
        by_cases ha : asksDirectory p
        · simp only [ha, if_true]
          refine ⟨nofun, ?_⟩
          rintro ⟨hr, h⟩
          cases hr
          exact absurd hb (h trivial b)
        · simp [ha]
      · rename_i hb
        refine ⟨?_, fun h => h.1⟩
        rintro hr
        cases hr
        exact ⟨rfl, fun _ b h => hb b h⟩
  · exact ⟨fun h => absurd (spelled_of_locate h) hs, fun h => absurd h.1 hs⟩

theorem find_eq_ok {p : Path} :
    d.find at_ p = .ok (q, n) ↔ d.locate at_ p = .ok q ∧ d.node? q = some n := by
  rw [find]
  cases hl : d.locate at_ p with
  | error e => simp
  | ok r =>
    dsimp only
    cases hr : d.node? r with
    | none =>
      refine ⟨nofun, ?_⟩
      rintro ⟨hq, h⟩
      cases hq
      exact absurd (hr.symm.trans h) (by simp)
    | some m =>
      dsimp only
      constructor
      · rintro h
        cases h
        exact ⟨rfl, hr⟩
      · rintro ⟨hq, h⟩
        cases hq
        obtain rfl := Option.some.inj (hr.symm.trans h)
        rfl

/-- A file is found where the components of its path lead. -/
theorem find_file_eq_ok {p : Path} {b : ByteArray} : d.find at_ p = .ok (q, .file b) ↔
    Spelled p ∧ asksDirectory p = false ∧ d.follow at_ p.components = .ok q ∧
      d.node? q = some (.file b) := by
  rw [find_eq_ok, locate_eq_ok]
  constructor
  · rintro ⟨⟨hs, hf, ha⟩, hb⟩
    refine ⟨hs, ?_, hf, hb⟩
    by_contra hc
    exact ha (by simpa using hc) b hb
  · rintro ⟨hs, ha, hf, hb⟩
    exact ⟨⟨hs, hf, by simp [ha]⟩, hb⟩

/-- **The text of a file** is what its bytes spell. -/
theorem readText_eq_ok {p : Path} {t : Text} : d.readText p = .ok t ↔
    ∃ q b, d.find [] p = .ok (q, .file b) ∧ d.refuses (.read q) = none ∧ Text.ofBytes? b = some t := by
  rw [readText, readBytes]
  cases hf : d.find [] p with
  | error e => simp
  | ok found =>
    obtain ⟨q, n⟩ := found
    cases n with
    | directory => simp
    | file b =>
      cases hr : d.refuses (.read q) with
      | some e => simp [hr]
      | none => cases hb : Text.ofBytes? b <;> simp [hr, hb]

/-- Whether a file is there, and where. -/
theorem hasFile_iff {p : Path} : d.hasFile p ↔ ∃ q b, d.find [] p = .ok (q, .file b) := by
  rw [hasFile]
  split
  · rename_i q b h
    simp [h]
  · rename_i h
    refine ⟨nofun, ?_⟩
    rintro ⟨q, b, hf⟩
    exact absurd hf (h q b)

theorem hasFile_of_readText {p : Path} {t : Text} (h : d.readText p = .ok t) : d.hasFile p := by
  obtain ⟨q, b, hf, -, -⟩ := readText_eq_ok.mp h
  exact hasFile_iff.mpr ⟨q, b, hf⟩

/-! ### Paths that stay inside -/

/-- **A place inside a directory**: the directory's place begins it. -/
def Inside (d : Disk) (root : Path) (q : Place) : Prop :=
  ∃ r, d.follow [] root.components = .ok r ∧ r <+: q

theorem exists_name_of_mem_body {p : Path} (h : Path.Component.up ∉ p.body) {c : Path.Component}
    (hc : c ∈ p.body) : ∃ n, c = .name n := by
  cases c with
  | root => exact absurd hc (Path.root_not_mem_body p)
  | here => exact absurd hc (Path.here_not_mem_body p)
  | up => exact absurd hc h
  | name n => exact ⟨n, rfl⟩

/-- **A path below a directory leads to a place inside it**, on every disk. -/
theorem inside_of_below {root p : Path} (h : Below root p) (hf : d.follow [] p.components = .ok q) :
    d.Inside root q := by
  obtain ⟨rel, hrel, hp⟩ := h
  obtain ⟨hl, hup⟩ := Path.escapes_eq_false.mp hrel
  rw [hp] at hf
  by_cases hd : root.text = []
  · refine ⟨[], ?_, List.nil_prefix⟩
    obtain ⟨t⟩ := root
    simp only at hd
    subst hd
    rfl
  · rw [Path.components_join hl (Or.inl hd), follow_append_eq_ok] at hf
    obtain ⟨r, hr, hq⟩ := hf
    rw [eq_of_follow_names (fun c hc => exists_name_of_mem_body hup hc) hq]
    exact ⟨r, hr, List.prefix_append _ _⟩

/-- Names are what they are spelled. -/
theorem map_name_map_text {cs : List Path.Component} (hc : ∀ c ∈ cs, ∃ n, c = .name n) :
    (cs.map Path.Component.text).map .name = cs := by
  rw [List.map_map]
  refine (List.map_congr_left fun c hm => ?_).trans (List.map_id cs)
  obtain ⟨n, rfl⟩ := hc c hm
  rfl

/-- **Two names below a directory that lead to one place are one path**, unless the directory is empty and
a dot is written out in front. -/
theorem components_eq_of_follow {root rel rel' : Path} (hl : root.text ≠ [] ∨ rel.lead = .bare)
    (hl' : root.text ≠ [] ∨ rel'.lead = .bare) (hesc : rel.escapes = false) (hesc' : rel'.escapes = false)
    (hf : d.follow [] (root.join rel).components = .ok q)
    (hf' : d.follow [] (root.join rel').components = .ok q) :
    (root.join rel).components = (root.join rel').components := by
  obtain ⟨hroot, hup⟩ := Path.escapes_eq_false.mp hesc
  obtain ⟨hroot', hup'⟩ := Path.escapes_eq_false.mp hesc'
  rw [Path.components_join hroot hl, follow_append_eq_ok] at hf
  rw [Path.components_join hroot' hl', follow_append_eq_ok] at hf'
  obtain ⟨r, hr, hq⟩ := hf
  obtain ⟨r', hr', hq'⟩ := hf'
  obtain rfl := Except.ok.inj (hr.symm.trans hr')
  have hnames : ∀ c ∈ rel.body, ∃ n, c = .name n := fun c hc => exists_name_of_mem_body hup hc
  have hnames' : ∀ c ∈ rel'.body, ∃ n, c = .name n := fun c hc => exists_name_of_mem_body hup' hc
  have htexts : rel.body.map Path.Component.text = rel'.body.map Path.Component.text :=
    List.append_cancel_left ((eq_of_follow_names hnames hq).symm.trans (eq_of_follow_names hnames' hq'))
  rw [Path.components_join hroot hl, Path.components_join hroot' hl', ← map_name_map_text hnames,
    htexts, map_name_map_text hnames']

/-- A path of several pieces asks for a directory when its last piece names nothing. -/
theorem asksDirectory_of_idle {p : Path} {ps : List Text} {t : Text} (hp : slashed p.text = ps ++ [t])
    (hne : ps ≠ []) (ht : idle t) : asksDirectory p := by
  have htext : p.text = Text.join "/" ps ++ '/' :: t := by
    have := Text.join_split '/' p.text
    rw [← this]
    change Text.join "/" (slashed p.text) = _
    rw [hp, Text.join_append _ hne (List.cons_ne_nil _ _)]
    simp [Text.join]
  have hcases : t = [] ∨ t = ['.'] := by
    simpa [idle] using ht
  rw [asksDirectory, Bool.or_eq_true, htext]
  rcases hcases with rfl | rfl
  · exact Or.inl (List.isSuffixOf_iff_suffix.mpr (List.suffix_append _ _))
  · exact Or.inr (List.isSuffixOf_iff_suffix.mpr (List.suffix_append _ _))

/-- A path that stays inside a directory and may be that of a file names something there. -/
theorem body_ne_nil_of_file {root rel : Path} (hl : rel.lead ≠ .root)
    (ha : asksDirectory (root.join rel) = false) (hne : (root.join rel).text ≠ [])
    (hh : (root.join rel).components ≠ [.here]) : rel.body ≠ [] := by
  intro hb
  obtain ⟨init, t, ht⟩ : ∃ init t, slashed rel.text = init ++ [t] :=
    ⟨_, _, (List.dropLast_concat_getLast (Path.slashed_ne_nil rel.text)).symm⟩
  have hidle : idle t := by
    by_contra hc
    rw [Path.body_eq, ht, Path.active_append] at hb
    simp [active, hc] at hb
  -- an idle piece at the end asks for a directory, unless it is the only piece
  by_cases hd : root.text = []
  · rw [Path.join_of_empty hd] at ha hne hh
    by_cases hi : init = []
    · rw [hi, List.nil_append] at ht
      have hcases : t = [] ∨ t = ['.'] := by simpa [idle] using hidle
      rcases hcases with rfl | rfl
      · exact hne (Path.slashed_eq_nil.mp ht)
      · refine hh ?_
        rw [Path.components_eq, hb, Path.lead_eq, ht]
        rfl
    · rw [asksDirectory_of_idle ht hi hidle] at ha
      cases ha
  · obtain ⟨ps, hps, -, hj⟩ := Path.slashed_join hl hd
    rw [ht, ← List.append_assoc] at hj
    rw [asksDirectory_of_idle hj (by simp [hps]) hidle] at ha
    cases ha

/-- A file that is there has a path that names something. -/
theorem body_ne_nil_of_hasFile {root rel : Path} (h : rel.escapes = false)
    (hr : d.hasFile (root.join rel)) : rel.body ≠ [] := by
  obtain ⟨q, b, hf⟩ := hasFile_iff.mp hr
  obtain ⟨hs, ha, hfollow, hn⟩ := find_file_eq_ok.mp hf
  refine body_ne_nil_of_file (Path.escapes_eq_false.mp h).1 ha hs.2.1 fun hh => ?_
  rw [hh] at hfollow
  cases hfollow
  cases hn

end Disk

end BuildMender
