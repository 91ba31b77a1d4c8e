import BuildMender.Proofs.Path.Components

/-!
# Paths and directories above them

A path lies below a directory when it is the directory joined with a path that stays inside: one that
does not start at the root and does not go up (`BuildMender.Path.escapes`). This is a property of what
is spelled, and no disk is needed for it. It is kept by the two things that are done with such a path
when a copy is put beside a file: the parent is taken (`BuildMender.Path.NamesBelow.parent`) and a name
is put after it (`BuildMender.Path.Below.join_name`).

A path below a directory is named from there by leaving out what it shares with the directory. What is
left out are components, but what is left is a spelling: the pieces that follow them, without the idle
ones at both ends.

Two things are settled about it. Whatever the spellings, the components that are left are those that the
directory does not have (`BuildMender.Path.exists_relativeTo?`). And a path that was taken from the
directory gets its own spelling back, up to idle pieces at its end (`BuildMender.Path.relativeTo?_join`).
-/

namespace BuildMender

namespace Path

/-! ### Below a directory -/

/-- **Lying below a directory**: being the directory joined with a path that stays in it, one that is
relative and does not go up. -/
def Below (root p : Path) : Prop :=
  ∃ rel : Path, rel.escapes = false ∧ p.components = (root.join rel).components

theorem below_join {root rel : Path} (h : rel.escapes = false) : Below root (root.join rel) :=
  ⟨rel, h, rfl⟩

theorem lead_join_of_bare {dir p : Path} (h : p.lead = .bare) : (dir.join p).lead = dir.lead := by
  by_cases hd : dir.text = []
  · rw [join_of_empty hd, h, lead, hd]
  · exact lead_join (by simp [h]) hd

/-- A path without a lead goes on from the directory. -/
theorem components_join_of_bare {dir p : Path} (h : p.lead = .bare) :
    (dir.join p).components = dir.components ++ p.body := by
  rw [components_eq, components_eq dir, lead_join_of_bare h, body_join (by simp [h]), List.append_assoc]

/-- So does any path from a directory whose own path is not empty. -/
theorem components_join {dir p : Path} (hl : p.lead ≠ .root) (h : dir.text ≠ [] ∨ p.lead = .bare) :
    (dir.join p).components = dir.components ++ p.body := by
  rcases h with hd | hb
  · rw [components_eq, components_eq dir, lead_join hl hd, body_join hl, List.append_assoc]
  · exact components_join_of_bare hb

/-- A single name that is neither a dot nor `..`. -/
structure IsName (n : Text) : Prop where
  slashless : '/' ∉ n
  not_idle : idle n = false
  ne_up : n ≠ ['.', '.']

theorem IsName.slashed {n : Text} (h : IsName n) : slashed n = [n] :=
  Text.split_of_none fun _ hc hs => h.slashless (of_decide_eq_true hs ▸ hc)

theorem IsName.body {n : Text} (h : IsName n) : Path.body ⟨n⟩ = [.name n] := by
  rw [body_eq, h.slashed]
  simp [active, h.not_idle, component, h.ne_up]

theorem IsName.lead {n : Text} (h : IsName n) : Path.lead ⟨n⟩ = .bare := by
  have hn : n ≠ [] ∧ n ≠ ['.'] := by
    have := h.not_idle
    simpa [idle] using this
  rw [lead_eq, h.slashed]
  obtain ⟨c, cs, rfl⟩ := List.exists_cons_of_ne_nil hn.1
  simp [leadOf, hn.2]

/-- A path below a directory, or one in a directory below it, stays there with a name put after it. -/
theorem Below.join_name {root dir : Path} (h : Below root dir) {n : Text} (hn : IsName n) :
    Below root (dir.join ⟨n⟩) := by
  obtain ⟨rel, hrel, hdir⟩ := h
  obtain ⟨hlead, hbody⟩ := components_inj.mp hdir
  obtain ⟨hl, hb⟩ := escapes_eq_false.mp hrel
  have hroot : Path.lead ⟨n⟩ ≠ .root := by simp [hn.lead]
  have hl' : (rel.join ⟨n⟩).lead ≠ .root := by rwa [lead_join_of_bare hn.lead]
  refine ⟨rel.join ⟨n⟩, escapes_eq_false.mpr ⟨hl', ?_⟩, components_inj.mpr ⟨?_, ?_⟩⟩
  · rw [body_join hroot, hn.body]
    simpa using hb
  · rw [lead_join_of_bare hn.lead, hlead]
    by_cases hd : root.text = []
    · rw [join_of_empty hd, join_of_empty hd, lead_join_of_bare hn.lead]
    · rw [lead_join hl hd, lead_join hl' hd]
  · rw [body_join hroot, hbody, body_join hl, body_join hl', body_join hroot, List.append_assoc]

/-- A path that names something below a directory. -/
def NamesBelow (root p : Path) : Prop :=
  ∃ rel : Path, rel.escapes = false ∧ p = root.join rel ∧ rel.body ≠ []

theorem NamesBelow.below {root p : Path} (h : NamesBelow root p) : Below root p := by
  obtain ⟨rel, hrel, rfl, -⟩ := h
  exact below_join hrel

/-- The parent of a path below a directory lies below it, if the path names something there. -/
theorem below_parent {root rel : Path} (h : rel.escapes = false) (hb : rel.body ≠ []) :
    Below root ((root.join rel).parent?.getD root) := by
  obtain ⟨hl, hup⟩ := escapes_eq_false.mp h
  have hj : (root.join rel).body = root.body ++ rel.body := body_join hl
  obtain ⟨q, hq, hql, hqb⟩ := exists_parent (p := root.join rel) (by simp [hj, hb])
  obtain ⟨r, -, hrl, hrb⟩ := exists_parent hb
  rw [hq]
  have hr : r.lead ≠ .root := by rwa [hrl]
  refine ⟨r, escapes_eq_false.mpr ⟨hr, ?_⟩, components_inj.mpr ⟨?_, ?_⟩⟩
  · rw [hrb]
    exact fun hc => hup (List.dropLast_subset _ hc)
  · rw [Option.getD_some, hql]
    by_cases hd : root.text = []
    · rw [join_of_empty hd, join_of_empty hd, hrl]
    · rw [lead_join hl hd, lead_join hr hd]
  · rw [Option.getD_some, hqb, hj, body_join hr, hrb, List.dropLast_append_of_ne_nil hb]

theorem NamesBelow.parent {root p : Path} (h : NamesBelow root p) :
    Below root (p.parent?.getD root) := by
  obtain ⟨rel, hrel, rfl, hb⟩ := h
  exact below_parent hrel hb

/-! ### Pieces left out -/

variable {base root p rel : Path} {ps qs : List Text}

@[simp] theorem active_cons_of_idle {t : Text} (h : idle t) (ps : List Text) :
    active (t :: ps) = active ps := by
  simp [active, h]

@[simp] theorem active_cons_of_not_idle {t : Text} (h : idle t = false) (ps : List Text) :
    active (t :: ps) = component t :: active ps := by
  simp [active, h]

@[simp] theorem dropActive_zero (ps : List Text) : dropActive 0 ps = ps := by
  cases ps <;> rfl

theorem active_dropActive (n : Nat) (ps : List Text) : active (dropActive n ps) = (active ps).drop n := by
  induction ps generalizing n with
  | nil => cases n <;> rfl
  | cons t ps ih =>
    cases n with
    | zero => rw [dropActive_zero, List.drop_zero]
    | succ n =>
      by_cases ht : idle t
      · rw [dropActive, if_pos ht, ih, active_cons_of_idle ht]
      · have ht : idle t = false := eq_false_of_ne_true ht
        rw [dropActive, if_neg (by simp [ht]), ih, active_cons_of_not_idle ht, List.drop_succ_cons]

theorem active_dropWhile_idle (ps : List Text) : active (ps.dropWhile idle) = active ps := by
  induction ps with
  | nil => rfl
  | cons t ps ih =>
    by_cases ht : idle t
    · rw [List.dropWhile_cons_of_pos ht, ih, active_cons_of_idle ht]
    · rw [List.dropWhile_cons_of_neg ht]

/-- Leaving out as many components as some pieces stand for leaves out those pieces. -/
theorem dropWhile_dropActive (ps qs : List Text) :
    (dropActive (active ps).length (ps ++ qs)).dropWhile idle = qs.dropWhile idle := by
  induction ps with
  | nil => rw [active_nil, List.length_nil, dropActive_zero, List.nil_append]
  | cons t ps ih =>
    by_cases ht : idle t
    · rw [active_cons_of_idle ht]
      cases hn : (active ps).length with
      | zero =>
        rw [hn, dropActive_zero] at ih
        rw [List.cons_append, dropActive_zero, List.dropWhile_cons_of_pos ht]
        exact ih
      | succ n =>
        rw [List.cons_append, dropActive, if_pos ht, ← hn]
        exact ih
    · have ht : idle t = false := eq_false_of_ne_true ht
      rw [active_cons_of_not_idle ht, List.length_cons, List.cons_append, dropActive,
        if_neg (by simp [ht])]
      exact ih

theorem dropActive_subset (n : Nat) (ps : List Text) : dropActive n ps ⊆ ps := by
  induction ps generalizing n with
  | nil => cases n <;> simp [dropActive]
  | cons t ps ih =>
    cases n with
    | zero => simp [dropActive]
    | succ n =>
      rw [dropActive]
      split <;> exact List.subset_cons_of_subset _ (ih _)

/-! ### The components that are left -/

theorem length_lead_components (l : Lead) : l.components.length = if l = .bare then 0 else 1 := by
  cases l <;> rfl

/-- Pieces put together without a lead, after those that are idle, begin without one. -/
theorem lead_assemble_dropWhile (h : ∀ t ∈ ps, '/' ∉ t) :
    (assemble .bare (settled (ps.dropWhile idle))).lead = .bare := by
  have hsub : settled (ps.dropWhile idle) ⊆ ps :=
    fun t ht => (List.dropWhile_sublist _).subset ((prefix_settled _).subset ht)
  refine lead_assemble (fun t ht => h t (hsub ht)) fun _ t ht => ?_
  obtain ⟨rest, hrest⟩ := prefix_settled (ps.dropWhile idle)
  have hhead : (ps.dropWhile idle).head? = some t := by
    rw [← hrest, List.head?_append, Option.mem_def.mp ht]
    rfl
  have hnot := List.head?_dropWhile_not idle ps
  rw [hhead] at hnot
  simpa using hnot

/-- **The components that are left** are those after the directory's, and they have no lead. A path that
is seen from an empty one must have none itself. -/
theorem exists_relativeTo? (h : base.components <+: p.components)
    (hl : base.components = [] → p.lead = .bare) :
    ∃ rel, base.relativeTo? p = some rel ∧ rel.lead = .bare ∧
      base.components ++ rel.body = p.components := by
  have hslash : ∀ t ∈ p.pieces, '/' ∉ t := fun t ht => not_mem_of_mem_pieces ht
  rw [relativeTo?, if_pos (List.isPrefixOf_iff_prefix.mpr h)]
  by_cases hbase : base.components = []
  · have hsettled : ∀ t ∈ settled p.pieces, '/' ∉ t := fun t ht =>
      hslash t ((prefix_settled p.pieces).subset ht)
    refine ⟨assemble p.lead (settled p.pieces), by simp [hbase], ?_, ?_⟩
    · rw [hl hbase]
      refine lead_assemble hsettled fun _ t ht => ?_
      by_cases hb : p.body = []
      · rw [settled_eq_nil.mpr (active_pieces p ▸ hb)] at ht
        cases ht
      · obtain ⟨rest, hrest⟩ := prefix_settled p.pieces
        refine idle_head_pieces (hl hbase) hb t ?_
        rw [← hrest, List.head?_append, Option.mem_def.mp ht]
        rfl
    · rw [body_assemble hsettled, active_settled, active_pieces, hbase, components_eq, hl hbase]
      rfl
  · obtain ⟨cs, hcs⟩ := h
    have hdropped := dropActive_subset
      (base.components.length - if p.lead = .bare then 0 else 1) p.pieces
    generalize hn : (base.components.length - if p.lead = .bare then 0 else 1) = n at hdropped
    have hdrop : ∀ t ∈ dropActive n p.pieces, '/' ∉ t := fun t ht => hslash t (hdropped ht)
    refine ⟨assemble .bare (settled ((dropActive n p.pieces).dropWhile idle)), by simp [hbase, ← hn],
      lead_assemble_dropWhile hdrop, ?_⟩
    have hbody : (assemble .bare (settled ((dropActive n p.pieces).dropWhile idle))).body =
        p.body.drop n := by
      rw [body_assemble, active_settled, active_dropWhile_idle, active_dropActive, active_pieces]
      exact fun t ht => hdrop t ((List.dropWhile_sublist _).subset ((prefix_settled _).subset ht))
    -- the directory's components take the lead and so many components of the body
    have hlen : p.lead.components.length ≤ base.components.length := by
      have : 0 < base.components.length := List.length_pos_iff.mpr hbase
      rw [length_lead_components]
      split <;> omega
    have hleft : p.components.drop base.components.length = p.body.drop n := by
      rw [components_eq p, List.drop_append, List.drop_eq_nil_of_le hlen, List.nil_append, ← hn,
        length_lead_components]
    rw [hbody, ← hleft, ← hcs, List.drop_left]

/-! ### The spelling that is left -/

/-- A path that means nothing and has no lead is empty. -/
theorem text_eq_nil_of_components (h : p.components = []) : p.text = [] := by
  have hl : p.lead = .bare := by
    rw [components_eq] at h
    cases hl : p.lead <;> simp [hl, Lead.components] at h ⊢
  have hb : active (slashed p.text) = [] := by
    rw [components_eq, hl] at h
    exact h
  rw [lead_eq] at hl
  refine slashed_eq_nil.mp ?_
  cases hs : slashed p.text with
  | nil => exact absurd hs (slashed_ne_nil _)
  | cons t more =>
    rw [hs] at hl hb
    by_cases ht : idle t
    · have hcases : t = [] ∨ t = ['.'] := by simpa [idle] using ht
      rcases hcases with rfl | rfl
      · cases more with
        | nil => rfl
        | cons u more => simp [leadOf] at hl
      · simp [leadOf] at hl
    · simp [active, ht] at hb

/-- The pieces after the lead. -/
theorem pieces_eq (p : Path) :
    p.pieces = if p.lead = .bare then slashed p.text else (slashed p.text).tail := by
  obtain ⟨t⟩ := p
  by_cases hl : Path.lead ⟨t⟩ = .bare
  · rw [if_pos hl, pieces_of_bare hl]
  · rw [if_neg hl]
    rw [lead] at hl
    rw [pieces]
    split at hl
    · rename_i rest h
      simp only at h
      subst h
      rw [slashed_cons, List.tail_cons]
    · rename_i h
      simp only at h
      subst h
      rfl
    · rename_i rest h
      simp only at h
      subst h
      rw [slashed_here, List.tail_cons]
    · exact absurd rfl hl

/-- The pieces of a path taken from a directory: those that stand for the directory's body, and its own. -/
theorem exists_pieces_join (hl : rel.lead ≠ .root) (hd : root.text ≠ []) :
    ∃ ps, active ps = root.body ∧ (root.join rel).pieces = ps ++ slashed rel.text := by
  obtain ⟨ps, hne, -, hj⟩ := slashed_join hl hd
  obtain ⟨ps', hps'⟩ : ∃ ps', (root.join rel).pieces = ps' ++ slashed rel.text := by
    rw [pieces_eq, hj]
    split
    · exact ⟨ps, rfl⟩
    · exact ⟨ps.tail, List.tail_append_of_ne_nil hne⟩
  refine ⟨ps', ?_, hps'⟩
  have hbody := active_pieces (root.join rel)
  rw [hps', active_append, body_join hl] at hbody
  exact List.append_cancel_right hbody

/-- **A path taken from a directory and seen from there** is spelled as it was, up to what is idle at its
end. -/
theorem relativeTo?_join (hl : rel.lead = .bare) (hb : rel.body ≠ []) :
    root.relativeTo? (root.join rel) = some (assemble .bare (settled rel.pieces)) := by
  have hroot : rel.lead ≠ .root := by simp [hl]
  rw [relativeTo?, if_pos]
  · by_cases hd : root.text = []
    · have hcomponents : root.components = [] := by
        rw [components_eq, lead_eq, body_eq, hd]
        rfl
      rw [join_of_empty hd, hl, if_pos (by simp [hcomponents])]
    · have hcomponents : root.components ≠ [] := fun h => hd (text_eq_nil_of_components h)
      obtain ⟨ps, hps, hpieces⟩ := exists_pieces_join hroot hd
      have htaken : (root.components.length - if (root.join rel).lead = .bare then 0 else 1) =
          (active ps).length := by
        rw [hps, lead_join_of_bare hl, components_eq, List.length_append, length_lead_components]
        omega
      have hidle : rel.pieces.dropWhile idle = rel.pieces := by
        have hhead := idle_head_pieces hl hb
        cases hrel : rel.pieces with
        | nil => rfl
        | cons t more =>
          rw [hrel] at hhead
          rw [List.dropWhile_cons_of_neg (by simp [hhead t rfl])]
      rw [if_neg (by simpa using hcomponents)]
      dsimp only
      rw [htaken, hpieces, dropWhile_dropActive, ← pieces_of_bare hl, hidle]
  · rw [List.isPrefixOf_iff_prefix, components_join_of_bare hl]
    exact List.prefix_append _ _

/-- So is any relative path, up to what is idle at its beginning too: nothing of the directory is left. -/
theorem relativeTo?_join_of_text (hl : rel.lead ≠ .root) (hd : root.text ≠ []) :
    root.relativeTo? (root.join rel) =
      some (assemble .bare (settled ((slashed rel.text).dropWhile idle))) := by
  have hcomponents : root.components ≠ [] := fun h => hd (text_eq_nil_of_components h)
  obtain ⟨ps, hps, hpieces⟩ := exists_pieces_join hl hd
  have htaken : (root.components.length - if (root.join rel).lead = .bare then 0 else 1) =
      (active ps).length := by
    rw [hps, lead_join hl hd, components_eq, List.length_append, length_lead_components]
    omega
  rw [relativeTo?, if_pos, if_neg (by simpa using hcomponents)]
  · dsimp only
    rw [htaken, hpieces, dropWhile_dropActive]
  · rw [List.isPrefixOf_iff_prefix, components_join hl (Or.inl hd)]
    exact List.prefix_append _ _

/-- Its characters are among those it had. -/
theorem mem_of_mem_settled {c : Char} (hl : rel.lead = .bare)
    (hc : c ∈ (assemble .bare (settled rel.pieces)).text) : c ∈ rel.text := by
  have htext : Text.join "/" rel.pieces = rel.text := by
    rw [pieces_of_bare hl]
    exact Text.join_split '/' rel.text
  obtain ⟨rest, hrest⟩ := prefix_settled rel.pieces
  have hc : c ∈ Text.join "/" (settled rel.pieces) := hc
  rw [← htext, ← hrest]
  by_cases h₁ : settled rel.pieces = []
  · rw [h₁] at hc
    cases hc
  · by_cases h₂ : rest = []
    · rwa [h₂, List.append_nil]
    · rw [Text.join_append _ h₁ h₂]
      exact List.mem_append_left _ (List.mem_append_left _ hc)

end Path

end BuildMender
