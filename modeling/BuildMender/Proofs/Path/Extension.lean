import BuildMender.Proofs.Path.Relative
import BuildMender.Proofs.Text.Cut

/-!
# Exchanging an extension

A path with another extension is made from the spelling: characters are taken off its end, and a new
extension is put behind the stem. All of this happens behind the last slash that a name follows
(`BuildMender.Path.IsLast`), so it makes no difference whether it is done before or after the path is
taken from a directory (`BuildMender.Path.withExtension_join`), and the directories that the path names
stay (`BuildMender.Path.withExtension_keeps`). Both hold for every spelling, also where the characters
taken off are idle ones behind the file name, or where a name such as `..h` is left with two dots and
names the directory above.

That name is the only one that is lost. What is left of any other still has its stem, so the path is spelled
with that stem and the new extension behind the same front (`BuildMender.Path.exists_text_withExtension`), and
an extension that is exchanged twice is the second one (`BuildMender.Path.withExtension_withExtension`). With a dot
for its stem no path comes back (`BuildMender.Path.fileName?_withExtension_dot`).
-/

namespace BuildMender

namespace Path

variable {dir p : Path} {ps qs : List Text} {a t u ext name new old stem : Text}

/-! ### Texts and their pieces -/

theorem joined_slashed (t : Text) : Text.join "/" (slashed t) = t := Text.join_split '/' t

theorem eq_of_text {q : Path} (h : p.text = q.text) : p = q := by
  cases p
  cases q
  exact congrArg Path.mk h

/-- Paths taken from one directory are spelled behind one text. -/
theorem exists_text_join (hd : dir.text ≠ []) :
    ∃ a, ∀ p : Path, p.lead ≠ .root → (dir.join p).text = a ++ '/' :: p.text := by
  by_cases hs : Text.endsWith "/" dir.text
  · obtain ⟨a, ha⟩ := List.isSuffixOf_iff_suffix.mp hs
    refine ⟨a, fun p hp => ?_⟩
    have habs : p.isAbsolute = false := by simpa [isAbsolute] using hp
    rw [join, habs, if_neg (by decide), if_pos (by rw [hs, Bool.or_true]), ← ha, List.append_assoc]
    rfl
  · refine ⟨dir.text, fun p hp => ?_⟩
    have habs : p.isAbsolute = false := by simpa [isAbsolute] using hp
    have hempty : ¬(dir.text.isEmpty || Text.endsWith "/" dir.text) := by
      rw [eq_false_of_ne_true hs, Bool.or_false, List.isEmpty_iff]
      exact hd
    rw [join, habs, if_neg (by decide), if_neg hempty, List.append_assoc]
    rfl

/-- A text without slashes joins the first piece behind it. -/
theorem slashed_append (ha : '/' ∉ a) (h : slashed t = u :: ps) : slashed (a ++ t) = (a ++ u) :: ps := by
  induction a with
  | nil => exact h
  | cons c a ih =>
    rw [List.mem_cons, not_or] at ha
    obtain ⟨piece, more, hpiece, hcons⟩ := slashed_cons_of_ne (Ne.symm ha.1) (a ++ t)
    obtain ⟨rfl, rfl⟩ := List.cons.inj (hpiece.symm.trans (ih ha.2))
    exact hcons

/-- One more character is a new piece or goes into the last one. -/
theorem exists_slashed_concat (t : Text) (c : Char) : slashed (t ++ [c]) = slashed t ++ [[]] ∨
    ∃ ps u, slashed t = ps ++ [u] ∧ slashed (t ++ [c]) = ps ++ [u ++ [c]] := by
  by_cases hc : c = '/'
  · subst hc
    exact Or.inl (slashed_append_cons t [])
  · obtain ⟨ps, u, hps⟩ : ∃ ps u, slashed t = ps ++ [u] :=
      ⟨_, _, (List.dropLast_concat_getLast (slashed_ne_nil t)).symm⟩
    refine Or.inr ⟨ps, u, hps, ?_⟩
    have hold : ∀ s ∈ ps ++ [u], '/' ∉ s := fun s hs => not_mem_of_mem_slashed (hps ▸ hs)
    have hslash : ∀ s ∈ ps ++ [u ++ [c]], '/' ∉ s := by
      intro s hs
      rcases List.mem_append.mp hs with hs | hs
      · exact hold s (List.mem_append_left _ hs)
      · rw [List.mem_singleton.mp hs, List.mem_append, not_or]
        exact ⟨hold u (by simp), by simpa using Ne.symm hc⟩
    have htext : t ++ [c] = Text.join "/" (ps ++ [u ++ [c]]) := by
      rw [← joined_slashed t, hps]
      by_cases hne : ps = []
      · subst hne; rfl
      · rw [Text.join_append _ hne (by simp), Text.join_append _ hne (by simp)]
        simp [Text.join]
    rw [htext, slashed_joined (by simp) hslash]

/-- A text that begins another begins with what the first piece there begins with. -/
theorem prefix_of_slashed {v : Text} (hu : u <+: t) (hv : slashed u = v :: qs) (hs : slashed t = name :: ps) :
    v <+: name := by
  induction u generalizing t v name with
  | nil =>
    obtain ⟨rfl, -⟩ := List.cons.inj hv
    exact List.nil_prefix
  | cons c u ih =>
    obtain ⟨t, rfl, hut⟩ : ∃ t', t = c :: t' ∧ u <+: t' := by
      obtain ⟨rest, rfl⟩ := hu
      exact ⟨u ++ rest, rfl, u.prefix_append rest⟩
    by_cases hc : c = '/'
    · subst hc
      rw [slashed_cons] at hv
      rw [← (List.cons.inj hv).1]
      exact List.nil_prefix
    · obtain ⟨v', more, hu', hcu⟩ := slashed_cons_of_ne hc u
      obtain ⟨name', more', ht', hct⟩ := slashed_cons_of_ne hc t
      obtain ⟨rfl, rfl⟩ := List.cons.inj (hcu.symm.trans hv)
      obtain ⟨rfl, rfl⟩ := List.cons.inj (hct.symm.trans hs)
      exact List.cons_prefix_cons.mpr ⟨rfl, ih hut hu' ht'⟩

theorem idle_of_idle_concat {c : Char} (h : idle (u ++ [c])) : idle u := by
  have hcases : u ++ [c] = [] ∨ u ++ [c] = ['.'] := by simpa [idle] using h
  rcases hcases with h | h
  · simp at h
  · have : u = [] := by simpa using congrArg List.dropLast h
    simp [this, idle]

/-- If only idle pieces follow the first one of a text, it is so for every text that begins it. -/
theorem active_tail_slashed (ht : active (slashed t).tail = []) (hu : u <+: t) :
    active (slashed u).tail = [] := by
  obtain ⟨s, rfl⟩ := hu
  induction s using List.reverseRecOn with
  | nil => rwa [List.append_nil] at ht
  | append_singleton s c ih =>
    refine ih ?_
    rw [← List.append_assoc] at ht
    rcases exists_slashed_concat (u ++ s) c with h | ⟨ps, v, hps, h⟩
    · rw [h, List.tail_append_of_ne_nil (slashed_ne_nil _), active_append] at ht
      exact (List.append_eq_nil_iff.mp ht).1
    · rw [h] at ht
      rw [hps]
      cases ps with
      | nil => rfl
      | cons w ps =>
        rw [List.cons_append, List.tail_cons, active_append] at ht ⊢
        have hidle : idle (v ++ [c]) := by
          have := (List.append_eq_nil_iff.mp ht).2
          simpa [active] using this
        rw [(List.append_eq_nil_iff.mp ht).1, List.nil_append, active_cons_of_idle (idle_of_idle_concat hidle)]
        rfl

/-! ### The last name and what stands before it -/

/-- Idle pieces at the end are those that are left out. -/
theorem settled_of_last (hn : idle name = false) (hr : active qs = []) :
    settled (ps ++ name :: qs) = ps ++ [name] := by
  have hidle : ∀ t ∈ qs.reverse, idle t = true := by
    simpa [active] using hr
  rw [settled, List.reverse_append, List.reverse_cons, List.append_assoc,
    List.dropWhile_append_of_pos hidle, List.singleton_append, List.dropWhile_cons_of_neg (by simp [hn])]
  simp

theorem settled_append (h : active qs ≠ []) : settled (ps ++ qs) = ps ++ settled qs := by
  obtain ⟨init, t, rest, hs, ht, hqs, ha⟩ := exists_settled h
  have hrest : active rest = [] := by
    rw [hqs, active_append, active_cons_of_not_idle ht] at ha
    simpa using ha
  rw [hs, hqs, ← List.append_assoc, settled_of_last ht hrest, List.append_assoc]

/-- The pieces that a beginning is spelled with. -/
def Lead.pieces : Lead → List Text
  | .root => [[]]
  | .here => [['.']]
  | .bare => []

theorem slashed_text (p : Path) : slashed p.text = p.lead.pieces ++ p.pieces := by
  have hlead := lead_eq p
  rw [pieces_eq]
  cases hs : slashed p.text with
  | nil => exact absurd hs (slashed_ne_nil _)
  | cons t more =>
    rw [hs] at hlead
    unfold leadOf at hlead
    split at hlead <;> simp_all [Lead.pieces]

theorem text_assemble (l : Lead) (hne : ps ≠ []) : (assemble l ps).text = Text.join "/" (l.pieces ++ ps) := by
  cases l with
  | root =>
    obtain ⟨t, more, rfl⟩ := List.exists_cons_of_ne_nil hne
    rfl
  | here => exact cons_flatten_eq_joined ['.'] ps
  | bare => rfl

/-- A text of one name, behind which idle pieces may stand. -/
def IsLast (t : Text) : Prop :=
  ∃ name rest, slashed t = name :: rest ∧ idle name = false ∧ active rest = []

theorem IsLast.body_ne_nil (h : IsLast t) : Path.body ⟨t⟩ ≠ [] := by
  obtain ⟨name, rest, hs, hn, -⟩ := h
  rw [body_eq, hs, active_cons_of_not_idle hn]
  exact List.cons_ne_nil _ _

/-- A path that names something is spelled with a last name, and maybe a slash before it. -/
theorem isLast_or_behind (h : Path.body ⟨t⟩ ≠ []) :
    IsLast t ∨ ∃ b s, t = b ++ '/' :: s ∧ IsLast s := by
  obtain ⟨init, name, rest, -, hn, hs, ha⟩ := exists_settled (body_eq ⟨t⟩ ▸ h)
  have hrest : active rest = [] := by
    rw [hs, active_append, active_cons_of_not_idle hn] at ha
    simpa using ha
  by_cases hinit : init = []
  · exact Or.inl ⟨name, rest, by rw [hs, hinit, List.nil_append], hn, hrest⟩
  · refine Or.inr ⟨Text.join "/" init, Text.join "/" (name :: rest), ?_, name, rest, ?_, hn, hrest⟩
    · rw [← joined_slashed t, hs, Text.join_append _ hinit (List.cons_ne_nil _ _), List.append_assoc]
      rfl
    · refine slashed_joined (List.cons_ne_nil _ _) fun s hmem => not_mem_of_mem_slashed (t := t) ?_
      rw [hs]
      exact List.mem_append_right _ hmem

/-! ### File names behind a slash -/

theorem body_append_cons (a t : Text) :
    Path.body ⟨a ++ '/' :: t⟩ = Path.body ⟨a⟩ ++ Path.body ⟨t⟩ := by
  simp only [body_eq, slashed_append_cons, active_append]

theorem fileName?_append_cons (h : Path.body ⟨t⟩ ≠ []) :
    Path.fileName? ⟨a ++ '/' :: t⟩ = Path.fileName? ⟨t⟩ := by
  rw [fileName?_eq, fileName?_eq, body_append_cons, List.getLast?_append_of_ne_nil _ h]

/-- What may stand in front of a last name: nothing, or a text up to a slash. -/
def IsFront (a : Text) : Prop := a = [] ∨ ∃ b, a = b ++ ['/']

theorem exists_isFront (h : Path.body ⟨t⟩ ≠ []) : ∃ a s, t = a ++ s ∧ IsFront a ∧ IsLast s := by
  rcases isLast_or_behind h with hlast | ⟨b, s, rfl, hlast⟩
  · exact ⟨[], t, rfl, Or.inl rfl, hlast⟩
  · exact ⟨b ++ ['/'], s, by simp, Or.inr ⟨b, rfl⟩, hlast⟩

theorem IsFront.body_append (ha : IsFront a) (t : Text) :
    Path.body ⟨a ++ t⟩ = Path.body ⟨a⟩ ++ Path.body ⟨t⟩ := by
  obtain rfl | ⟨b, rfl⟩ := ha
  · rfl
  · have hempty : Path.body ⟨[]⟩ = [] := rfl
    rw [List.append_assoc, List.singleton_append, body_append_cons, body_append_cons b [], hempty, List.append_nil]

theorem IsFront.fileName?_append (ha : IsFront a) (h : Path.body ⟨t⟩ ≠ []) :
    Path.fileName? ⟨a ++ t⟩ = Path.fileName? ⟨t⟩ := by
  rw [fileName?_eq, fileName?_eq, ha.body_append, List.getLast?_append_of_ne_nil _ h]

theorem IsLast.lead (h : IsLast t) : Path.lead ⟨t⟩ = .bare := by
  obtain ⟨name, rest, hs, hn, -⟩ := h
  rw [lead_eq, hs]
  match name, hn with
  | c :: cs, hn =>
    have hdot : c :: cs ≠ ['.'] := by
      rintro hdot
      rw [hdot] at hn
      cases hn
    simp [leadOf, hdot]

/-- Names behind one front belong to paths that begin alike. -/
theorem IsFront.lead_append (ha : IsFront a) (ht : IsLast t) (hu : IsLast u) :
    Path.lead ⟨a ++ t⟩ = Path.lead ⟨a ++ u⟩ := by
  obtain rfl | ⟨b, rfl⟩ := ha
  · exact ht.lead.trans hu.lead.symm
  · rw [List.append_assoc, List.append_assoc, List.singleton_append, List.singleton_append, lead_eq, lead_eq,
      slashed_append_cons, slashed_append_cons]
    -- nothing stands before the slash of a name in the root
    by_cases hb : slashed b = [[]]
    · obtain ⟨x, xs, hx⟩ := List.exists_cons_of_ne_nil (slashed_ne_nil t)
      obtain ⟨y, ys, hy⟩ := List.exists_cons_of_ne_nil (slashed_ne_nil u)
      rw [hb, hx, hy]
      rfl
    · rw [leadOf_append (slashed_ne_nil b) hb, leadOf_append (slashed_ne_nil b) hb]

/-- The file name of a text is its first piece, unless that is `..`. -/
theorem IsLast.fileName? (hs : slashed t = name :: ps) (hn : idle name = false) (hr : active ps = []) :
    Path.fileName? ⟨t⟩ = if name = ['.', '.'] then none else some name := by
  rw [fileName?_eq, body_eq, hs, active_cons_of_not_idle hn, hr, component]
  split <;> rfl

theorem stemAndExtension_some (h : stemAndExtension name = (stem, some old)) :
    stem ≠ [] ∧ name = stem ++ "." ++ old := by
  rw [stemAndExtension] at h
  split at h
  · cases h
  · rename_i s e hne hcut
    obtain ⟨rfl, rfl⟩ : s = stem ∧ e = old := by simpa using h
    exact ⟨hne, Text.eq_of_cutLast hcut⟩
  · cases h

theorem dot_not_mem_extension (h : stemAndExtension name = (stem, some old)) : '.' ∉ old := by
  rw [stemAndExtension] at h
  split at h
  · cases h
  · rename_i hcut
    cases h
    exact Text.not_mem_of_cutLast hcut
  · cases h

/-- A stem with an extension behind it is cut there again. -/
theorem stemAndExtension_append (hstem : stem ≠ []) (hext : '.' ∉ ext) :
    stemAndExtension (stem ++ "." ++ ext) = (stem, some ext) := by
  have hnot : ¬".".toList <:+: ".".toList.tail ++ ext := fun h => hext (h.subset (by decide))
  have hcut : Text.cutLast "." (stem ++ ("." ++ ext)) = some (stem, ext) :=
    Text.cutLast_append (by decide) hnot
  rw [stemAndExtension, List.append_assoc, hcut]
  split
  · rename_i h
    exact absurd (Prod.ext_iff.mp (Option.some.inj h)).1 hstem
  · rename_i h
    cases h
    rfl
  · rename_i h
    cases h

/-- There is one way to take a name apart into a stem and an extension. -/
theorem stem_append_inj {stem' ext' : Text} (h : stem ++ "." ++ ext = stem' ++ "." ++ ext') (hstem : stem ≠ [])
    (hstem' : stem' ≠ []) (hext : '.' ∉ ext) (hext' : '.' ∉ ext') : stem = stem' ∧ ext = ext' := by
  have hcut := stemAndExtension_append hstem hext
  rw [h, stemAndExtension_append hstem' hext'] at hcut
  simpa [eq_comm] using hcut

/-- The stem of a name is some of its first characters. -/
theorem stem_prefix_name (name : Text) : (stemAndExtension name).1 <+: name := by
  rcases h : stemAndExtension name with ⟨stem, _ | old⟩
  · rw [stemAndExtension] at h
    split at h <;> cases h
    all_goals exact List.prefix_rfl
  · rw [(stemAndExtension_some h).2, List.append_assoc]
    exact List.prefix_append _ _

theorem stem_ne_nil (h : name ≠ []) : (stemAndExtension name).1 ≠ [] := by
  rcases hs : stemAndExtension name with ⟨stem, _ | old⟩
  · rw [stemAndExtension] at hs
    split at hs <;> cases hs
    all_goals exact h
  · exact (stemAndExtension_some hs).1

/-! ### A stem with an extension -/

/-- A stem is made of characters, and no slash is among them. -/
theorem stem_of_stem? (hs : p.stem? = some stem) : stem ≠ [] ∧ '/' ∉ stem := by
  obtain ⟨n, hn, rfl⟩ := Option.map_eq_some_iff.mp hs
  obtain ⟨hidle, -, hslash⟩ := piece_of_fileName? hn
  refine ⟨stem_ne_nil ?_, fun hmem => hslash ((stem_prefix_name n).subset hmem)⟩
  rintro rfl
  cases hidle

theorem idle_stem (hstem : stem ≠ []) (ext : Text) : idle (stem ++ "." ++ ext) = false := by
  obtain ⟨c, cs, rfl⟩ := List.exists_cons_of_ne_nil hstem
  simp [idle]

theorem slashed_stem (hs : p.stem? = some stem) (hslash : '/' ∉ ext) :
    slashed (stem ++ "." ++ ext) = [stem ++ "." ++ ext] := by
  have hpiece : '/' ∉ stem ++ "." ++ ext := by simp [(stem_of_stem? hs).2, hslash]
  exact Text.split_of_none fun _ hc hd => hpiece (of_decide_eq_true hd ▸ hc)

theorem isLast_stem (hs : p.stem? = some stem) (hslash : '/' ∉ ext) : IsLast (stem ++ "." ++ ext) :=
  ⟨_, [], slashed_stem hs hslash, idle_stem (stem_of_stem? hs).1 ext, rfl⟩

/-- A stem and an extension are a file name. -/
theorem fileName?_stem (hs : p.stem? = some stem) (hext : ext ≠ []) (hslash : '/' ∉ ext) :
    Path.fileName? ⟨stem ++ "." ++ ext⟩ = some (stem ++ "." ++ ext) := by
  have hne := (stem_of_stem? hs).1
  have hup : stem ++ "." ++ ext ≠ ['.', '.'] := by
    intro h
    have hlen : stem.length + (ext.length + 1) = 2 := by simpa using congrArg List.length h
    have hpos := List.length_pos_iff.mpr hne
    have hpos' := List.length_pos_iff.mpr hext
    omega
  rw [IsLast.fileName? (slashed_stem hs hslash) (idle_stem hne ext) rfl, if_neg hup]

/-- Such a file name is taken apart into that stem and that extension. -/
theorem parts_of_fileName? (hn : p.fileName? = some (stem ++ "." ++ ext)) (hstem : stem ≠ []) (hext : '.' ∉ ext) :
    p.stem? = some stem ∧ p.extension? = some ext := by
  rw [stem?, extension?, hn, Option.map_some, Option.bind_some, stemAndExtension_append hstem hext]
  exact ⟨rfl, rfl⟩

/-! ### The new extension behind the stem -/

theorem text_replaceExtension (h : p.body ≠ []) (hstem : p.stem? = some stem) (hext : ext ≠ []) :
    (p.replaceExtension ext).text =
      Text.join "/" ((settled (slashed p.text)).dropLast ++ [stem]) ++ "." ++ ext := by
  have hne : settled p.pieces ≠ [] := fun hnil => h (active_pieces p ▸ settled_eq_nil.mp hnil)
  have hpieces : active p.pieces ≠ [] := active_pieces p ▸ h
  rw [replaceExtension, hstem]
  simp only [List.isEmpty_iff, hext, if_false]
  rw [text_assemble _ (by simp), slashed_text, settled_append hpieces, List.dropLast_append_of_ne_nil hne]
  simp only [List.append_assoc]

theorem replaceExtension_of_nameless (h : p.fileName? = none) : p.replaceExtension ext = p := by
  rw [replaceExtension, stem?, h]
  rfl

theorem replaceExtension_append_cons (h : Path.body ⟨t⟩ ≠ []) (hext : ext ≠ []) :
    Path.replaceExtension ext ⟨a ++ '/' :: t⟩ = ⟨a ++ '/' :: (Path.replaceExtension ext ⟨t⟩).text⟩ := by
  have hname : Path.stem? ⟨a ++ '/' :: t⟩ = Path.stem? ⟨t⟩ := by
    rw [stem?, stem?, fileName?_append_cons h]
  cases hstem : Path.stem? ⟨t⟩ with
  | none => rw [replaceExtension, replaceExtension, hname, hstem]
  | some stem =>
    have hne : settled (slashed t) ≠ [] := fun hnil => h (settled_eq_nil.mp hnil)
    have hbehind : Path.body ⟨a ++ '/' :: t⟩ ≠ [] := by
      rw [body_append_cons]
      exact List.append_ne_nil_of_right_ne_nil _ h
    have hlast : (settled (slashed t)).dropLast ++ [stem] ≠ [] := by simp
    refine eq_of_text ?_
    rw [text_replaceExtension hbehind (hname.trans hstem) hext, text_replaceExtension h hstem hext,
      slashed_append_cons, settled_append (body_eq ⟨t⟩ ▸ h), List.dropLast_append_of_ne_nil hne,
      List.append_assoc (slashed a), Text.join_append _ (slashed_ne_nil a) hlast, joined_slashed]
    simp

/-- The stem and the new extension are all that is left of one name. -/
theorem IsLast.text_replaceExtension (h : IsLast t) (hstem : Path.stem? ⟨t⟩ = some stem) (hext : ext ≠ []) :
    (Path.replaceExtension ext ⟨t⟩).text = stem ++ "." ++ ext := by
  have hbody := h.body_ne_nil
  obtain ⟨name, rest, hs, hn, hr⟩ := h
  have hsettled : settled ([] ++ name :: rest) = [] ++ [name] := settled_of_last hn hr
  rw [List.nil_append, List.nil_append] at hsettled
  rw [Path.text_replaceExtension hbody hstem hext, hs, hsettled]
  rfl

theorem IsLast.replaceExtension (h : IsLast t) (hext : ext ≠ []) (hslash : '/' ∉ ext) :
    IsLast (Path.replaceExtension ext ⟨t⟩).text := by
  cases hstem : Path.stem? ⟨t⟩ with
  | none =>
    rw [Path.replaceExtension, hstem]
    exact h
  | some stem =>
    rw [h.text_replaceExtension hstem hext]
    exact isLast_stem hstem hslash

/-- A text of one name gets the new extension, unless it is no name of a file. -/
theorem IsLast.extension?_replaceExtension (h : IsLast t) (hext : ext ≠ []) (hdot : '.' ∉ ext)
    (hslash : '/' ∉ ext) : Path.fileName? (Path.replaceExtension ext ⟨t⟩) = none ∨
      Path.extension? (Path.replaceExtension ext ⟨t⟩) = some ext := by
  cases hstem : Path.stem? ⟨t⟩ with
  | none =>
    refine Or.inl ?_
    rw [Path.replaceExtension, hstem]
    simpa [Path.stem?] using hstem
  | some stem =>
    have hname : Path.fileName? (Path.replaceExtension ext ⟨t⟩) = some (stem ++ "." ++ ext) := by
      rw [eq_of_text (q := ⟨stem ++ "." ++ ext⟩) (h.text_replaceExtension hstem hext)]
      exact fileName?_stem hstem hext hslash
    exact Or.inr (parts_of_fileName? hname (stem_of_stem? hstem).1 hdot).2

/-! ### The old extension taken off -/

theorem take_append_cons (h : old.length ≤ t.length) :
    (a ++ '/' :: t).take ((a ++ '/' :: t).length - old.length) =
      a ++ '/' :: t.take (t.length - old.length) := by
  have hlen : (a ++ '/' :: t).length - old.length = a.length + (t.length - old.length + 1) := by
    simp only [List.length_append, List.length_cons]
    omega
  rw [hlen, List.take_length_add_append, List.take_succ_cons]

/-- Without as many characters at its end as its extension has, a text has one name still: the stem and the dot,
with some of the extension behind them if the text ends with idle pieces. -/
theorem IsLast.exists_shorten (h : IsLast t) (he : Path.extension? ⟨t⟩ = some old) :
    ∃ stem v rest, Path.stem? ⟨t⟩ = some stem ∧ stem ≠ [] ∧ '.' ∉ v ∧ active rest = [] ∧
      old.length ≤ t.length ∧ slashed (t.take (t.length - old.length)) = (stem ++ "." ++ v) :: rest := by
  obtain ⟨name, rest, hs, hn, hr⟩ := h
  have hfile := IsLast.fileName? hs hn hr
  obtain ⟨stem, hname, hstem⟩ :
      ∃ stem, Path.stem? ⟨t⟩ = some stem ∧ stemAndExtension name = (stem, some old) := by
    rw [extension?, hfile] at he
    rw [stem?, hfile]
    split at he
    · cases he
    · rename_i hup
      exact ⟨_, by rw [if_neg hup]; rfl, Prod.ext rfl he⟩
  obtain ⟨hne, rfl⟩ := stemAndExtension_some hstem
  have hslash : '/' ∉ stem ++ "." := fun hmem =>
    not_mem_of_mem_slashed (t := t) (hs ▸ List.mem_cons_self) (List.mem_append_left _ hmem)
  -- the text is the stem, a dot, and the extension with what follows the name
  obtain ⟨after, hafter⟩ : ∃ after, t = (stem ++ ".") ++ (old ++ after) := by
    refine ⟨(rest.map ('/' :: ·)).flatten, ?_⟩
    rw [← joined_slashed t, hs, ← cons_flatten_eq_joined, List.append_assoc]
  have hlen : t.length - old.length = (stem ++ "." : Text).length + after.length := by
    rw [hafter]
    simp only [List.length_append]
    omega
  have htake : t.take (t.length - old.length) = (stem ++ ".") ++ (old ++ after).take after.length := by
    rw [hlen]
    conv_lhs => rw [hafter]
    exact List.take_length_add_append _
  obtain ⟨v, vs, hv⟩ := List.exists_cons_of_ne_nil (slashed_ne_nil ((old ++ after).take after.length))
  have hcut : slashed (t.take (t.length - old.length)) = (stem ++ "." ++ v) :: vs := by
    rw [htake, slashed_append hslash hv]
  have hprefix : t.take (t.length - old.length) <+: t := List.take_prefix _ _
  refine ⟨stem, v, vs, hname, hne, ?_, ?_, ?_, hcut⟩
  · have hold : v <+: old := (List.prefix_append_right_inj _).mp (prefix_of_slashed hprefix hcut hs)
    exact fun hmem => dot_not_mem_extension hstem (hold.subset hmem)
  · have htail : active (slashed t).tail = [] := by rw [hs]; exact hr
    have := active_tail_slashed htail hprefix
    rwa [hcut] at this
  · rw [hafter]
    simp only [List.length_append]
    omega

theorem IsLast.shorten (h : IsLast t) (he : Path.extension? ⟨t⟩ = some old) :
    old.length ≤ t.length ∧ IsLast (t.take (t.length - old.length)) := by
  obtain ⟨stem, v, rest, -, hne, -, hrest, hlen, hcut⟩ := h.exists_shorten he
  exact ⟨hlen, stem ++ "." ++ v, rest, hcut, idle_stem hne v, hrest⟩

theorem withExtension_of_extension? (he : p.extension? = some old) :
    p.withExtension ext = replaceExtension ext ⟨p.text.take (p.text.length - old.length)⟩ := by
  rw [withExtension, he]

/-- **One name with another extension** is its stem and that extension. Only a stem that is a dot may be left with
two dots instead, which are the name of no file. -/
theorem IsLast.text_withExtension (h : IsLast t) (hs : Path.stem? ⟨t⟩ = some stem)
    (he : Path.extension? ⟨t⟩ = some old) (hext : ext ≠ []) :
    (Path.withExtension ext ⟨t⟩).text = stem ++ "." ++ ext ∨
      stem = ['.'] ∧ Path.fileName? (Path.withExtension ext ⟨t⟩) = none := by
  obtain ⟨stem', v, rest, hs', hne, hv, hrest, -, hcut⟩ := h.exists_shorten he
  obtain rfl : stem' = stem := Option.some.inj (hs'.symm.trans hs)
  have hlast := (h.shorten he).2
  have hcutName := stemAndExtension_append hne hv
  have hname := IsLast.fileName? hcut (idle_stem hne v) hrest
  rw [withExtension_of_extension? he]
  by_cases hup : stem' ++ "." ++ v = ['.', '.']
  · rw [if_pos hup] at hname
    have hdots : stemAndExtension ['.', '.'] = (['.'], some []) := by decide
    rw [hup, hdots] at hcutName
    refine Or.inr ⟨(Prod.ext_iff.mp hcutName).1.symm, ?_⟩
    rw [replaceExtension_of_nameless hname]
    exact hname
  · have hstem : Path.stem? ⟨t.take (t.length - old.length)⟩ = some stem' := by
      rw [stem?, hname, if_neg hup, Option.map_some, hcutName]
    exact Or.inl (hlast.text_replaceExtension hstem hext)

theorem IsLast.withExtension (h : IsLast t) (hext : ext ≠ []) (hslash : '/' ∉ ext) :
    IsLast (Path.withExtension ext ⟨t⟩).text := by
  rw [Path.withExtension]
  split
  · exact h.replaceExtension hext hslash
  · exact (h.shorten ‹_›).2.replaceExtension hext hslash

/-- **An extension is exchanged behind the last slash.** -/
theorem withExtension_append_cons (h : Path.body ⟨t⟩ ≠ []) (hext : ext ≠ []) :
    Path.withExtension ext ⟨a ++ '/' :: t⟩ = ⟨a ++ '/' :: (Path.withExtension ext ⟨t⟩).text⟩ := by
  have hname : Path.extension? ⟨a ++ '/' :: t⟩ = Path.extension? ⟨t⟩ := by
    rw [extension?, extension?, fileName?_append_cons h]
  rw [withExtension, withExtension, hname]
  cases hold : Path.extension? ⟨t⟩ with
  | none => exact replaceExtension_append_cons h hext
  | some old =>
    obtain ⟨hlen, hshort⟩ : old.length ≤ t.length ∧
        Path.body ⟨t.take (t.length - old.length)⟩ ≠ [] := by
      rcases isLast_or_behind h with hlast | ⟨b, s, rfl, hlast⟩
      · exact ⟨(hlast.shorten hold).1, (hlast.shorten hold).2.body_ne_nil⟩
      · have hs : Path.extension? ⟨s⟩ = some old := by
          rw [← hold, extension?, extension?, fileName?_append_cons hlast.body_ne_nil]
        obtain ⟨hlen, hshort⟩ := hlast.shorten hs
        refine ⟨by simp only [List.length_append, List.length_cons]; omega, ?_⟩
        rw [take_append_cons hlen, body_append_cons]
        exact List.append_ne_nil_of_right_ne_nil _ hshort.body_ne_nil
    simp only [take_append_cons hlen]
    exact replaceExtension_append_cons hshort hext

/-- An extension is exchanged behind the front of a path. -/
theorem IsFront.withExtension_append (ha : IsFront a) (h : Path.body ⟨t⟩ ≠ []) (hext : ext ≠ []) :
    Path.withExtension ext ⟨a ++ t⟩ = ⟨a ++ (Path.withExtension ext ⟨t⟩).text⟩ := by
  obtain rfl | ⟨b, rfl⟩ := ha
  · rfl
  · rw [List.append_assoc, List.singleton_append, withExtension_append_cons h hext, List.append_assoc,
      List.singleton_append]

/-- **The extension of a path is the one it was given**, as long as it has a file name at all: `..h`, less its
extension, names the directory above. -/
theorem extension?_withExtension (hb : p.body ≠ []) (hext : ext ≠ []) (hdot : '.' ∉ ext)
    (hslash : '/' ∉ ext) : (p.withExtension ext).fileName? = none ∨ (p.withExtension ext).extension? = some ext := by
  obtain ⟨t⟩ := p
  obtain ⟨a, t, rfl, ha, ht⟩ := exists_isFront hb
  have hname := ha.fileName?_append (ht.withExtension hext hslash).body_ne_nil
  rw [ha.withExtension_append ht.body_ne_nil hext, extension?, hname, ← extension?, Path.withExtension]
  split
  · exact ht.extension?_replaceExtension hext hdot hslash
  · exact (ht.shorten ‹_›).2.extension?_replaceExtension hext hdot hslash

/-! ### What stays -/

/-- **Another extension, before or after** the path is taken from a directory. -/
theorem withExtension_join (hd : dir.text ≠ []) (hl : p.lead ≠ .root) (hb : p.body ≠ [])
    (hl' : (p.withExtension ext).lead ≠ .root) (hext : ext ≠ []) :
    (dir.join p).withExtension ext = dir.join (p.withExtension ext) := by
  obtain ⟨a, ha⟩ := exists_text_join hd
  have hjoin : dir.join p = ⟨a ++ '/' :: p.text⟩ := eq_of_text (ha p hl)
  rw [hjoin, withExtension_append_cons hb hext]
  exact eq_of_text (ha _ hl').symm

/-- A path with another extension begins as the path does. -/
theorem lead_withExtension (hb : p.body ≠ []) (hext : ext ≠ []) (hslash : '/' ∉ ext) :
    (p.withExtension ext).lead = p.lead := by
  obtain ⟨t⟩ := p
  obtain ⟨a, t, rfl, ha, ht⟩ := exists_isFront hb
  rw [ha.withExtension_append ht.body_ne_nil hext]
  exact ha.lead_append (ht.withExtension hext hslash) ht

/-- **A path with another extension names the same directories**: the last component is exchanged for
one other, and no root is put in front. -/
theorem withExtension_keeps (hb : p.body ≠ []) (hext : ext ≠ []) (hslash : '/' ∉ ext) :
    (p.withExtension ext).body ≠ [] ∧ (p.withExtension ext).body.dropLast = p.body.dropLast ∧
      ((p.withExtension ext).lead = .root ↔ p.lead = .root) := by
  have hdropLast {t : Text} (h : IsLast t) : (Path.body ⟨t⟩).dropLast = [] := by
    obtain ⟨name, rest, hs, hn, hr⟩ := h
    rw [body_eq, hs, active_cons_of_not_idle hn, hr]
    rfl
  have hlead := lead_withExtension hb hext hslash
  obtain ⟨t⟩ := p
  obtain ⟨a, t, rfl, ha, ht⟩ := exists_isFront hb
  have hnew := ht.withExtension hext hslash
  rw [ha.withExtension_append ht.body_ne_nil hext] at hlead ⊢
  refine ⟨?_, ?_, by rw [hlead]⟩
  · rw [ha.body_append]
    exact List.append_ne_nil_of_right_ne_nil _ hnew.body_ne_nil
  · rw [ha.body_append, ha.body_append, List.dropLast_append_of_ne_nil hnew.body_ne_nil,
      List.dropLast_append_of_ne_nil ht.body_ne_nil, hdropLast hnew, hdropLast ht]

/-- It lies in the same directory. -/
theorem parent?_withExtension (hb : p.body ≠ []) (hext : ext ≠ []) (hslash : '/' ∉ ext) :
    (p.withExtension ext).parent?.map components = p.parent?.map components := by
  obtain ⟨hne, hdropLast, -⟩ := withExtension_keeps hb hext hslash
  obtain ⟨dir, hdir, hlead, hbody⟩ := exists_parent hb
  obtain ⟨place, hplace, hlead', hbody'⟩ := exists_parent hne
  rw [hdir, hplace, Option.map_some, Option.map_some, Option.some_inj, components_inj, hlead, hlead', hbody, hbody',
    hdropLast, lead_withExtension hb hext hslash]
  exact ⟨rfl, rfl⟩

/-! ### Exchanged twice -/

/-- **How a path is spelled with another extension**: the same front, the stem, and that extension. Only a path
whose stem is a dot may be left without a file name. -/
theorem exists_text_withExtension (hs : p.stem? = some stem) (he : p.extension? = some old) :
    ∃ a, IsFront a ∧ ∀ ext : Text, ext ≠ [] → '/' ∉ ext →
      (p.withExtension ext).text = a ++ (stem ++ "." ++ ext) ∨
        stem = ['.'] ∧ (p.withExtension ext).fileName? = none := by
  obtain ⟨n, hn, -⟩ := Option.map_eq_some_iff.mp hs
  obtain ⟨t⟩ := p
  obtain ⟨a, t, rfl, ha, ht⟩ := exists_isFront (body_ne_nil_of_fileName? hn)
  have hname := ha.fileName?_append ht.body_ne_nil
  rw [stem?, hname, ← stem?] at hs
  rw [extension?, hname, ← extension?] at he
  refine ⟨a, ha, fun ext hext hslash => ?_⟩
  rw [ha.withExtension_append ht.body_ne_nil hext]
  refine (ht.text_withExtension hs he hext).imp (congrArg (a ++ ·)) fun ⟨hdot, hnone⟩ => ⟨hdot, ?_⟩
  rw [ha.fileName?_append (ht.withExtension hext hslash).body_ne_nil]
  exact hnone

/-- **The file name of a path with another extension.** -/
theorem fileName?_withExtension (hs : p.stem? = some stem) (he : p.extension? = some old) (hext : ext ≠ [])
    (hslash : '/' ∉ ext) : (p.withExtension ext).fileName? = some (stem ++ "." ++ ext) ∨
      stem = ['.'] ∧ (p.withExtension ext).fileName? = none := by
  obtain ⟨a, ha, htext⟩ := exists_text_withExtension hs he
  refine (htext ext hext hslash).imp_left fun h => ?_
  rw [eq_of_text (q := ⟨a ++ (stem ++ "." ++ ext)⟩) h]
  exact (ha.fileName?_append (isLast_stem hs hslash).body_ne_nil).trans (fileName?_stem hs hext hslash)

/-- **The second of two extensions counts**, unless the stem is a dot. -/
theorem withExtension_withExtension (hs : p.stem? = some stem) (he : p.extension? = some old) (hstem : stem ≠ ['.'])
    (hext : ext ≠ []) (hdot : '.' ∉ ext) (hslash : '/' ∉ ext) (hnew : new ≠ []) (hnewSlash : '/' ∉ new) :
    (p.withExtension ext).withExtension new = p.withExtension new := by
  obtain ⟨a, ha, htext⟩ := exists_text_withExtension hs he
  have hfirst := (htext ext hext hslash).resolve_right fun h => hstem h.1
  have hsecond := (htext new hnew hnewSlash).resolve_right fun h => hstem h.1
  have hlast : IsLast (stem ++ "." ++ ext) := isLast_stem hs hslash
  obtain ⟨hs', he'⟩ := parts_of_fileName? (fileName?_stem hs hext hslash) (stem_of_stem? hs).1 hdot
  have htext' := (hlast.text_withExtension hs' he' hnew).resolve_right fun h => hstem h.1
  refine eq_of_text ?_
  rw [eq_of_text (q := ⟨a ++ (stem ++ "." ++ ext)⟩) hfirst, ha.withExtension_append hlast.body_ne_nil hnew, htext',
    hsecond]

/-- **A stem that is a dot** is taken for a part of `..` when the extension is exchanged a second time, and no file
name is left. -/
theorem fileName?_withExtension_dot (hs : p.stem? = some ['.']) (he : p.extension? = some old) (hext : ext ≠ [])
    (hdot : '.' ∉ ext) (hslash : '/' ∉ ext) (hnew : new ≠ []) :
    ((p.withExtension ext).withExtension new).fileName? = none := by
  obtain ⟨a, ha, htext⟩ := exists_text_withExtension hs he
  rcases htext ext hext hslash with htext | ⟨-, hnone⟩
  · have hlast : IsLast (['.'] ++ "." ++ ext) := isLast_stem hs hslash
    have he' := (parts_of_fileName? (fileName?_stem hs hext hslash) (List.cons_ne_nil _ _) hdot).2
    have hdots : Path.withExtension new ⟨['.'] ++ "." ++ ext⟩ = ⟨['.', '.']⟩ := by
      have htake : (['.'] ++ "." ++ ext : Text).take ((['.'] ++ "." ++ ext : Text).length - ext.length) =
          ['.', '.'] := by
        rw [List.length_append, Nat.add_sub_cancel_right]
        exact List.take_left' rfl
      rw [withExtension_of_extension? he', htake]
      exact replaceExtension_of_nameless (by decide)
    rw [eq_of_text (q := ⟨a ++ (['.'] ++ "." ++ ext)⟩) htext, ha.withExtension_append hlast.body_ne_nil hnew, hdots,
      ha.fileName?_append (by decide)]
    decide
  · have hnone' : (p.withExtension ext).extension? = none := by rw [extension?, hnone]; rfl
    rw [withExtension, hnone']
    simp only [replaceExtension_of_nameless hnone]
    exact hnone

end Path

end BuildMender
