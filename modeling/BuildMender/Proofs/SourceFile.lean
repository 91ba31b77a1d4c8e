import BuildMender.Proofs.Path.Extension
import BuildMender.SourceFile

/-!
# The role of a file, and its counterparts

A file lies below the directory for interface code when the names of that directory stand in a row
somewhere above it. Looked at with its whole path, the row may also begin among the directories that the
project itself lies in: this is all that the place of a project adds to the role of a file
(`BuildMender.SourceFile.kind_join`).

A header and an implementation are counterparts when they have one stem and lie in one directory. Each is
looked for from the other by exchanging the extension, and what has to be seen is that nothing is lost on the
way there and back: the second of two extensions counts (`BuildMender.Path.withExtension_withExtension`). It does
for every spelling, with one exception. A stem that is a dot makes `..` with the dot behind it, and that is no
name of a file. So the two find each other just if their stem is not a dot
(`BuildMender.SourceFile.paired_iff`).
-/

namespace BuildMender

namespace SourceFile

variable {dir stem e : Text} {run xs ys : List Text} {root p q r : Path} {isFile : Path → Bool}

/-! ### Runs in two lists -/

/-- Whether a run begins in the first of two lists that follow each other, and maybe goes on in the
second. -/
def beginsIn (run : List Text) : List Text → List Text → Bool
  | [], _ => false
  | n :: ns, rest => run.isPrefixOf (n :: ns ++ rest) || beginsIn run ns rest

theorem runIn_iff : runIn run xs ↔ run <:+: xs := by
  induction xs with
  | nil => rw [runIn, List.isEmpty_iff, List.infix_nil]
  | cons n ns ih => rw [runIn, Bool.or_eq_true, List.isPrefixOf_iff_prefix, ih, List.infix_cons_iff]

/-- A run in two lists that follow each other begins in one of them. -/
theorem runIn_append (run xs ys : List Text) :
    runIn run (xs ++ ys) = (beginsIn run xs ys || runIn run ys) := by
  induction xs with
  | nil => rfl
  | cons n ns ih =>
    rw [List.cons_append, runIn, beginsIn, ih, ← Bool.or_assoc]
    rfl

theorem beginsIn_of_not_mem {n : Text} (h : n ∉ xs) : beginsIn (n :: run) xs ys = false := by
  induction xs with
  | nil => rfl
  | cons m ms ih =>
    rw [List.mem_cons, not_or] at h
    rw [beginsIn, ih h.2, Bool.or_false, List.cons_append, List.isPrefixOf, beq_eq_false_iff_ne.mpr h.1,
      Bool.false_and]

/-! ### The directories above a file -/

/-- The names of the directories that a path goes through. -/
def parentNames (p : Path) : List Text := (p.body.dropLast).map Path.Component.text

theorem isUnder_eq (hb : p.body ≠ []) : isUnder dir p =
    (!(directoryNames dir).isEmpty &&
      runIn (directoryNames dir) (p.lead.components.map Path.Component.text ++ parentNames p)) := by
  obtain ⟨parent, hparent, hlead, hbody⟩ := Path.exists_parent hb
  rw [isUnder, hparent, Option.map_some, Option.getD_some, Path.components_eq, hlead, hbody,
    List.map_append]
  rfl

/-- No name of a directory is what a path begins with. -/
theorem not_mem_directoryNames (dir : Text) : ['.'] ∉ directoryNames dir ∧ ['/'] ∉ directoryNames dir := by
  refine ⟨by simp [directoryNames], fun hmem => ?_⟩
  exact Text.not_mem_of_mem_split (List.mem_of_mem_filter hmem) '/' (by simp) (by decide)

/-- What a path begins with is no directory above the file. -/
theorem isUnder_eq_names (hb : p.body ≠ []) :
    isUnder dir p = (!(directoryNames dir).isEmpty && runIn (directoryNames dir) (parentNames p)) := by
  rw [isUnder_eq hb]
  cases hnames : directoryNames dir with
  | nil => rfl
  | cons n run =>
    have hn : n ∉ p.lead.components.map Path.Component.text := by
      obtain ⟨hhere, hroot⟩ := not_mem_directoryNames dir
      rw [hnames, List.mem_cons, not_or] at hhere hroot
      cases p.lead with
      | root => exact fun hmem => hroot.1 (List.mem_singleton.mp hmem).symm
      | here => exact fun hmem => hhere.1 (List.mem_singleton.mp hmem).symm
      | bare => exact List.not_mem_nil
    rw [runIn_append, beginsIn_of_not_mem hn, Bool.false_or]

/-- **Lying below a directory**, by the names of the directories that a path goes through. -/
theorem isUnder_iff (hb : p.body ≠ []) :
    isUnder dir p ↔ directoryNames dir ≠ [] ∧ directoryNames dir <:+: parentNames p := by
  rw [isUnder_eq_names hb, Bool.and_eq_true, Bool.not_eq_true', List.isEmpty_eq_false_iff, runIn_iff]

/-- **The names of the interface directory begin above the project**: among the directories that its root
is made of, and maybe they go on inside. -/
def beginsAbove (dir : Text) (root p : Path) : Bool :=
  !(directoryNames dir).isEmpty &&
    beginsIn (directoryNames dir) (root.components.map Path.Component.text) (parentNames p)

/-- A file of a project lies below a directory inside the project, or by the place of the project. -/
theorem isUnder_join (hd : root.text ≠ []) (hl : p.lead ≠ .root) (hb : p.body ≠ []) :
    isUnder dir (root.join p) = (beginsAbove dir root p || isUnder dir p) := by
  have hbody : (root.join p).body = root.body ++ p.body := Path.body_join hl
  have hparent : (root.join p).lead.components.map Path.Component.text ++ parentNames (root.join p) =
      root.components.map Path.Component.text ++ parentNames p := by
    rw [parentNames, hbody, List.dropLast_append_of_ne_nil hb, Path.lead_join hl hd, Path.components_eq,
      List.map_append, List.map_append, List.append_assoc]
    rfl
  rw [isUnder_eq (by simp [hbody, hb]), isUnder_eq_names hb, hparent, beginsAbove]
  cases hnames : directoryNames dir with
  | nil => rfl
  | cons n run => simp [runIn_append]

/-! ### Roles -/

theorem extension_congr (h : p.fileName? = q.fileName?) : extension p = extension q := by
  rw [extension, extension, Path.extension?, Path.extension?, h]

theorem isHeader_congr (h : p.fileName? = q.fileName?) : isHeader p = isHeader q := by
  rw [isHeader, isHeader, extension_congr h]

theorem isImplementation_congr (h : p.fileName? = q.fileName?) : isImplementation p = isImplementation q := by
  rw [isImplementation, isImplementation, extension_congr h]

/-- A file with the extension of a header or an implementation has a file name. -/
theorem exists_fileName? (h : isHeader p ∨ isImplementation p) : ∃ n, p.fileName? = some n := by
  cases hname : p.fileName? with
  | some n => exact ⟨n, rfl⟩
  | none =>
    have hnone : extension p = [] := by rw [extension, Path.extension?, hname]; rfl
    rw [isHeader, isImplementation, hnone] at h
    exact absurd h (by decide)

/-- No file is both a header and an implementation. -/
theorem isImplementation_eq_false (h : isHeader p) : isImplementation p = false := by
  have hdisjoint : ∀ e ∈ headerExtensions, implementationExtensions.contains e = false := by decide
  exact hdisjoint (extension p) (List.contains_iff_mem.mp h)

theorem fileName?_join (hl : p.lead ≠ .root) (hb : p.body ≠ []) :
    (root.join p).fileName? = p.fileName? := by
  rw [Path.fileName?_eq, Path.fileName?_eq, Path.body_join hl, List.getLast?_append_of_ne_nil _ hb]

/-- **The role of a file by its whole path**: the one it has inside the project, unless the place of the
project makes interface code of it. -/
theorem kind_join (hd : root.text ≠ []) (hl : p.lead ≠ .root) (hb : p.body ≠ []) :
    kind dir (root.join p) =
      if beginsAbove dir root p = true ∧ kind dir p ≠ .buildScript then .interface else kind dir p := by
  have hname : (root.join p).fileName? = p.fileName? := fileName?_join hl hb
  rw [kind, kind, hname, extension_congr hname, isUnder_join hd hl hb]
  generalize (p.fileName?.getD [] == buildDescription || p.fileName?.getD [] == presetList ||
    extension p == "cmake".toList) = script
  generalize interfaceExtensions.contains (extension p) = interface
  cases beginsAbove dir root p
  · simp
  · cases script
    · cases interface <;> cases isUnder dir p <;> simp
      split_ifs <;> simp
    · simp

/-- **Two places of a project give a file one role** if they add the same to it, or if neither can add
anything. -/
theorem kind_join_eq_iff {place : Path} (hd : root.text ≠ []) (hd' : place.text ≠ []) (hl : p.lead ≠ .root)
    (hb : p.body ≠ []) : kind dir (root.join p) = kind dir (place.join p) ↔
      kind dir p = .buildScript ∨ kind dir p = .interface ∨
        beginsAbove dir root p = beginsAbove dir place p := by
  rw [kind_join hd hl hb, kind_join hd' hl hb]
  cases beginsAbove dir root p <;> cases beginsAbove dir place p <;> cases kind dir p <;> decide

/-! ### Counterparts -/

/-- What the extensions of headers and implementations are spelled with. -/
theorem plain_extension :
    ∀ ext ∈ headerExtensions ++ implementationExtensions, ext ≠ [] ∧ '.' ∉ ext ∧ '/' ∉ ext := by
  decide

/-- A counterpart is its file with another extension. -/
theorem exists_extension (hq : q ∈ siblings p) :
    ∃ ext ∈ headerExtensions ++ implementationExtensions, q = p.withExtension ext := by
  rw [siblings] at hq
  split at hq
  · obtain ⟨ext, hext, rfl⟩ := List.mem_map.mp hq
    exact ⟨ext, List.mem_append_right _ hext, rfl⟩
  · split at hq
    · obtain ⟨ext, hext, rfl⟩ := List.mem_map.mp hq
      exact ⟨ext, List.mem_append_left _ hext, rfl⟩
    · cases hq

/-- A counterpart lies in the directory of its file. -/
theorem siblings_keep (hb : p.body ≠ []) (hq : q ∈ siblings p) :
    q.body ≠ [] ∧ q.body.dropLast = p.body.dropLast ∧ (q.lead = .root ↔ p.lead = .root) := by
  obtain ⟨ext, hext, rfl⟩ := exists_extension hq
  obtain ⟨hne, -, hslash⟩ := plain_extension ext hext
  exact Path.withExtension_keeps hb hne hslash

/-- Counterparts are found before or after a path is taken from a directory. -/
theorem siblings_join (hd : root.text ≠ []) (hl : p.lead ≠ .root) (hb : p.body ≠ []) :
    siblings (root.join p) = (siblings p).map root.join := by
  have hext : extension (root.join p) = extension p := extension_congr (fileName?_join hl hb)
  have hmap (exts : List Text) (h : exts ⊆ headerExtensions ++ implementationExtensions) :
      exts.map ((root.join p).withExtension ·) = (exts.map (p.withExtension ·)).map root.join := by
    rw [List.map_map]
    refine List.map_congr_left fun ext he => ?_
    obtain ⟨hne, -, hslash⟩ := plain_extension ext (h he)
    have hkeeps := Path.withExtension_keeps hb hne hslash
    exact Path.withExtension_join hd hl hb (fun hroot => hl (hkeeps.2.2.mp hroot)) hne
  rw [siblings, siblings, isHeader, isHeader, isImplementation, isImplementation, hext]
  split
  · exact hmap _ (List.subset_append_right _ _)
  · split
    · exact hmap _ (List.subset_append_left _ _)
    · rfl

/-- A file with the extension of a header or an implementation is no build script and no description of
an interface. -/
theorem kind_of_source (h : isHeader p || isImplementation p) : kind dir p =
    if isUnder dir p then .interface else if isHeader p then .header else .implementation := by
  have hmem : extension p ∈ headerExtensions ++ implementationExtensions := by
    simpa [isHeader, isImplementation] using h
  have hinterface : interfaceExtensions.contains (extension p) = false := by
    revert hmem
    generalize extension p = ext
    revert ext
    decide
  have hscript : (p.fileName?.getD [] == buildDescription || p.fileName?.getD [] == presetList ||
      extension p == "cmake".toList) = false := by
    by_contra hne
    simp only [Bool.not_eq_false, Bool.or_eq_true, beq_iff_eq] at hne
    have hfound {name : Text} (hn : name ≠ []) (hp : p.fileName?.getD [] = name) :
        extension p = ((Path.stemAndExtension name).2.map Text.lowercase).getD [] := by
      cases hfile : p.fileName? with
      | none => exact absurd (hp.symm.trans (by rw [hfile]; rfl)) hn
      | some n =>
        rw [hfile, Option.getD_some] at hp
        rw [extension, Path.extension?, hfile, hp, Option.bind_some]
    rcases hne with (hne | hne) | hne
    · rw [hfound (by decide) hne] at hmem
      revert hmem
      decide
    · rw [hfound (by decide) hne] at hmem
      revert hmem
      decide
    · rw [hne] at hmem
      revert hmem
      decide
  rw [kind]
  simp only [hscript, hinterface, Bool.false_eq_true, if_false, Bool.false_or]
  cases hheader : isHeader p with
  | true =>
    rw [isHeader] at hheader
    simp only [hheader, if_true]
  | false =>
    rw [hheader, Bool.false_or, isImplementation] at h
    rw [isHeader] at hheader
    simp only [hheader, h, if_true, Bool.false_eq_true, if_false]

/-- **The counterpart of a file has one role at two places** if the file has. -/
theorem kind_sibling {place : Path} (hd : root.text ≠ []) (hd' : place.text ≠ []) (hl : p.lead ≠ .root)
    (hb : p.body ≠ []) (hq : q ∈ siblings p) (h : kind dir (root.join p) = kind dir (place.join p)) :
    kind dir (root.join q) = kind dir (place.join q) := by
  obtain ⟨hqb, hparent, hqr⟩ := siblings_keep hb hq
  have hql : q.lead ≠ .root := fun hroot => hl (hqr.mp hroot)
  have hnames : parentNames q = parentNames p := by rw [parentNames, parentNames, hparent]
  have hsource : isHeader p || isImplementation p := by
    rw [siblings] at hq
    split at hq
    · rename_i hheader
      rw [hheader, Bool.true_or]
    · split at hq
      · rename_i himplementation
        rw [himplementation, Bool.or_true]
      · cases hq
  have hrole : kind dir p = _ := kind_of_source hsource
  rw [kind_join_eq_iff hd hd' hl hb] at h
  rw [kind_join_eq_iff hd hd' hql hqb]
  by_cases hunder : isUnder dir p
  · -- a source file is interface code by its directory, and there its counterpart is too
    have hunder' : isUnder dir q := by
      rw [isUnder_eq_names hqb, hnames, ← isUnder_eq_names hb, hunder]
    rw [kind, hunder', Bool.or_true, if_pos rfl]
    split
    · exact Or.inl rfl
    · exact Or.inr (Or.inl rfl)
  · rw [hrole, if_neg hunder] at h
    refine Or.inr (Or.inr ?_)
    rw [beginsAbove, beginsAbove, hnames]
    cases hheader : isHeader p <;> simpa [hheader, beginsAbove] using h

/-! ### Found from each other -/

/-- A file whose extension, as it is spelled, is that of a header or an implementation. -/
def IsSource (p : Path) : Prop :=
  ∃ ext ∈ headerExtensions ++ implementationExtensions, p.extension? = some ext

/-- The extensions of the other family: those of implementations for that of a header, and those of headers for
any other. -/
def otherFamily (ext : Text) : List Text :=
  if headerExtensions.contains ext then implementationExtensions else headerExtensions

/-- Two files of one stem in one directory. -/
def Beside (p q : Path) : Prop :=
  p.parent?.map Path.components = q.parent?.map Path.components ∧ p.stem? = q.stem?

/-- Among the files that there are, **one finds another**: the first of its counterparts that is there. -/
def Finds (isFile : Path → Bool) (p q : Path) : Prop := ∃ r, (siblings p).find? isFile = some r ∧ r.same q

/-- Two files that are there, and nothing else that is looked for from one of them. -/
structure OnlyTwo (isFile : Path → Bool) (p q : Path) : Prop where
  /-- A file is there however its path is spelled. -/
  spelling : ∀ r s : Path, r.same s → isFile r = isFile s
  first : isFile p
  second : isFile q
  fromFirst : ∀ r ∈ siblings p, isFile r → r.same q
  fromSecond : ∀ r ∈ siblings q, isFile r → r.same p

/-- **A file and its counterparts**: what they are to it, and it to them. -/
structure Paired (p : Path) : Prop where
  /-- Each counterpart has the stem of the file and lies in its directory. -/
  beside : ∀ q ∈ siblings p, Beside q p
  /-- There is one for each extension of the other family. -/
  extensions : (siblings p).map Path.extension? = (otherFamily (extension p)).map some
  /-- No two of them are one path. -/
  distinct : (siblings p).Pairwise fun q r => ¬q.same r
  /-- None of them is the file itself. -/
  other : ∀ q ∈ siblings p, ¬q.same p
  /-- The file is a counterpart of each of them. -/
  back : ∀ q ∈ siblings p, (siblings q).any (·.same p)
  /-- Of two files, one is a counterpart of the other just if the other is one of it. -/
  eachOther : ∀ q, IsSource q → ((siblings p).any (·.same q) ↔ (siblings q).any (·.same p))
  /-- Of two files that are there alone, one finds the other just if the other finds it. -/
  finds : ∀ (isFile : Path → Bool) (q : Path), IsSource q → OnlyTwo isFile p q →
    (Finds isFile p q ↔ Finds isFile q p)
  /-- Whatever else is there: what the file finds, and what is found from there, find each other. -/
  found : ∀ (isFile : Path → Bool) (q r : Path), (siblings p).find? isFile = some q →
    (siblings q).find? isFile = some r → (siblings r).find? isFile = some q

theorem lowercase_extension :
    ∀ ext ∈ headerExtensions ++ implementationExtensions, Text.lowercase ext = ext := by
  decide

theorem otherFamily_subset (ext : Text) : otherFamily ext ⊆ headerExtensions ++ implementationExtensions := by
  rw [otherFamily]
  split
  · exact List.subset_append_right _ _
  · exact List.subset_append_left _ _

theorem otherFamily_ne_nil (ext : Text) : otherFamily ext ≠ [] := by
  rw [otherFamily]
  split <;> decide

theorem nodup_otherFamily (ext : Text) : (otherFamily ext).Nodup := by
  rw [otherFamily]
  split <;> decide

theorem not_mem_otherFamily : ∀ ext ∈ headerExtensions ++ implementationExtensions, ext ∉ otherFamily ext := by
  decide

/-- Being of different families goes both ways. -/
theorem mem_otherFamily_comm : ∀ ext ∈ headerExtensions ++ implementationExtensions,
    ∀ e ∈ headerExtensions ++ implementationExtensions, e ∈ otherFamily ext ↔ ext ∈ otherFamily e := by
  decide

/-- There are two families. -/
theorem otherFamily_otherFamily : ∀ ext ∈ headerExtensions ++ implementationExtensions,
    ∀ e ∈ otherFamily ext, ∀ e' ∈ otherFamily e, otherFamily e' = otherFamily ext := by
  decide

theorem OnlyTwo.symm (h : OnlyTwo isFile p q) : OnlyTwo isFile q p :=
  ⟨h.spelling, h.second, h.first, h.fromSecond, h.fromFirst⟩

/-- Of two files that are there alone, one finds the other just if it is a counterpart of it. -/
theorem OnlyTwo.finds_iff (h : OnlyTwo isFile p q) : Finds isFile p q ↔ (siblings p).any (·.same q) := by
  rw [List.any_eq_true]
  constructor
  · rintro ⟨r, hr, hsame⟩
    exact ⟨r, List.mem_of_find?_eq_some hr, hsame⟩
  · rintro ⟨r, hr, hsame⟩
    have hthere : isFile r := (h.spelling r q hsame).trans h.second
    obtain ⟨s, hs⟩ := Option.isSome_iff_exists.mp (List.find?_isSome.mpr ⟨r, hr, hthere⟩)
    exact ⟨s, hs, h.fromFirst s (List.mem_of_find?_eq_some hs) (List.find?_some hs)⟩

namespace IsSource

theorem extension_eq (h : IsSource p) :
    p.extension? = some (extension p) ∧ extension p ∈ headerExtensions ++ implementationExtensions := by
  obtain ⟨ext, hmem, hext⟩ := h
  have hsame : extension p = ext := by
    rw [extension, hext, Option.map_some, Option.getD_some, lowercase_extension ext hmem]
  rw [hsame]
  exact ⟨hext, hmem⟩

theorem siblings_eq (h : IsSource p) : siblings p = (otherFamily (extension p)).map (p.withExtension ·) := by
  rw [siblings, isHeader, isImplementation, otherFamily]
  cases hheader : headerExtensions.contains (extension p) with
  | true => rfl
  | false =>
    have himplementation := (List.mem_append.mp h.extension_eq.2).resolve_left fun hmem =>
      Bool.false_ne_true (hheader.symm.trans (List.contains_iff_mem.mpr hmem))
    rw [List.contains_iff_mem.mpr himplementation]
    rfl

theorem exists_stem (h : IsSource p) :
    ∃ stem, p.stem? = some stem ∧ stem ≠ [] ∧ p.fileName? = some (stem ++ "." ++ extension p) := by
  obtain ⟨n, hn, hcut⟩ := Option.bind_eq_some_iff.mp h.extension_eq.1
  obtain ⟨hne, hname⟩ := Path.stemAndExtension_some (Prod.ext rfl hcut)
  exact ⟨(Path.stemAndExtension n).1, by rw [Path.stem?, hn]; rfl, hne, hn.trans (congrArg some hname)⟩

theorem parent?_withExtension (h : IsSource p) (he : e ∈ otherFamily (extension p)) :
    (p.withExtension e).parent?.map Path.components = p.parent?.map Path.components := by
  obtain ⟨stem, -, -, hn⟩ := h.exists_stem
  obtain ⟨hne, -, hslash⟩ := plain_extension e (otherFamily_subset _ he)
  exact Path.parent?_withExtension (Path.body_ne_nil_of_fileName? hn) hne hslash

/-- A counterpart has the stem of its file, unless it has no file name at all. -/
theorem fileName?_withExtension (h : IsSource p) (hs : p.stem? = some stem) (he : e ∈ otherFamily (extension p)) :
    (p.withExtension e).fileName? = some (stem ++ "." ++ e) ∨
      stem = ['.'] ∧ (p.withExtension e).fileName? = none := by
  obtain ⟨hne, -, hslash⟩ := plain_extension e (otherFamily_subset _ he)
  exact Path.fileName?_withExtension hs h.extension_eq.1 hne hslash

/-- **Who is found from a file**: only a file beside it, with an extension of the other family. -/
theorem beside_of_any (hp : IsSource p) (hq : IsSource q) (h : (siblings p).any (·.same q)) :
    Beside p q ∧ extension q ∈ otherFamily (extension p) := by
  obtain ⟨r, hr, hsame⟩ := List.any_eq_true.mp h
  rw [hp.siblings_eq] at hr
  obtain ⟨e, he, rfl⟩ := List.mem_map.mp hr
  obtain ⟨stem, hs, hne, -⟩ := hp.exists_stem
  obtain ⟨stem', hs', hne', hn'⟩ := hq.exists_stem
  have hrname := (Path.fileName?_of_same hsame).trans hn'
  have hname := (hp.fileName?_withExtension hs he).resolve_right fun hnone =>
    Option.some_ne_none _ (hrname.symm.trans hnone.2)
  have hparent := ((Path.same_iff_parent? hname hn').mp hsame).1
  obtain ⟨rfl, rfl⟩ := Path.stem_append_inj (Option.some.inj (hname.symm.trans hrname)) hne hne'
    (plain_extension _ (otherFamily_subset _ he)).2.1 (plain_extension _ hq.extension_eq.2).2.1
  exact ⟨⟨(hp.parent?_withExtension he).symm.trans hparent, hs.trans hs'.symm⟩, he⟩

/-- Each such file is found, unless the stem is a dot. -/
theorem any_of_beside (hp : IsSource p) (hq : IsSource q) (hdot : p.stem? ≠ some ['.']) (h : Beside p q)
    (he : extension q ∈ otherFamily (extension p)) : (siblings p).any (·.same q) := by
  obtain ⟨stem, hs, -, -⟩ := hp.exists_stem
  obtain ⟨stem', hs', -, hn'⟩ := hq.exists_stem
  obtain rfl : stem = stem' := Option.some.inj (hs.symm.trans (h.2.trans hs'))
  have hmem : p.withExtension (extension q) ∈ siblings p := by
    rw [hp.siblings_eq]
    exact List.mem_map_of_mem he
  have hname := (hp.fileName?_withExtension hs he).resolve_right fun hnone => hdot (hnone.1 ▸ hs)
  exact List.any_eq_true.mpr ⟨_, hmem, (Path.same_iff_parent? hname hn').mpr
    ⟨(hp.parent?_withExtension he).trans h.1, rfl⟩⟩

theorem any_siblings_comm (hp : IsSource p) (hq : IsSource q) (hdot : p.stem? ≠ some ['.']) :
    (siblings p).any (·.same q) ↔ (siblings q).any (·.same p) := by
  have hcomm := mem_otherFamily_comm _ hp.extension_eq.2 _ hq.extension_eq.2
  constructor
  · intro h
    obtain ⟨hbeside, he⟩ := hp.beside_of_any hq h
    exact hq.any_of_beside hp (hbeside.2 ▸ hdot) ⟨hbeside.1.symm, hbeside.2.symm⟩ (hcomm.mp he)
  · intro h
    obtain ⟨hbeside, he⟩ := hq.beside_of_any hp h
    exact hp.any_of_beside hq hdot ⟨hbeside.1.symm, hbeside.2.symm⟩ (hcomm.mpr he)

/-! ### A stem that is not a dot -/

section Named

variable (hp : IsSource p) (hdot : p.stem? ≠ some ['.'])

include hp hdot

/-- A counterpart has the stem of its file and the extension it was given. -/
theorem parts_withExtension (he : e ∈ otherFamily (extension p)) :
    (p.withExtension e).stem? = p.stem? ∧ (p.withExtension e).extension? = some e := by
  obtain ⟨stem, hs, hne, -⟩ := hp.exists_stem
  have hname := (hp.fileName?_withExtension hs he).resolve_right fun hnone => hdot (hnone.1 ▸ hs)
  rw [hs]
  exact Path.parts_of_fileName? hname hne (plain_extension e (otherFamily_subset _ he)).2.1

theorem withExtension (he : e ∈ otherFamily (extension p)) :
    IsSource (p.withExtension e) ∧ extension (p.withExtension e) = e := by
  have hext := (hp.parts_withExtension hdot he).2
  have hmem := otherFamily_subset _ he
  refine ⟨⟨e, hmem, hext⟩, ?_⟩
  rw [extension, hext, Option.map_some, Option.getD_some, lowercase_extension e hmem]

theorem withExtension_withExtension (he : e ∈ otherFamily (extension p)) {e' : Text}
    (he' : e' ∈ headerExtensions ++ implementationExtensions) :
    (p.withExtension e).withExtension e' = p.withExtension e' := by
  obtain ⟨stem, hs, -, -⟩ := hp.exists_stem
  obtain ⟨hne, hnot, hslash⟩ := plain_extension e (otherFamily_subset _ he)
  obtain ⟨hne', -, hslash'⟩ := plain_extension e' he'
  exact Path.withExtension_withExtension hs hp.extension_eq.1 (fun h => hdot (h ▸ hs)) hne hnot hslash hne' hslash'

/-- **The counterparts of a counterpart** are the file with each extension of its own family. -/
theorem siblings_withExtension (he : e ∈ otherFamily (extension p)) :
    siblings (p.withExtension e) = (otherFamily e).map (p.withExtension ·) := by
  obtain ⟨hsource, hext⟩ := hp.withExtension hdot he
  rw [hsource.siblings_eq, hext]
  exact List.map_congr_left fun e' he' => hp.withExtension_withExtension hdot he (otherFamily_subset _ he')

/-- There and back and there again, the same counterparts are looked for. -/
theorem siblings_of_mem (hq : q ∈ siblings p) (hr : r ∈ siblings q) : siblings r = siblings p := by
  rw [hp.siblings_eq] at hq
  obtain ⟨e, he, rfl⟩ := List.mem_map.mp hq
  obtain ⟨hsource, hext⟩ := hp.withExtension hdot he
  have hdot' : (p.withExtension e).stem? ≠ some ['.'] := by rwa [(hp.parts_withExtension hdot he).1]
  rw [hsource.siblings_eq, hext] at hr
  obtain ⟨e', he', rfl⟩ := List.mem_map.mp hr
  rw [hsource.siblings_withExtension hdot' (hext.symm ▸ he'), hp.siblings_eq,
    otherFamily_otherFamily _ hp.extension_eq.2 e he e' he']
  exact List.map_congr_left fun x hx => hp.withExtension_withExtension hdot he (otherFamily_subset _ hx)

theorem paired : Paired p where
  beside q hq := by
    rw [hp.siblings_eq] at hq
    obtain ⟨e, he, rfl⟩ := List.mem_map.mp hq
    exact ⟨hp.parent?_withExtension he, (hp.parts_withExtension hdot he).1⟩
  extensions := by
    rw [hp.siblings_eq, List.map_map]
    exact List.map_congr_left fun e he => (hp.parts_withExtension hdot he).2
  distinct := by
    rw [hp.siblings_eq, List.pairwise_map]
    refine (nodup_otherFamily _).imp_of_mem fun {e e'} he he' hne hsame => hne ?_
    have hext := extension_congr (Path.fileName?_of_same hsame)
    rwa [(hp.withExtension hdot he).2, (hp.withExtension hdot he').2] at hext
  other q hq hsame := by
    rw [hp.siblings_eq] at hq
    obtain ⟨e, he, rfl⟩ := List.mem_map.mp hq
    have hext := extension_congr (Path.fileName?_of_same hsame)
    rw [(hp.withExtension hdot he).2] at hext
    exact not_mem_otherFamily _ hp.extension_eq.2 (hext ▸ he)
  back q hq := by
    have hself : (siblings p).any (·.same q) := List.any_eq_true.mpr ⟨q, hq, beq_self_eq_true _⟩
    rw [hp.siblings_eq] at hq
    obtain ⟨e, he, rfl⟩ := List.mem_map.mp hq
    exact (hp.any_siblings_comm (hp.withExtension hdot he).1 hdot).mp hself
  eachOther q hq := hp.any_siblings_comm hq hdot
  finds isFile q hq honly := by
    rw [honly.finds_iff, honly.symm.finds_iff]
    exact hp.any_siblings_comm hq hdot
  found isFile q r hq hr := by
    rw [hp.siblings_of_mem hdot (List.mem_of_find?_eq_some hq) (List.mem_of_find?_eq_some hr), hq]

end Named

/-- From a counterpart of a file whose stem is a dot, no file name is found. -/
theorem fileName?_of_dot (hp : IsSource p) (hs : p.stem? = some ['.']) (hq : q ∈ siblings p) (hr : r ∈ siblings q) :
    r.fileName? = none := by
  obtain ⟨e, he, rfl⟩ := exists_extension hq
  obtain ⟨e', he', rfl⟩ := exists_extension hr
  obtain ⟨hne, hdot, hslash⟩ := plain_extension e he
  exact Path.fileName?_withExtension_dot hs hp.extension_eq.1 hne hdot hslash (plain_extension e' he').1

end IsSource

/-- **A header and its implementation find each other**, and each has all its counterparts, unless the stem is a
dot. -/
theorem paired_iff (h : IsSource p) : Paired p ↔ p.stem? ≠ some ['.'] := by
  refine ⟨fun hpaired hs => ?_, h.paired⟩
  obtain ⟨q, hq⟩ : ∃ q, q ∈ siblings p := by
    obtain ⟨e, he⟩ := List.exists_mem_of_ne_nil _ (otherFamily_ne_nil (extension p))
    exact ⟨p.withExtension e, h.siblings_eq ▸ List.mem_map_of_mem he⟩
  obtain ⟨r, hr, hsame⟩ := List.any_eq_true.mp (hpaired.back q hq)
  obtain ⟨stem, -, -, hn⟩ := h.exists_stem
  have hnone := h.fileName?_of_dot hs hq hr
  rw [Path.fileName?_of_same hsame, hn] at hnone
  cases hnone

/-- Two files, and no other. -/
def justThese (p q r : Path) : Bool := r.same p || r.same q

theorem IsSource.onlyTwo (hp : IsSource p) (hq : IsSource q) (hdot : p.stem? ≠ some ['.'])
    (hdot' : q.stem? ≠ some ['.']) : OnlyTwo (justThese p q) p q where
  spelling r s h := by rw [justThese, justThese, Path.same, Path.same, Path.same, Path.same, eq_of_beq h]
  first := Bool.or_eq_true_iff.mpr (Or.inl (beq_self_eq_true _))
  second := Bool.or_eq_true_iff.mpr (Or.inr (beq_self_eq_true _))
  fromFirst r hr h := (Bool.or_eq_true_iff.mp h).resolve_left ((hp.paired hdot).other r hr)
  fromSecond r hr h := (Bool.or_eq_true_iff.mp h).resolve_right ((hq.paired hdot').other r hr)

/-- A header with dots in its name and among its directories, and with idle pieces behind it. -/
def dottedHeader : Path := "./lib/../.a.b.hpp//."

/-- Its implementation. -/
def dottedImplementation : Path := "./lib/..//.a.b.mm"

/-- None of these dots does any harm. -/
theorem dotted_paired : IsSource dottedHeader ∧ Paired dottedHeader ∧
    Finds (justThese dottedHeader dottedImplementation) dottedHeader dottedImplementation ∧
      Finds (justThese dottedHeader dottedImplementation) dottedImplementation dottedHeader := by
  have hheader : IsSource dottedHeader := ⟨"hpp", by decide, by decide⟩
  have himplementation : IsSource dottedImplementation := ⟨"mm", by decide, by decide⟩
  have hpaired : Paired dottedHeader := (paired_iff hheader).mpr (by decide)
  have honly := hheader.onlyTwo himplementation (by decide) (by decide)
  have hfinds : Finds (justThese dottedHeader dottedImplementation) dottedHeader dottedImplementation :=
    honly.finds_iff.mpr (by decide)
  exact ⟨hheader, hpaired, hfinds, (hpaired.finds _ _ himplementation honly).mp hfinds⟩

/-- **Two dots are left** of the file name `..h` without its extension, and all its counterparts are the directory
above. -/
theorem dots_unpaired :
    IsSource "..h" ∧ siblings "..h" = List.replicate 6 (".." : Path) ∧ ¬Paired "..h" := by
  refine ⟨⟨"h", by decide, by decide⟩, by decide, fun h => ?_⟩
  exact absurd h.extensions (by decide)

end SourceFile

end BuildMender
