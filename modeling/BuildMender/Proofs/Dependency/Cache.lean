import BuildMender.Dependency.Cache
import BuildMender.Proofs.Dependency
import BuildMender.Proofs.FileView.Memory
import BuildMender.Proofs.Text.Cut
import BuildMender.Proofs.Text.EndBlanks

/-!
# What a cache says

A cache is read line by line. Most of its lines are of no concern here; those that are give a package a value,
and `BuildMender.Dependency.Cache.Gives` says which lines those are and which value it is, without a word about
how a line is read: the line is a key, a colon, a type, an equals sign and a value, and no comment. That the
reader finds exactly these lines (`BuildMender.Dependency.Cache.assignment?_eq_some`) comes down to there being
one way only to take such a line apart, because the key ends at the first colon, before which no equals sign
may stand, and the type at the first equals sign behind it.

A value may say that the package was not found; then there is a warning, and what the lines above have said of
the package stays. So the place of a package is the value in the last of the lines that set it
(`BuildMender.Dependency.Cache.LastSets`), wherever the others are.

Which directories have a cache is decided twice, once when they are looked for and once when they are read. Among
files held in memory both come to one question, whether the cache is a file
(`BuildMender.Dependency.Cache.success_ofDirectory`), since a file is read there and every text is a cache. So what
is found is what can be read (`BuildMender.Dependency.Cache.buildDirectories_exact`).
-/

namespace BuildMender.Dependency.Cache

open Text

variable {line key value type t v w : Text} {k : Dependency} {ls ws : List Text} {p : Path}

/-! ### Lines -/

/-- The characters that a type is made of. -/
def IsTypeChar (c : Char) : Prop := isAsciiLetter c ∨ c = '_'

/-- **A line gives a package a value**: trimmed, it is no comment and consists of a key, which trimmed is that
of the package, a type, and a text behind the equals sign, which trimmed is the value. -/
structure Gives (line : Text) (k : Dependency) (v : Text) : Prop where
  no_comment : ¬"#".toList <+: trim line ∧ ¬"//".toList <+: trim line
  written : ∃ key type value, trim line = key ++ ":" ++ type ++ "=" ++ value ∧ ':' ∉ key ∧ '=' ∉ key ∧
    trim key = k.cacheKey ∧ type ≠ [] ∧ (∀ c ∈ type, IsTypeChar c) ∧ trim value = v

/-- A value that says that the package was not found. -/
def Unset (v : Text) : Prop := v = [] ∨ "-NOTFOUND".toList <:+ v

/-- A line gives a package a value that is its place. -/
def Sets (line : Text) (k : Dependency) (v : Text) : Prop := Gives line k v ∧ ¬Unset v

theorem isUnset_iff : isUnset v ↔ Unset v := by
  rw [isUnset, Unset, Bool.or_eq_true, List.isEmpty_iff, endsWith, List.isSuffixOf_iff_suffix]

theorem isComment_eq_false : isComment line = false ↔ ¬"#".toList <+: line ∧ ¬"//".toList <+: line := by
  rw [isComment, Bool.or_eq_false_iff]
  simp only [startsWith, Bool.eq_false_iff, ne_eq, List.isPrefixOf_iff_prefix]

/-- The type and the equals sign are taken off in one way. -/
theorem valuePart?_eq_some : keyAndValue?.valuePart? t = some value ↔
    ∃ type, t = type ++ '=' :: value ∧ type ≠ [] ∧ ∀ c ∈ type, IsTypeChar c := by
  have hequals (t : Text) : after? "=" ('=' :: t) = some t := after?_append "=" t
  rw [keyAndValue?.valuePart?]
  simp only [List.isEmpty_iff]
  constructor
  · intro h
    split at h
    · cases h
    · rename_i hne
      refine ⟨_, ?_, hne, fun c hc => by simpa [IsTypeChar] using List.mem_takeWhile_imp hc⟩
      have hrest : '=' :: value = t.dropWhile _ := after?_eq_some.mp h
      rw [hrest, List.takeWhile_append_dropWhile]
  · rintro ⟨type, rfl, hne, htype⟩
    have hall : ∀ c ∈ type, (isAsciiLetter c || decide (c = '_')) = true := by simpa [IsTypeChar] using htype
    rw [takeWhile_append_cons hall rfl, dropWhile_append_cons hall rfl, if_neg hne, hequals]

/-- Whether a character can stand in a key. -/
def isKeyChar (c : Char) : Bool := c ≠ ':' && c ≠ '='

theorem keyAndValue?_eq (hstart : ∀ c ∈ line.head?, isBlank c = false ∧ c ≠ '#') : keyAndValue? line =
    if line.takeWhile isKeyChar = [] then none else
      (after? ":" (line.dropWhile isKeyChar)).bind fun rest =>
        (keyAndValue?.valuePart? rest).map fun value => (line.takeWhile isKeyChar, value) := by
  have hfun : (fun c : Char => decide (c ≠ ':') && decide (c ≠ '=')) = isKeyChar := rfl
  rw [keyAndValue?, hfun]
  cases line with
  | nil => rfl
  | cons c cs =>
    obtain ⟨hblank, hmark⟩ := hstart c rfl
    cases hc : isKeyChar c with
    | true => simp [List.takeWhile_cons_of_pos hc, hblank, hmark]
    | false => simp [List.takeWhile_cons_of_neg (by simp [hc] : ¬isKeyChar c = true)]

/-- **A line is taken apart in one way.** -/
theorem keyAndValue?_eq_some (hstart : ∀ c ∈ line.head?, isBlank c = false ∧ c ≠ '#') :
    keyAndValue? line = some (key, value) ↔ ∃ type, line = key ++ ":" ++ type ++ "=" ++ value ∧
      ':' ∉ key ∧ '=' ∉ key ∧ key ≠ [] ∧ type ≠ [] ∧ ∀ c ∈ type, IsTypeChar c := by
  rw [keyAndValue?_eq hstart]
  constructor
  · intro h
    split at h
    · cases h
    · rename_i hne
      obtain ⟨rest, hrest, h⟩ := Option.bind_eq_some_iff.mp h
      obtain ⟨value', hvalue, h⟩ := Option.map_eq_some_iff.mp h
      obtain ⟨rfl, rfl⟩ := Prod.mk.inj h
      obtain ⟨type, rfl, htype⟩ := valuePart?_eq_some.mp hvalue
      have hkey (c : Char) (hc : isKeyChar c = false) : c ∉ line.takeWhile isKeyChar := fun hmem => by
        rw [List.mem_takeWhile_imp hmem] at hc
        cases hc
      refine ⟨type, ?_, hkey ':' rfl, hkey '=' rfl, hne, htype⟩
      calc line = line.takeWhile isKeyChar ++ (":" ++ (type ++ '=' :: value')) := by
            rw [after?_eq_some.mp hrest, List.takeWhile_append_dropWhile]
        _ = line.takeWhile isKeyChar ++ ":" ++ type ++ "=" ++ value' := by simp only [List.append_assoc]; rfl
  · rintro ⟨type, rfl, hcolon, hequals, hne, htype, htypes⟩
    have hall : ∀ c ∈ key, isKeyChar c := fun c hc => by
      have hcolon' : c ≠ ':' := fun heq => hcolon (heq ▸ hc)
      have hequals' : c ≠ '=' := fun heq => hequals (heq ▸ hc)
      simp [isKeyChar, hcolon', hequals']
    have hline : key ++ ":" ++ type ++ "=" ++ value = key ++ ':' :: (type ++ '=' :: value) := by simp
    have hrest : after? ":" (':' :: (type ++ '=' :: value)) = some (type ++ '=' :: value) := after?_append ":" _
    rw [hline, takeWhile_append_cons hall rfl, dropWhile_append_cons hall rfl, if_neg hne, hrest,
      Option.bind_some, valuePart?_eq_some.mpr ⟨type, rfl, htype, htypes⟩, Option.map_some]

theorem cacheKey_ne_nil (k : Dependency) : k.cacheKey ≠ [] := by cases k <;> decide

theorem ofCacheKey?_eq_some {name : Text} : ofCacheKey? name = some k ↔ name = k.cacheKey := by
  constructor
  · intro h
    have hkey := List.find?_some h
    exact (eq_of_beq hkey).symm
  · rintro rfl
    cases k <;> decide

theorem ne_nil_of_trim_eq (h : trim key = k.cacheKey) : key ≠ [] := by
  rintro rfl
  exact cacheKey_ne_nil k h.symm

theorem assignment?_eq_none (h : isComment (trim line)) : assignment? line = none := by
  simp [assignment?, h]

theorem assignment?_eq (h : isComment (trim line) = false) :
    assignment? line = (keyAndValue? (trim line)).bind fun (key, value) =>
      (ofCacheKey? (trim key)).map fun k => (k, trim value) := by
  rw [assignment?]
  cases hline : trim line with
  | nil => rfl
  | cons c cs =>
    rw [hline] at h
    simp [h]

/-- **The lines that are read are those that give a package a value.** -/
theorem assignment?_eq_some : assignment? line = some (k, v) ↔ Gives line k v := by
  cases hcomment : isComment (trim line) with
  | true =>
    rw [assignment?_eq_none hcomment]
    refine iff_of_false (Option.some_ne_none _).symm fun h => ?_
    rw [isComment_eq_false.mpr h.no_comment] at hcomment
    cases hcomment
  | false =>
    have hno := isComment_eq_false.mp hcomment
    have hstart : ∀ c ∈ (trim line).head?, isBlank c = false ∧ c ≠ '#' := by
      refine fun c hc => ⟨head?_trim hc, ?_⟩
      rintro rfl
      obtain ⟨cs, hcs⟩ := List.head?_eq_some_iff.mp hc
      exact hno.1 ⟨cs, hcs.symm⟩
    rw [assignment?_eq hcomment]
    constructor
    · intro h
      obtain ⟨⟨key, value⟩, hparts, h⟩ := Option.bind_eq_some_iff.mp h
      obtain ⟨k', hkey, h⟩ := Option.map_eq_some_iff.mp h
      obtain ⟨rfl, rfl⟩ := Prod.mk.inj h
      obtain ⟨type, hline, hcolon, hequals, -, htype, htypes⟩ := (keyAndValue?_eq_some hstart).mp hparts
      exact ⟨hno, key, type, value, hline, hcolon, hequals, ofCacheKey?_eq_some.mp hkey, htype, htypes, rfl⟩
    · rintro ⟨-, key, type, value, hline, hcolon, hequals, hkey, htype, htypes, rfl⟩
      have hparts := (keyAndValue?_eq_some hstart).mpr
        ⟨type, hline, hcolon, hequals, ne_nil_of_trim_eq hkey, htype, htypes⟩
      simp only [hparts, Option.bind_some, ofCacheKey?_eq_some.mpr hkey, Option.map_some]

/-- A line gives one value to one package. -/
theorem Gives.unique {k' : Dependency} (h : Gives line k v) (h' : Gives line k' w) : k = k' ∧ v = w :=
  Prod.mk.inj (Option.some.inj ((assignment?_eq_some.mpr h).symm.trans (assignment?_eq_some.mpr h')))

/-! ### One line after another -/

/-- **The last of some lines that sets a package** sets it to a value. -/
def LastSets (ls : List Text) (k : Dependency) (v : Text) : Prop :=
  ∃ above line below, ls = above ++ line :: below ∧ Sets line k v ∧ ∀ l ∈ below, ∀ w, ¬Sets l k w

/-- **The warnings of some lines**: one for each line that gives a package a value saying that it was not
found. -/
inductive Warns : List Text → List Text → Prop where
  | nil : Warns [] []
  | unset {line v : Text} {k : Dependency} {ls ws : List Text} (gives : Gives line k v) (unset : Unset v)
      (below : Warns ls ws) : Warns (line :: ls) (unsetWarning k :: ws)
  | silent {line : Text} {ls ws : List Text} (silent : ∀ k v, Gives line k v → ¬Unset v)
      (below : Warns ls ws) : Warns (line :: ls) ws

theorem lastSets_concat : LastSets (ls ++ [line]) k v ↔
    Sets line k v ∨ (∀ w, ¬Sets line k w) ∧ LastSets ls k v := by
  constructor
  · rintro ⟨above, l, below, hls, hsets, hbelow⟩
    rcases List.eq_nil_or_concat below with rfl | ⟨below, l', rfl⟩
    · obtain ⟨-, hl⟩ := List.append_inj' hls rfl
      obtain rfl := List.singleton_inj.mp hl
      exact Or.inl hsets
    · have hsplit : ls ++ [line] = (above ++ l :: below) ++ [l'] := by simpa using hls
      obtain ⟨rfl, hl⟩ := List.append_inj' hsplit rfl
      obtain rfl := List.singleton_inj.mp hl
      exact Or.inr ⟨hbelow line (by simp), above, l, below, rfl, hsets, fun x hx => hbelow x (by simp [hx])⟩
  · rintro (hsets | ⟨hnone, above, l, below, rfl, hsets, hbelow⟩)
    · exact ⟨ls, line, [], rfl, hsets, by simp⟩
    · refine ⟨above, l, below ++ [line], by simp, hsets, fun x hx => ?_⟩
      rcases List.mem_append.mp hx with hx | hx
      · exact hbelow x hx
      · rwa [List.mem_singleton.mp hx]

/-- What one line does to a report. -/
theorem addLine_cases (report : CacheReport) (line : Text) :
    (∃ k v, Sets line k v ∧ addLine report line = { report with roots := report.roots.set k (some ⟨v⟩) }) ∨
    (∃ k v, Gives line k v ∧ Unset v ∧
      addLine report line = { report with warnings := report.warnings ++ [unsetWarning k] }) ∨
    ((∀ k v, ¬Gives line k v) ∧ addLine report line = report) := by
  rw [addLine]
  cases hline : assignment? line with
  | none =>
    refine Or.inr (Or.inr ⟨fun k v h => ?_, rfl⟩)
    rw [assignment?_eq_some.mpr h] at hline
    cases hline
  | some entry =>
    obtain ⟨k, v⟩ := entry
    have hgives := assignment?_eq_some.mp hline
    by_cases hunset : isUnset v
    · simp only [hunset, if_true]
      exact Or.inr (Or.inl ⟨k, v, hgives, isUnset_iff.mp hunset, rfl⟩)
    · simp only [hunset]
      exact Or.inl ⟨k, v, ⟨hgives, fun h => hunset (isUnset_iff.mpr h)⟩, rfl⟩

theorem success_addLine (report : CacheReport) (line : Text) :
    (addLine report line).success = report.success ∧ (addLine report line).errors = report.errors := by
  rcases addLine_cases report line with ⟨k, v, -, h⟩ | ⟨k, v, -, -, h⟩ | ⟨-, h⟩ <;> rw [h] <;> exact ⟨rfl, rfl⟩

/-- A line that sets a package sets it to its value, and all others leave the package where it is. -/
theorem roots_addLine (report : CacheReport) : (addLine report line).roots k = some ⟨v⟩ ↔
    Sets line k v ∨ (∀ w, ¬Sets line k w) ∧ report.roots k = some ⟨v⟩ := by
  rcases addLine_cases report line with ⟨k', v', hsets, h⟩ | ⟨k', v', hgives, hunset, h⟩ | ⟨hnone, h⟩
  · rw [h]
    change report.roots.set k' (some ⟨v'⟩) k = some ⟨v⟩ ↔ _
    by_cases hk : k = k'
    · subst hk
      rw [Roots.set_self]
      constructor
      · intro heq
        obtain rfl : v' = v := congrArg Path.text (Option.some.inj heq)
        exact Or.inl hsets
      · rintro (hsets' | ⟨hnone, -⟩)
        · rw [(hsets.1.unique hsets'.1).2]
        · exact absurd hsets (hnone v')
    · have hother (w : Text) : ¬Sets line k w := fun hsets' => hk (hsets'.1.unique hsets.1).1
      rw [Roots.set_of_ne hk]
      simp [hother]
  · have hother (w : Text) : ¬Sets line k w := fun hsets => hsets.2 ((hgives.unique hsets.1).2 ▸ hunset)
    rw [h]
    simp [hother]
  · have hother (w : Text) : ¬Sets line k w := fun hsets => hnone k w hsets.1
    rw [h]
    simp [hother]

/-! ### All lines -/

theorem success_foldl (ls : List Text) (report : CacheReport) :
    (ls.foldl addLine report).success = report.success ∧ (ls.foldl addLine report).errors = report.errors := by
  induction ls generalizing report with
  | nil => exact ⟨rfl, rfl⟩
  | cons line ls ih =>
    obtain ⟨hsuccess, herrors⟩ := success_addLine report line
    rw [List.foldl_cons, (ih _).1, (ih _).2]
    exact ⟨hsuccess, herrors⟩

/-- **A package lies where the last line that sets it says**, or where it lay before. -/
theorem roots_foldl (ls : List Text) (report : CacheReport) (h : report.roots k = none) :
    (ls.foldl addLine report).roots k = some ⟨v⟩ ↔ LastSets ls k v := by
  induction ls using List.reverseRecOn with
  | nil =>
    rw [List.foldl_nil, h]
    refine iff_of_false (Option.some_ne_none _).symm ?_
    rintro ⟨above, line, below, hls, -⟩
    simp at hls
  | append_singleton ls line ih =>
    rw [List.foldl_append, List.foldl_cons, List.foldl_nil, roots_addLine, ih, lastSets_concat]

/-- The warnings come in the order of the lines. -/
theorem warnings_foldl (ls : List Text) (report : CacheReport) :
    ∃ ws, Warns ls ws ∧ (ls.foldl addLine report).warnings = report.warnings ++ ws := by
  induction ls generalizing report with
  | nil => exact ⟨[], .nil, (List.append_nil _).symm⟩
  | cons line ls ih =>
    obtain ⟨ws, hws, heq⟩ := ih (addLine report line)
    rw [List.foldl_cons, heq]
    rcases addLine_cases report line with ⟨k, v, hsets, h⟩ | ⟨k, v, hgives, hunset, h⟩ | ⟨hnone, h⟩
    · refine ⟨ws, .silent (fun k' v' hgives hunset => ?_) hws, by rw [h]⟩
      exact hsets.2 ((hgives.unique hsets.1).2 ▸ hunset)
    · exact ⟨unsetWarning k :: ws, .unset hgives hunset hws, by rw [h, List.append_assoc]; rfl⟩
    · exact ⟨ws, .silent (fun k' v' hgives => absurd hgives (hnone k' v')) hws, by rw [h]⟩

/-- **What a cache says.** Every text is read without errors. A package lies where the last of the lines that
set it says, and nowhere if there is none; and the warnings are those of the lines that say a package was not
found, in the order of the lines. -/
theorem parse_says (content : Text) :
    (parse content).success = true ∧ (parse content).errors = [] ∧
    (∀ k v, (parse content).roots k = some ⟨v⟩ ↔ LastSets (lines content) k v) ∧
    Warns (lines content) (parse content).warnings := by
  obtain ⟨hsuccess, herrors⟩ := success_foldl (lines content) { success := true }
  obtain ⟨ws, hws, heq⟩ := warnings_foldl (lines content) { success := true }
  rw [List.nil_append] at heq
  refine ⟨hsuccess, herrors, fun k v => roots_foldl _ _ rfl, ?_⟩
  rw [parse, heq]
  exact hws

/-- A comment says nothing, blanks around a key do not count, and a package that is not found further down stays
where it was. -/
example :
    (parse "Qt6_DIR:PATH=/a\n Qt6_DIR :_=/b\n# Qt6_DIR:PATH=/c\nQt6_DIR:PATH=Qt6-NOTFOUND\n").roots .uiToolkit =
      some "/b" := by
  decide

/-! ### Build directories -/

section Directories

variable {m : MemoryFiles} {root d : Path}

/-- **A cache that is there is read**: nothing else is asked of a build directory. -/
theorem success_ofDirectory (d : Path) :
    (ofDirectory m.view d).success = (m.lookup (d.join ⟨fileName⟩)).any Option.isSome := by
  obtain ⟨found, hfound⟩ : ∃ found, m.lookup (d.join ⟨fileName⟩) = found := ⟨_, rfl⟩
  simp only [ofDirectory, MemoryFiles.view, MemoryFiles.read, hfound]
  cases found with
  | none => rfl
  | some node =>
    cases node with
    | none => rfl
    | some content => exact (success_foldl (lines content) _).1

theorem success_ofDirectory_congr {e : Path} (h : d.components = e.components) :
    (ofDirectory m.view d).success = (ofDirectory m.view e).success := by
  have hlead : Path.lead ⟨fileName⟩ = .bare := by decide
  rw [success_ofDirectory, success_ofDirectory, MemoryFiles.lookup_congr (q := e.join ⟨fileName⟩)]
  rw [Path.components_join_of_bare hlead, Path.components_join_of_bare hlead, h]

/-- A directory directly inside another one, and its name. Both paths are taken from the root of the files already. -/
structure IsSubdirectory (m : MemoryFiles) (dir : Path) (name : Text) (d : Path) : Prop where
  directory : m.find? d = some none
  inside : d.components = dir.components ++ [.name name]

/-- A directory directly inside another one that is named like a build directory and has a cache to read. -/
def IsBuildDirectory (m : MemoryFiles) (dir d : Path) : Prop :=
  ∃ name, IsSubdirectory m dir name d ∧ "build".toList <:+: lowercase name ∧ (ofDirectory m.view d).success

theorem IsBuildDirectory.congr {dir e : Path} (hd : IsBuildDirectory m dir d) (h : d.components = e.components) :
    IsBuildDirectory m dir e := by
  obtain ⟨name, ⟨hdirectory, hinside⟩, hname, hsuccess⟩ := hd
  exact ⟨name, ⟨MemoryFiles.find?_congr h ▸ hdirectory, h ▸ hinside⟩, hname, success_ofDirectory_congr h ▸ hsuccess⟩

theorem isBuildName_iff {name : Text} : isBuildName name ↔ "build".toList <:+: lowercase name := occurs_iff

/-- **The directories that are found**, among the entries of the files. -/
theorem mem_buildDirectories (hm : m.Distinct) (hroot : m.find? (m.anchor root) = some none) :
    d ∈ buildDirectories m.view root ↔ (d, none) ∈ m.entries ∧ IsBuildDirectory m (m.anchor root) d := by
  obtain ⟨es, hes, -, -, hmem⟩ := MemoryFiles.list_eq_ok hm hroot
  have hlist : m.view.list root = .ok es := hes
  simp only [buildDirectories, hlist, List.mem_map, List.mem_filter, hmem, Bool.and_eq_true, decide_eq_true_eq]
  constructor
  · rintro ⟨entry, ⟨⟨⟨p, content⟩, he, hparent, rfl⟩, ⟨hkind, hname⟩, hfile⟩, rfl⟩
    obtain rfl : content = none := by
      cases content with
      | none => rfl
      | some content => cases hkind
    -- a path without a file name is listed under the empty name, which is no build directory's
    obtain ⟨name, hfileName⟩ : ∃ name, p.fileName? = some name := by
      cases hnone : p.fileName? with
      | some name => exact ⟨name, rfl⟩
      | none =>
        have hentry : (MemoryFiles.entryOf (p, none)).name = [] := by rw [MemoryFiles.entryOf, hnone]; rfl
        rw [hentry] at hname
        exact absurd hname (by decide)
    have hentry : (MemoryFiles.entryOf (p, none)).name = name := by rw [MemoryFiles.entryOf, hfileName]; rfl
    refine ⟨he, name, ⟨?_, (Path.components_of_parent? hfileName).mp hparent⟩, ?_, ?_⟩
    · exact (MemoryFiles.find?_eq_some hm).mpr ⟨_, he, beq_self_eq_true _, rfl⟩
    · rw [hentry] at hname
      exact isBuildName_iff.mp hname
    · rw [success_ofDirectory]
      exact hfile
  · rintro ⟨he, name, ⟨-, hinside⟩, hname, hsuccess⟩
    have hfileName := Path.fileName?_of_components hinside
    have hentry : (MemoryFiles.entryOf (d, none)).name = name := by rw [MemoryFiles.entryOf, hfileName]; rfl
    refine ⟨MemoryFiles.entryOf (d, none), ⟨⟨_, he, ?_, rfl⟩, ⟨rfl, ?_⟩, ?_⟩, rfl⟩
    · exact (Path.components_of_parent? hfileName).mpr hinside
    · rw [hentry]
      exact isBuildName_iff.mpr hname
    · rw [success_ofDirectory] at hsuccess
      exact hsuccess

theorem buildDirectories_eq_nil (hroot : m.find? (m.anchor root) ≠ some none) : buildDirectories m.view root = [] := by
  obtain ⟨reason, hreason⟩ := MemoryFiles.list_eq_error hroot
  have hlist : m.view.list root = .error reason := hreason
  rw [buildDirectories, hlist]

/-- Two build directories of one name in one directory are one. -/
theorem IsBuildDirectory.components_eq {dir e : Path} (hd : IsBuildDirectory m dir d) (he : IsBuildDirectory m dir e)
    (h : d.fileName?.getD [] = e.fileName?.getD []) : d.components = e.components := by
  obtain ⟨name, ⟨-, hd⟩, -⟩ := hd
  obtain ⟨name', ⟨-, he⟩, -⟩ := he
  rw [Path.fileName?_of_components hd, Path.fileName?_of_components he] at h
  obtain rfl : name = name' := h
  rw [hd, he]

/-- **Build directories are found in the order of their names**, and each name once. -/
theorem pairwise_buildDirectories (hm : m.Distinct) (root : Path) :
    (buildDirectories m.view root).Pairwise fun d e =>
      Path.compareText (d.fileName?.getD []) (e.fileName?.getD []) = .lt := by
  by_cases hroot : m.find? (m.anchor root) = some none
  · obtain ⟨es, hes, hsorted, hapart, hmem⟩ := MemoryFiles.list_eq_ok hm hroot
    have hlist : m.view.list root = .ok es := hes
    have hname {a : DirectoryEntry} (ha : a ∈ es) : a.name = a.path.fileName?.getD [] := by
      obtain ⟨e, -, -, rfl⟩ := (hmem a).mp ha
      rfl
    have hfound : ∀ d ∈ buildDirectories m.view root, IsBuildDirectory m (m.anchor root) d := fun d hd =>
      ((mem_buildDirectories hm hroot).mp hd).2
    simp only [buildDirectories, hlist] at hfound ⊢
    refine List.pairwise_map.mpr (((hsorted.and hapart).filter _).imp_of_mem fun {a b} ha hb hab => ?_)
    obtain ⟨hle, hne⟩ := hab
    rw [DirectoryEntry.precedes_iff, hname (List.mem_filter.mp ha).1, hname (List.mem_filter.mp hb).1] at hle
    cases horder : Path.compareText (a.path.fileName?.getD []) (b.path.fileName?.getD []) with
    | lt => rfl
    | eq =>
      have hda := hfound _ (List.mem_map_of_mem ha)
      have hdb := hfound _ (List.mem_map_of_mem hb)
      exact absurd (hda.components_eq hdb (Path.eq_of_compareText horder)) hne
    | gt =>
      rw [horder] at hle
      cases hle
  · rw [buildDirectories_eq_nil hroot]
    exact List.Pairwise.nil

/-- **The build directories that are found** among files held in memory are, in the order of their names and each
once, the directories directly inside the root whose name says build and whose cache is read. There are none if the
root is missing or a file. -/
theorem buildDirectories_exact (place : Path) (added : List (Path × Option Text)) (root : Path) :
    let m := MemoryFiles.ofAdded place added
    (buildDirectories m.view root).Pairwise (fun d e =>
      Path.compareText (d.fileName?.getD []) (e.fileName?.getD []) = .lt) ∧
    (m.view.isDirectory root ∨ buildDirectories m.view root = []) ∧
    ∀ d, (∃ found ∈ buildDirectories m.view root, found.same d) ↔
      m.view.isDirectory root ∧ IsBuildDirectory m (m.anchor root) d := by
  intro m
  have hm : m.Distinct := MemoryFiles.distinct_ofAdded place added
  have hview : m.view.isDirectory root ↔ m.find? (m.anchor root) = some none := beq_iff_eq
  rw [hview]
  refine ⟨pairwise_buildDirectories hm root, ?_, fun d => ⟨?_, ?_⟩⟩
  · by_cases hroot : m.find? (m.anchor root) = some none
    · exact Or.inl hroot
    · exact Or.inr (buildDirectories_eq_nil hroot)
  · rintro ⟨found, hfound, hsame⟩
    by_cases hroot : m.find? (m.anchor root) = some none
    · exact ⟨hroot, ((mem_buildDirectories hm hroot).mp hfound).2.congr (eq_of_beq hsame)⟩
    · rw [buildDirectories_eq_nil hroot] at hfound
      cases hfound
  · rintro ⟨hroot, hd⟩
    obtain ⟨name, hsub, -⟩ := id hd
    obtain ⟨⟨p, content⟩, he, hsame, rfl⟩ := (MemoryFiles.find?_eq_some hm).mp hsub.directory
    exact ⟨p, (mem_buildDirectories hm hroot).mpr ⟨he, hd.congr (eq_of_beq hsame).symm⟩, hsame⟩

end Directories

end BuildMender.Dependency.Cache
