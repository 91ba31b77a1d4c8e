import BuildMender.Patch.Diff
import BuildMender.Proofs.Text.Class

/-!
# Unified diffs written section by section

A unified diff has a section for each file: a line with the file's old name, a line with its new name, and
then hunks, each of them a line that counts and the lines it counts. The names of the files are found from
line to line, and no line is ever counted. So a line of a hunk is taken for a header wherever it looks like
one, and it does when the text behind its mark begins with the other two marks and a blank.

What is found is, for each section, its path and then the names that lines of its hunks are taken for
(`BuildMender.Diff.targets_sections`). Only an added line can give such a name; a removed one can change
what a later one gives.
-/

namespace BuildMender.Diff

open Text

variable {ls : List Text} {name pat t : Text}

/-! ### The reading of one line -/

/-- The names that a line gives, and the old name that is not used up below it. -/
def taken (old : Option Text) (line : Text) : List Text × Option Text :=
  match after? "--- " line with
  | some rest => ([], headerPath? rest)
  | none =>
    match after? "+++ " line with
    | none => ([], old)
    | some rest =>
      match headerPath? rest with
      | some name => ([name], old)
      | none => (old.toList, none)

/-- The names that some lines give, as often as they give them. -/
def namesIn (old : Option Text) : List Text → List Text
  | [] => []
  | line :: more => (taken old line).1 ++ namesIn (taken old line).2 more

theorem targetsFrom_eq (found : List Text) (old : Option Text) (ls : List Text) :
    targetsFrom found old ls = (namesIn old ls).foldl insertNew found := by
  induction ls generalizing found old with
  | nil => rfl
  | cons line more ih =>
    rw [targetsFrom, namesIn, taken, List.foldl_append]
    cases after? "--- " line with
    | some rest => exact ih _ _
    | none =>
      cases after? "+++ " line with
      | none => exact ih _ _
      | some rest =>
        dsimp only
        cases headerPath? rest with
        | some name => exact ih _ _
        | none => exact ih _ _

/-- Names put into a list one by one are those that were not in it, each of them once. -/
theorem foldl_insertNew (names found : List Text) :
    names.foldl insertNew found = found ++ (names.filter fun name => !found.contains name).eraseDups := by
  induction names generalizing found with
  | nil => simp
  | cons name more ih =>
    rw [List.foldl_cons, ih, insertNew, List.filter_cons]
    cases h : found.contains name with
    | true => simp only [if_true, Bool.not_true, Bool.false_eq_true, if_false]
    | false =>
      have hfilter : (more.filter fun other => !(found ++ [name]).contains other) =
          (more.filter fun other => !found.contains other).filter fun other => !other == name := by
        rw [List.filter_filter]
        refine List.filter_congr fun other _ => ?_
        simp [Bool.and_comm, beq_eq_decide]
      simp only [Bool.false_eq_true, if_false, Bool.not_false, if_true, List.eraseDups_cons, hfilter,
        List.append_assoc, List.singleton_append]

theorem targets_eq (t : Text) : targets t = (namesIn none (lines t)).eraseDups := by
  rw [targets, targetsFrom_eq, foldl_insertNew]
  simp

/-! ### Line endings -/

theorem headerPath?_append_return (rest : Text) : headerPath? (rest ++ ['\r']) = headerPath? rest := by
  have htrim : trim ((rest ++ ['\r']).takeWhile (· ≠ '\t')) = trim (rest.takeWhile (· ≠ '\t')) := by
    rw [List.takeWhile_append]
    split
    · rename_i hall
      rw [(List.takeWhile_prefix _).eq_of_length hall]
      exact trim_append_of_blank (List.forall_mem_singleton.mpr rfl) rest
    · rfl
  rw [headerPath?, headerPath?, htrim]

theorem after?_append_return (hpat : '\r' ∉ pat) (line : Text) :
    after? pat (line ++ ['\r']) = (after? pat line).map (· ++ ['\r']) := by
  cases h : after? pat line with
  | some rest =>
    rw [← after?_eq_some.mp h, List.append_assoc, after?_append, Option.map_some]
  | none =>
    refine after?_eq_none.mpr fun hprefix => ?_
    rcases List.prefix_concat_iff.mp hprefix with rfl | hprefix
    · exact hpat (by simp)
    · exact after?_eq_none.mp h hprefix

theorem taken_withoutReturn (old : Option Text) (line : Text) :
    taken old (withoutReturn line) = taken old line := by
  rw [withoutReturn]
  cases h : before? "\r" line with
  | none => rfl
  | some start =>
    have hline : line = start ++ ['\r'] := append_of_before? h
    have hpats : '\r' ∉ "--- ".toList ∧ '\r' ∉ "+++ ".toList := by decide
    rw [Option.getD_some, hline, taken, taken, after?_append_return hpats.1, after?_append_return hpats.2]
    cases after? "--- " start with
    | some rest => simp only [Option.map_some, headerPath?_append_return]
    | none =>
      cases after? "+++ " start with
      | none => rfl
      | some rest => simp only [Option.map_some, Option.map_none, headerPath?_append_return]

theorem namesIn_map_withoutReturn (old : Option Text) (ls : List Text) :
    namesIn old (ls.map withoutReturn) = namesIn old ls := by
  induction ls generalizing old with
  | nil => rfl
  | cons line more ih => rw [List.map_cons, namesIn, namesIn, taken_withoutReturn, ih]

theorem targets_unlines (h : ∀ l ∈ ls, '\n' ∉ l) : targets (unlines ls) = (namesIn none ls).eraseDups := by
  rw [targets_eq, lines_unlines h, namesIn_map_withoutReturn]

theorem namesIn_append_congr {ls' : List Text} (h : ∀ old, namesIn old ls = namesIn old ls')
    (above : List Text) (old : Option Text) : namesIn old (above ++ ls) = namesIn old (above ++ ls') := by
  induction above generalizing old with
  | nil => exact h old
  | cons line more ih => rw [List.cons_append, List.cons_append, namesIn, namesIn, ih]

/-- **A line feed at the end of a diff** makes no difference to its files. -/
theorem targets_append_lineFeed (t : Text) : targets (t ++ ['\n']) = targets t := by
  rw [targets_eq, targets_eq]
  rcases lines_append_lineFeed t with ⟨start, last, ht, hfeed⟩ | hfeed
  -- the line feed ends the last line, and a carriage return before it goes too
  · have hlast (old : Option Text) : namesIn old [withoutReturn last] = namesIn old [last] := by
      rw [namesIn, namesIn, taken_withoutReturn]
      rfl
    rw [ht, hfeed, namesIn_append_congr hlast]
  -- or it makes an empty line, which names nothing
  · have hempty (old : Option Text) : namesIn old [[]] = namesIn old [] := by
      have hnone : after? "--- " [] = none ∧ after? "+++ " [] = none := by decide
      have htaken : taken old [] = ([], old) := by rw [taken, hnone.1, hnone.2]
      simp only [namesIn, htaken, List.append_nil]
    rw [hfeed, namesIn_append_congr hempty, List.append_nil]

/-! ### Names in headers -/

/-- **A name that can stand in a header** as it is: without blanks and quotes. -/
def IsPlain (name : Text) : Prop := ∀ c ∈ name, isBlank c = false ∧ c ≠ '"'

instance (name : Text) : Decidable (IsPlain name) := List.decidableBAll _ name

theorem headerPath?_of_isPlain (h : IsPlain name) (hne : name ≠ []) (hnull : name ≠ "/dev/null".toList) :
    headerPath? name = some (((after? "a/" name).orElse fun _ => after? "b/" name).getD name) := by
  have hblank : ∀ c, c ∈ name → isBlank c = false := fun c hc => (h c hc).1
  have htab : name.takeWhile (· ≠ '\t') = name := by
    refine List.takeWhile_eq_self_iff.mpr fun c hc => decide_eq_true ?_
    rintro rfl
    exact absurd (hblank _ hc) (by decide)
  have hquotes {c : Char} (hc : c ∈ name) : (c == '"') = false := beq_false_of_ne (h c hc).2
  rw [headerPath?, htab, trim_of_ends (fun c hc => hblank c (List.mem_of_mem_head? hc)) fun c hc =>
      hblank c (List.mem_of_getLast? hc), dropStart_of_head? fun c hc => hquotes (List.mem_of_mem_head? hc),
    dropEnd_of_getLast? fun c hc => hquotes (List.mem_of_getLast? hc)]
  refine if_neg fun hc => ?_
  rcases Bool.or_eq_true_iff.mp hc with hempty | heq
  · exact hne (List.isEmpty_iff.mp hempty)
  · exact hnull (eq_of_beq heq)

/-- The name on one side of a diff, as a header gives it. -/
def side (letter : Char) : Option Text → Text
  | none => "/dev/null"
  | some name => letter :: '/' :: name

theorem headerPath?_side {letter : Char} (hletter : letter = 'a' ∨ letter = 'b') {name : Option Text}
    (h : ∀ n ∈ name, IsPlain n) : headerPath? (side letter name) = name := by
  cases name with
  | none =>
    show headerPath? "/dev/null" = none
    decide
  | some n =>
    have hnull : letter :: '/' :: n ≠ "/dev/null".toList := by
      intro heq
      have hfirst : "/dev/null".toList.head? = some '/' := by decide
      obtain rfl : letter = '/' := Option.some.inj ((congrArg List.head? heq).trans hfirst)
      exact absurd hletter (by decide)
    have hplain : IsPlain (letter :: '/' :: n) := by
      refine List.forall_mem_cons.mpr ⟨?_, List.forall_mem_cons.mpr ⟨by decide, h n rfl⟩⟩
      rcases hletter with rfl | rfl <;> decide
    have hsides : "a/".toList = ['a', '/'] ∧ "b/".toList = ['b', '/'] := by decide
    refine (headerPath?_of_isPlain hplain (List.cons_ne_nil _ _) hnull).trans ?_
    rcases hletter with rfl | rfl
    · have ha : after? "a/" ('a' :: '/' :: n) = some n := after?_eq_some.mpr (congrArg (· ++ n) hsides.1)
      rw [ha]
      rfl
    · have ha : after? "a/" ('b' :: '/' :: n) = none :=
        after?_cons_of_ne (congrArg List.head? hsides.1) (by decide) _
      have hb : after? "b/" ('b' :: '/' :: n) = some n := after?_eq_some.mpr (congrArg (· ++ n) hsides.2)
      rw [ha, hb]
      rfl

/-! ### Sections -/

/-- What a line of a hunk is to the file: there before and after, before only, or after only. -/
inductive Mark where
  | context
  | removed
  | added
deriving DecidableEq

/-- The character that a line of a hunk begins with. -/
def Mark.char : Mark → Char
  | .context => ' '
  | .removed => '-'
  | .added => '+'

/-- A line of a hunk. -/
structure BodyLine where
  mark : Mark
  text : Text
  oneLine : '\n' ∉ text

/-- The line as it is written. -/
def BodyLine.written (l : BodyLine) : Text := l.mark.char :: l.text

/-- A hunk: some lines, and the numbers of the lines where they begin in the old file and in the new. -/
structure Hunk where
  oldStart : Nat
  newStart : Nat
  body : List BodyLine

/-- The line above a hunk, with the numbers of its lines that are in the old file and in the new. -/
def Hunk.header (k : Hunk) : Text :=
  "@@ -" ++ decimal k.oldStart ++ "," ++ decimal (k.body.countP (·.mark ≠ .added)) ++
    " +" ++ decimal k.newStart ++ "," ++ decimal (k.body.countP (·.mark ≠ .removed)) ++ " @@"

/-- The lines of a hunk. -/
def Hunk.lines (k : Hunk) : List Text := k.header :: k.body.map BodyLine.written

/-- **The section of a file**, with its name in the old tree and in the new, of which one may be missing. -/
structure FileSection where
  old : Option Text
  new : Option Text
  hunks : List Hunk
  old_isPlain : ∀ n ∈ old, IsPlain n
  new_isPlain : ∀ n ∈ new, IsPlain n
  isSome : old.isSome ∨ new.isSome

/-- The lines of a section. -/
def FileSection.lines (s : FileSection) : List Text :=
  ("--- " ++ side 'a' s.old) :: ("+++ " ++ side 'b' s.new) :: s.hunks.flatMap Hunk.lines

/-- The path of the file: the new one, or the old one of a file that is deleted. -/
def FileSection.path (s : FileSection) : Text := s.new.getD (s.old.getD [])

/-! ### What is read -/

/-- The names that a line of a hunk gives, and the old name that is not used up below it. -/
def BodyLine.taken (old : Option Text) (l : BodyLine) : List Text × Option Text :=
  match l.mark with
  | .context => ([], old)
  | .removed => ([], ((after? "-- " l.text).map headerPath?).getD old)
  | .added =>
    match (after? "++ " l.text).map headerPath? with
    | none => ([], old)
    | some none => (old.toList, none)
    | some (some name) => ([name], old)

/-- The names that some lines of hunks are taken for. -/
def lookalikes (old : Option Text) : List BodyLine → List Text
  | [] => []
  | l :: more => (l.taken old).1 ++ lookalikes (l.taken old).2 more

/-- The names that the lines in the hunks of a section are taken for: the old name of the file is not used
up there, unless the file is deleted. -/
def FileSection.lookalikes (s : FileSection) : List Text :=
  Diff.lookalikes (s.new.bind fun _ => s.old) (s.hunks.flatMap Hunk.body)

theorem headers_eq : "--- ".toList = '-' :: "-- ".toList ∧ "+++ ".toList = '+' :: "++ ".toList := by
  decide

theorem taken_written (old : Option Text) (l : BodyLine) : taken old l.written = l.taken old := by
  obtain ⟨hminus, hplus⟩ := headers_eq
  rw [taken, BodyLine.written, BodyLine.taken, hminus, hplus]
  cases l.mark with
  | context =>
    rw [Mark.char, after?_cons_of_ne rfl (by decide), after?_cons_of_ne rfl (by decide)]
  | removed =>
    rw [Mark.char, after?_cons_self]
    cases after? "-- " l.text with
    | none => rw [after?_cons_of_ne rfl (by decide)]; rfl
    | some rest => rfl
  | added =>
    rw [Mark.char, after?_cons_of_ne rfl (by decide), after?_cons_self]
    cases after? "++ " l.text with
    | none => rfl
    | some rest =>
      dsimp only [Option.map_some]
      cases headerPath? rest <;> rfl

/-- Below the lines of some hunks the reading goes on, whatever old name is left. -/
theorem namesIn_written {body below : List BodyLine} {rest names : List Text}
    (h : ∀ old, namesIn old rest = lookalikes old below ++ names) (old : Option Text) :
    namesIn old (body.map BodyLine.written ++ rest) = lookalikes old (body ++ below) ++ names := by
  induction body generalizing old with
  | nil => exact h old
  | cons l more ih =>
    rw [List.map_cons, List.cons_append, namesIn, taken_written, ih, List.cons_append, lookalikes,
      List.append_assoc]

/-- The line above a hunk gives no name. -/
theorem Hunk.taken_header (old : Option Text) (k : Hunk) : taken old k.header = ([], old) := by
  obtain ⟨t, ht⟩ : ∃ t, k.header = '@' :: t := ⟨_, rfl⟩
  rw [taken, ht, after?_cons_of_ne (congrArg List.head? headers_eq.1) (by decide),
    after?_cons_of_ne (congrArg List.head? headers_eq.2) (by decide)]

theorem namesIn_hunks {rest names : List Text} (h : ∀ old, namesIn old rest = names) (hunks : List Hunk)
    (old : Option Text) :
    namesIn old (hunks.flatMap Hunk.lines ++ rest) =
      Diff.lookalikes old (hunks.flatMap Hunk.body) ++ names := by
  induction hunks generalizing old with
  | nil => exact h old
  | cons k more ih =>
    rw [List.flatMap_cons, List.flatMap_cons, Hunk.lines, List.cons_append, List.cons_append,
      List.append_assoc, namesIn, k.taken_header, List.nil_append]
    exact namesIn_written ih old

theorem taken_old (old : Option Text) (t : Text) : taken old ("--- " ++ t) = ([], headerPath? t) := by
  rw [taken, after?_append]

theorem taken_new (old : Option Text) (t : Text) : taken old ("+++ " ++ t) =
    match headerPath? t with
    | some name => ([name], old)
    | none => (old.toList, none) := by
  have hplus : "+++ " ++ t = '+' :: ("++ " ++ t) := congrArg (· ++ t) headers_eq.2
  have hold : after? "--- " ("+++ " ++ t) = none := by
    rw [hplus]
    exact after?_cons_of_ne (congrArg List.head? headers_eq.1) (by decide) _
  rw [taken, hold, after?_append]

/-- **A section gives its path**, and then what its hunks give. -/
theorem FileSection.namesIn_lines {rest names : List Text} (h : ∀ old, namesIn old rest = names)
    (s : FileSection) (old : Option Text) :
    namesIn old (s.lines ++ rest) = s.path :: (s.lookalikes ++ names) := by
  rw [FileSection.lines, List.cons_append, List.cons_append, namesIn, taken_old, namesIn, taken_new,
    headerPath?_side (Or.inl rfl) s.old_isPlain, headerPath?_side (Or.inr rfl) s.new_isPlain, List.nil_append,
    FileSection.path, FileSection.lookalikes]
  cases hnew : s.new with
  | some name =>
    -- the old name is not used up, and a line of a hunk may still be given it
    dsimp only [Option.bind_some, Option.getD_some]
    rw [namesIn_hunks h, List.singleton_append]
  | none =>
    obtain ⟨name, hold⟩ := Option.isSome_iff_exists.mp (s.isSome.resolve_right (by simp [hnew]))
    rw [hold]
    dsimp only [Option.bind_none, Option.getD_none, Option.getD_some, Option.toList_some]
    rw [namesIn_hunks h, List.singleton_append]

/-- The lines of a diff. -/
def sectionLines (sections : List FileSection) : List Text := sections.flatMap FileSection.lines

theorem namesIn_sectionLines (sections : List FileSection) (old : Option Text) :
    namesIn old (sectionLines sections) = sections.flatMap fun s => s.path :: s.lookalikes := by
  induction sections generalizing old with
  | nil => rfl
  | cons s more ih =>
    rw [sectionLines, List.flatMap_cons, ← sectionLines, s.namesIn_lines ih, List.flatMap_cons,
      List.cons_append]

theorem IsPlain.oneLine (h : IsPlain name) : '\n' ∉ name := fun hc => absurd (h _ hc).1 (by decide)

theorem oneLine_side {letter : Char} (hletter : letter = 'a' ∨ letter = 'b') {name : Option Text}
    (h : ∀ n ∈ name, IsPlain n) : '\n' ∉ side letter name := by
  cases name with
  | none =>
    show '\n' ∉ "/dev/null".toList
    decide
  | some n =>
    have hne : '\n' ≠ letter := by rcases hletter with rfl | rfl <;> decide
    exact fun hc => (List.mem_cons.mp hc).elim hne fun hc =>
      (List.mem_cons.mp hc).elim (by decide) (h n rfl).oneLine

theorem Hunk.oneLine_header (k : Hunk) : '\n' ∉ k.header := by
  have hdecimal (n : Nat) : '\n' ∉ decimal n := not_mem_decimal rfl n
  unfold Hunk.header
  generalize k.body.countP _ = old, k.body.countP _ = new
  simp only [List.mem_append, hdecimal, or_false, not_or]
  decide

theorem BodyLine.oneLine_written (l : BodyLine) : '\n' ∉ l.written := by
  have hmark : '\n' ≠ l.mark.char := by cases l.mark <;> decide
  exact fun hc => (List.mem_cons.mp hc).elim hmark l.oneLine

theorem oneLine_of_mem_sectionLines {sections : List FileSection} :
    ∀ l ∈ sectionLines sections, '\n' ∉ l := by
  have hpieces : '\n' ∉ "--- ".toList ∧ '\n' ∉ "+++ ".toList := by decide
  intro l hl
  obtain ⟨s, -, hl⟩ := List.mem_flatMap.mp hl
  rcases List.mem_cons.mp hl with rfl | hl
  · exact fun hc => (List.mem_append.mp hc).elim hpieces.1 (oneLine_side (Or.inl rfl) s.old_isPlain)
  rcases List.mem_cons.mp hl with rfl | hl
  · exact fun hc => (List.mem_append.mp hc).elim hpieces.2 (oneLine_side (Or.inr rfl) s.new_isPlain)
  obtain ⟨k, -, hl⟩ := List.mem_flatMap.mp hl
  rcases List.mem_cons.mp hl with rfl | hl
  · exact k.oneLine_header
  · obtain ⟨b, -, rfl⟩ := List.mem_map.mp hl
    exact b.oneLine_written

/-- Without added lines whose text looks like the rest of a header, the hunks give no names. -/
theorem lookalikes_eq_nil {body : List BodyLine}
    (h : ∀ l ∈ body, l.mark = .added → ¬"++ " <+: l.text) (old : Option Text) : lookalikes old body = [] := by
  induction body generalizing old with
  | nil => rfl
  | cons l more ih =>
    obtain ⟨hl, hmore⟩ := List.forall_mem_cons.mp h
    rw [lookalikes, ih hmore, List.append_nil, BodyLine.taken]
    cases hmark : l.mark with
    | context => rfl
    | removed => rfl
    | added => rw [after?_eq_none.mpr (hl hmark)]; rfl

/-- **The files of a diff** are, for each section in its turn, its path and the names that added lines of its
hunks are taken for, each of them once. They are the paths of the sections when no added line looks like a
header. -/
theorem targets_sections {sections : List FileSection}
    (ht : t = unlines (sectionLines sections) ∨ t ++ ['\n'] = unlines (sectionLines sections)) :
    targets t = (sections.flatMap fun s => s.path :: s.lookalikes).eraseDups ∧
    ((∀ s ∈ sections, ∀ k ∈ s.hunks, ∀ l ∈ k.body, l.mark = .added → ¬"++ " <+: l.text) →
      targets t = (sections.map FileSection.path).eraseDups) := by
  have htargets : targets t = (sections.flatMap fun s => s.path :: s.lookalikes).eraseDups := by
    have hsections : targets (unlines (sectionLines sections)) =
        (sections.flatMap fun s => s.path :: s.lookalikes).eraseDups := by
      rw [targets_unlines oneLine_of_mem_sectionLines, namesIn_sectionLines]
    rcases ht with rfl | ht
    · exact hsections
    · rw [← targets_append_lineFeed, ht, hsections]
  refine ⟨htargets, fun h => ?_⟩
  have hnone : ∀ s ∈ sections, s.lookalikes = [] := fun s hs => lookalikes_eq_nil (fun l hl => by
    obtain ⟨k, hk, hl⟩ := List.mem_flatMap.mp hl
    exact h s hs k hk l hl) _
  have hpaths : (sections.flatMap fun s => s.path :: s.lookalikes) = sections.map FileSection.path := by
    rw [List.map_eq_flatMap]
    exact List.flatMap_congr fun s hs => by rw [hnone s hs]
  rw [htargets, hpaths]

/-- One file is changed and another one deleted; a removed line looks like the name of a file. -/
def decrementing : List FileSection :=
  [{  old := some "a.cpp"
      new := some "a.cpp"
      hunks := [⟨3, 3, [⟨.removed, "-- i;", by decide +kernel⟩, ⟨.added, "i -= 1;", by decide +kernel⟩]⟩]
      old_isPlain := by decide +kernel
      new_isPlain := by decide +kernel
      isSome := by decide },
    { old := some "b.cpp"
      new := none
      hunks := [⟨1, 0, [⟨.removed, "int b;", by decide +kernel⟩]⟩]
      old_isPlain := by decide +kernel
      new_isPlain := by decide +kernel
      isSome := by decide }]

/-- The text of these changes, without a line feed at its end. -/
def decrementingText : Text :=
  join "\n" ["--- a/a.cpp", "+++ b/a.cpp", "@@ -3,1 +3,1 @@", "--- i;", "+i -= 1;", "--- a/b.cpp",
    "+++ /dev/null", "@@ -1,1 +0,0 @@", "-int b;"]

/-- The two paths are read; the removed line gives no name. -/
theorem decrementing_targets : targets decrementingText = ["a.cpp".toList, "b.cpp".toList] := by
  have ht : decrementingText ++ ['\n'] = unlines (sectionLines decrementing) := by decide +kernel
  have hadded : ∀ s ∈ decrementing, ∀ k ∈ s.hunks, ∀ l ∈ k.body, l.mark = .added → ¬"++ " <+: l.text := by
    decide +kernel
  have hpaths : (decrementing.map FileSection.path).eraseDups = ["a.cpp".toList, "b.cpp".toList] := by
    decide +kernel
  exact ((targets_sections (Or.inr ht)).2 hadded).trans hpaths

/-- One file is changed; an added line looks like the name of another. -/
def incrementing : FileSection where
  old := some "a.cpp"
  new := some "a.cpp"
  hunks := [⟨1, 1, [⟨.context, "int i;", by decide +kernel⟩, ⟨.added, "++ i;", by decide +kernel⟩]⟩]
  old_isPlain := by decide +kernel
  new_isPlain := by decide +kernel
  isSome := by decide

/-- The text of this change. -/
def incrementingText : Text :=
  unlines ["--- a/a.cpp", "+++ b/a.cpp", "@@ -1,1 +1,2 @@", " int i;", "+++ i;"]

/-- The added line is taken for the header of a file that the change does not touch. -/
theorem incrementing_targets : incrementingText = unlines (sectionLines [incrementing]) ∧
    targets incrementingText = ["a.cpp".toList, "i;".toList] ∧
    targets incrementingText ≠ ([incrementing].map FileSection.path).eraseDups := by
  decide +kernel

end BuildMender.Diff
