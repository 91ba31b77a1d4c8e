import BuildMender.Proofs.Patch.Blocks

/-!
# Blocks that are not closed

A text may break off inside a block and go on with another one. The reading has no way to see that: it
looks for nothing but a divider first and a replace marker then, so the block takes all lines down to
these, whatever blocks they belong to (`BuildMender.EditStep.ofLines_open`). Only where no replace marker
is left does the block give no step.

So a block that is not closed is never passed over when another block stands below it
(`BuildMender.EditStep.open_block_takes`): its step is put in the place of the first one below, and the
name and the search marker of that one become part of its texts.
-/

namespace BuildMender.EditStep

open Text

variable {file : Option Text} {above below found given ls : List Text} {line marker name t : Text}

/-! ### The end of a block -/

/-- The lines above the first line that is a marker, and the lines below it. -/
def upTo? (marker : Text) : List Text → Option (List Text × List Text)
  | [] => none
  | line :: more =>
    if trim line = marker then some ([], more)
    else (upTo? marker more).map fun (above, below) => (line :: above, below)

theorem upTo?_eq_none : upTo? marker ls = none ↔ ∀ l ∈ ls, trim l ≠ marker := by
  induction ls with
  | nil => simp [upTo?]
  | cons line more ih =>
    rw [upTo?, List.forall_mem_cons, ← ih]
    by_cases hline : trim line = marker
    · simp [hline]
    · simp [hline]

theorem upTo?_eq_some : upTo? marker ls = some (above, below) ↔
    ∃ line, ls = above ++ line :: below ∧ trim line = marker ∧ ∀ l ∈ above, trim l ≠ marker := by
  induction ls generalizing above with
  | nil => simp [upTo?]
  | cons first more ih =>
    rw [upTo?]
    by_cases hfirst : trim first = marker
    · -- the first line is the marker, so that nothing stands above it
      rw [if_pos hfirst]
      constructor
      · intro h
        obtain ⟨rfl, rfl⟩ := Prod.mk.inj (Option.some.inj h)
        exact ⟨first, rfl, hfirst, List.forall_mem_nil _⟩
      · rintro ⟨line, hls, -, habove⟩
        cases above with
        | nil =>
          obtain ⟨-, rfl⟩ := List.cons.inj hls
          rfl
        | cons l above =>
          obtain ⟨rfl, -⟩ := List.cons.inj hls
          exact absurd hfirst (habove _ List.mem_cons_self)
    · -- the first line is not, so that it stands above the marker
      rw [if_neg hfirst]
      constructor
      · intro h
        obtain ⟨⟨above', below'⟩, hmore, hpair⟩ := Option.map_eq_some_iff.mp h
        obtain ⟨rfl, rfl⟩ := Prod.mk.inj hpair
        obtain ⟨line, rfl, hline, habove⟩ := ih.mp hmore
        exact ⟨line, rfl, hline, List.forall_mem_cons.mpr ⟨hfirst, habove⟩⟩
      · rintro ⟨line, hls, hline, habove⟩
        cases above with
        | nil =>
          obtain ⟨rfl, -⟩ := List.cons.inj hls
          exact absurd hline hfirst
        | cons l above =>
          obtain ⟨rfl, hmore⟩ := List.cons.inj hls
          rw [ih.mpr ⟨line, hmore, hline, fun l hl => habove l (List.mem_cons_of_mem _ hl)⟩]
          rfl

/-- **Where a block is closed** whose search marker stands above some lines: the lines to find, the lines to
put there, and the lines below the block. -/
def closed? (ls : List Text) : Option (List Text × List Text × List Text) :=
  (upTo? divider ls).bind fun (found, more) =>
    (upTo? replaceMarker more).map fun (given, below) => (found, given, below)

theorem closed?_of (below : List Text) {opening closing : Text} (hopening : trim opening = divider)
    (hfound : ∀ l ∈ found, trim l ≠ divider) (hclosing : trim closing = replaceMarker)
    (hgiven : ∀ l ∈ given, trim l ≠ replaceMarker) :
    closed? (found ++ opening :: (given ++ closing :: below)) = some (found, given, below) := by
  have hcut : upTo? divider (found ++ opening :: (given ++ closing :: below)) =
      some (found, given ++ closing :: below) :=
    upTo?_eq_some.mpr ⟨opening, rfl, hopening, hfound⟩
  have hcut' : upTo? replaceMarker (given ++ closing :: below) = some (given, below) :=
    upTo?_eq_some.mpr ⟨closing, rfl, hclosing, hgiven⟩
  rw [closed?, hcut, Option.bind_some]
  dsimp only
  rw [hcut', Option.map_some]

/-- The text that some lines of a block stand for. -/
def blockText (ls : List Text) : Text := join "\n" (ls.map withoutReturns)

/-- The step of a block that is closed, and the steps below it. -/
def stepsBelow (name : Text) : Option (List Text × List Text × List Text) → List EditStep
  | none => []
  | some (found, given, below) =>
    ⟨name, blockText found, blockText given⟩ :: ofLines (some name) .between (below.map withoutReturns)

theorem ofLines_searching_of_no_divider (h : ∀ l ∈ ls, trim l ≠ divider) :
    ofLines file (.searching found) ls = [] := by
  induction ls generalizing found with
  | nil => rfl
  | cons l more ih =>
    obtain ⟨hl, hmore⟩ := List.forall_mem_cons.mp h
    rw [ofLines, if_neg hl, ih hmore]

theorem ofLines_replacing_of_no_marker (h : ∀ l ∈ ls, trim l ≠ replaceMarker) :
    ofLines file (.replacing found given) ls = [] := by
  induction ls generalizing given with
  | nil => rfl
  | cons l more ih =>
    obtain ⟨hl, hmore⟩ := List.forall_mem_cons.mp h
    rw [ofLines, if_neg hl, ih hmore]

/-- **A block that was opened** goes down to the first divider and then to the first replace marker,
and without these it gives no step. -/
theorem ofLines_open (name : Text) (ls : List Text) :
    ofLines (some name) (.searching []) (ls.map withoutReturns) = stepsBelow name (closed? ls) := by
  -- a marker is told by its trimmed form, so a carriage return neither makes one nor hides one
  have hreturns {marker : Text} {ls : List Text} (h : ∀ l ∈ ls, trim l ≠ marker) :
      ∀ l ∈ ls.map withoutReturns, trim l ≠ marker := by
    intro l hl
    obtain ⟨raw, hraw, rfl⟩ := List.mem_map.mp hl
    rw [trim_withoutReturns]
    exact h raw hraw
  rw [closed?]
  cases hdivider : upTo? divider ls with
  | none => exact ofLines_searching_of_no_divider (hreturns (upTo?_eq_none.mp hdivider))
  | some cut =>
    obtain ⟨line, rfl, hline, hfound⟩ := upTo?_eq_some.mp hdivider
    rw [List.map_append, List.map_cons, ofLines_searching (hreturns hfound) (by rwa [trim_withoutReturns]),
      Option.bind_some]
    dsimp only
    cases hclose : upTo? replaceMarker cut.2 with
    | none => exact ofLines_replacing_of_no_marker (hreturns (upTo?_eq_none.mp hclose))
    | some cut' =>
      obtain ⟨line', hmore, hline', hgiven⟩ := upTo?_eq_some.mp hclose
      rw [hmore, List.map_append, List.map_cons,
        ofLines_replacing (hreturns hgiven) (by rwa [trim_withoutReturns])]
      rfl

/-! ### Texts of lines -/

/-- A text grows when lines are put above its own. -/
theorem length_blockText_lt (h : withoutReturns line ≠ []) (above ls : List Text) :
    (blockText ls).length < (blockText (above ++ line :: ls)).length := by
  have habove := length_join_append "\n" (above.map withoutReturns) ((line :: ls).map withoutReturns)
  have hline := length_join_append "\n" [withoutReturns line] (ls.map withoutReturns)
  have hpos : 0 < (withoutReturns line).length := List.length_pos_iff.mpr h
  rw [blockText, blockText, List.map_append]
  simp only [join, List.singleton_append, List.map_cons] at habove hline ⊢
  omega

/-- Every line of a text is one of the lines it was made of, or it is empty. -/
theorem mem_of_mem_split_blockText (h : ∀ l ∈ ls, '\n' ∉ l)
    (hline : line ∈ split (· = '\n') (blockText ls)) : (∃ l ∈ ls, withoutReturns l = line) ∨ line = [] := by
  by_cases hls : ls = []
  · rw [hls] at hline
    exact Or.inr (List.mem_singleton.mp hline)
  · have hpieces : ∀ l ∈ ls.map withoutReturns, ∀ c ∈ l, ¬decide (c = '\n') = true := by
      intro l hl c hc hfeed
      obtain ⟨raw, hraw, rfl⟩ := List.mem_map.mp hl
      exact oneLine_withoutReturns (h raw hraw) (of_decide_eq_true hfeed ▸ hc)
    have hsplit : split (· = '\n') (blockText ls) = ls.map withoutReturns :=
      split_join (decide_eq_true rfl) (by simpa using hls) hpieces
    rw [hsplit] at hline
    exact Or.inl (List.mem_map.mp hline)

theorem Fills.mem_split (h : Fills t ls) (hline : line ∈ ls) : line ∈ split (· = '\n') t := by
  rcases h with rfl | ⟨-, rfl⟩
  · exact hline
  · cases hline

/-- The lines to find, as they stand in a block, stand for the text to find. -/
theorem Block.blockText_found (b : Block) : blockText b.found = b.step.search := by
  rw [blockText, map_withoutReturns fun l hl => (b.found_plain l hl).2, b.search_fills.join_eq]

theorem Block.blockText_given (b : Block) : blockText b.given = b.step.replacement := by
  rw [blockText, map_withoutReturns fun l hl => (b.given_plain l hl).2, b.replacement_fills.join_eq]

/-! ### A block that is not closed -/

/-- **A block that is not closed**: a line that names a file, a search marker, and then any lines with no
replace marker among them. -/
structure OpenBlock where
  file : Text
  head : Text
  opening : Text
  body : List Text
  head_names : fileNamed? head = some file
  opening_opens : trim opening = searchMarker
  body_open : ∀ l ∈ body, trim l ≠ replaceMarker
  head_oneLine : '\n' ∉ head
  opening_oneLine : '\n' ∉ opening
  body_oneLine : ∀ l ∈ body, '\n' ∉ l

/-- The lines of a block that is not closed. -/
def OpenBlock.lines (u : OpenBlock) : List Text := u.head :: u.opening :: u.body

theorem OpenBlock.oneLine (u : OpenBlock) : ∀ l ∈ u.lines, '\n' ∉ l :=
  List.forall_mem_cons.mpr ⟨u.head_oneLine, List.forall_mem_cons.mpr ⟨u.opening_oneLine, u.body_oneLine⟩⟩

/-- What an open block and the lines below it are read as. -/
theorem OpenBlock.parse_append (u : OpenBlock) (h : ∀ l ∈ ls, '\n' ∉ l) :
    parse (unlines (u.lines ++ ls)) = stepsBelow u.file (closed? (u.body ++ ls)) := by
  have hhead : fileNamed? (withoutReturns u.head) = some u.file := by
    rw [fileNamed?, written?, trim_withoutReturns]
    exact u.head_names
  have hopening : trim (withoutReturns u.opening) = searchMarker := by
    rw [trim_withoutReturns, u.opening_opens]
  have hunnamed : fileNamed? (withoutReturns u.opening) = none := by
    have hmarker : fileNamed? searchMarker = none := by decide
    have htwice : trim searchMarker = searchMarker := by decide
    rw [fileNamed?, written?, htwice] at hmarker
    rw [fileNamed?, written?, hopening]
    exact hmarker
  have hlines : ∀ l ∈ u.lines ++ ls, '\n' ∉ l := List.forall_mem_append.mpr ⟨u.oneLine, h⟩
  rw [parse_unlines hlines, lines, List.cons_append, List.cons_append, List.map_cons, List.map_cons, ofLines,
    hhead]
  dsimp only
  rw [ofLines, hunnamed]
  dsimp only
  rw [if_pos hopening, ofLines_open]

/-- The lines of a block that names its file and has no prose above it, with other lines below. -/
theorem Block.lines_append (b : Block) (hnamed : b.named = true) (habove : b.above = []) (rest : List Text) :
    b.lines ++ rest = heading b.step.file :: searchMarker ::
      (b.found ++ divider :: (b.given ++ replaceMarker :: rest)) := by
  simp [Block.lines, hnamed, habove]

theorem trim_markers : trim searchMarker ≠ divider ∧ trim searchMarker ≠ replaceMarker ∧
    trim divider = divider ∧ trim divider ≠ replaceMarker ∧ trim replaceMarker = replaceMarker := by
  decide

/-- The name of a file is no marker. -/
theorem trim_heading_ne (h : IsFileName name) :
    trim (heading name) ≠ divider ∧ trim (heading name) ≠ replaceMarker := by
  have hfirst : some 'F' ≠ divider.head? ∧ some 'F' ≠ replaceMarker.head? := by decide
  rw [trim_heading h, heading_eq]
  exact ⟨fun heq => hfirst.1 (congrArg List.head? heq), fun heq => hfirst.2 (congrArg List.head? heq)⟩

section Below

variable (b : Block) (hnamed : b.named = true) (habove : b.above = []) (rest : List Text)

include hnamed habove

/-- Without a divider of its own, an open block takes that of the block below: its lines to find go on down
to there. -/
theorem closed?_of_no_divider (hls : ∀ l ∈ ls, trim l ≠ divider) : closed? (ls ++ (b.lines ++ rest)) =
    some (ls ++ heading b.step.file :: searchMarker :: b.found, b.given, rest) := by
  obtain ⟨hsearch, -, hdivider, -, hreplace⟩ := trim_markers
  have hfound : ∀ l ∈ ls ++ heading b.step.file :: searchMarker :: b.found, trim l ≠ divider :=
    List.forall_mem_append.mpr ⟨hls, List.forall_mem_cons.mpr ⟨(trim_heading_ne b.file_isFileName).1,
      List.forall_mem_cons.mpr ⟨hsearch, fun l hl => (b.found_plain l hl).1⟩⟩⟩
  have hclosed := closed?_of rest hdivider hfound hreplace fun l hl => (b.given_plain l hl).1
  rw [b.lines_append hnamed habove]
  simpa only [List.append_assoc, List.cons_append] using hclosed

variable (hfound : ∀ l ∈ found, trim l ≠ divider) (hline : trim line = divider)
  (hgiven : ∀ l ∈ given, trim l ≠ replaceMarker)

include hfound hline hgiven

/-- Below a divider of its own, an open block takes the whole block that follows. -/
theorem closed?_of_divider (hplain : ∀ l ∈ b.found, trim l ≠ replaceMarker) :
    closed? (found ++ line :: (given ++ (b.lines ++ rest))) = some (found,
      given ++ heading b.step.file :: searchMarker :: (b.found ++ divider :: b.given), rest) := by
  obtain ⟨-, hsearch, -, hdivider, hreplace⟩ := trim_markers
  have hgiven' : ∀ l ∈ given ++ heading b.step.file :: searchMarker :: (b.found ++ divider :: b.given),
      trim l ≠ replaceMarker :=
    List.forall_mem_append.mpr ⟨hgiven, List.forall_mem_cons.mpr ⟨(trim_heading_ne b.file_isFileName).2,
      List.forall_mem_cons.mpr ⟨hsearch, List.forall_mem_append.mpr ⟨hplain,
        List.forall_mem_cons.mpr ⟨hdivider, fun l hl => (b.given_plain l hl).1⟩⟩⟩⟩⟩
  have hclosed := closed?_of rest hline hfound hreplace hgiven'
  rw [b.lines_append hnamed habove]
  simpa only [List.append_assoc, List.cons_append] using hclosed

/-- If a replace marker is among the lines to find of the block that follows, then it goes down to there. -/
theorem closed?_of_marker_found {above below : List Text} {close : Text}
    (hb : b.found = above ++ close :: below) (hclose : trim close = replaceMarker) (hplain : ∀ l ∈ above, trim l ≠ replaceMarker) :
    closed? (found ++ line :: (given ++ (b.lines ++ rest))) = some (found,
      given ++ heading b.step.file :: searchMarker :: above,
      below ++ divider :: (b.given ++ replaceMarker :: rest)) := by
  obtain ⟨-, hsearch, -⟩ := trim_markers
  have hgiven' : ∀ l ∈ given ++ heading b.step.file :: searchMarker :: above, trim l ≠ replaceMarker :=
    List.forall_mem_append.mpr ⟨hgiven, List.forall_mem_cons.mpr ⟨(trim_heading_ne b.file_isFileName).2,
      List.forall_mem_cons.mpr ⟨hsearch, hplain⟩⟩⟩
  have hclosed := closed?_of (below ++ divider :: (b.given ++ replaceMarker :: rest)) hline hfound hclose
    hgiven'
  rw [b.lines_append hnamed habove, hb]
  simpa only [List.append_assoc, List.cons_append] using hclosed

end Below

/-- **A block below closes an open one**, and the two texts that come out are not those of that block. -/
theorem OpenBlock.exists_closed (u : OpenBlock) (b : Block) (hnamed : b.named = true) (habove : b.above = [])
    (rest : List Text) : ∃ found given below,
      closed? (u.body ++ (b.lines ++ rest)) = some (found, given, below) ∧
        (blockText found, blockText given) ≠ (b.step.search, b.step.replacement) := by
  cases hbody : upTo? divider u.body with
  | none =>
    -- the text to find begins with lines that the one of the block does not have
    refine ⟨_, _, _, closed?_of_no_divider b hnamed habove rest (upTo?_eq_none.mp hbody), fun h => ?_⟩
    have hmarker : withoutReturns searchMarker ≠ [] := by decide
    have hlt := length_blockText_lt hmarker (u.body ++ [heading b.step.file]) b.found
    rw [List.append_assoc, List.singleton_append, b.blockText_found, (Prod.mk.inj h).1] at hlt
    exact lt_irrefl _ hlt
  | some cut =>
    obtain ⟨found, given⟩ := cut
    obtain ⟨line, hcut, hline, hfound⟩ := upTo?_eq_some.mp hbody
    obtain ⟨hopen, hopen'⟩ := List.forall_mem_append.mp (hcut ▸ u.body_open)
    have hgiven := (List.forall_mem_cons.mp hopen').2
    rw [hcut, List.append_assoc, List.cons_append]
    cases hclose : upTo? replaceMarker b.found with
    | none =>
      -- the text to put there ends as the one of the block does, and is longer
      refine ⟨_, _, _, closed?_of_divider b hnamed habove rest hfound hline hgiven
        (upTo?_eq_none.mp hclose), fun h => ?_⟩
      have hdivider : withoutReturns divider ≠ [] := by decide
      have hlt := length_blockText_lt hdivider (given ++ heading b.step.file :: searchMarker :: b.found)
        b.given
      rw [b.blockText_given, ← (Prod.mk.inj h).2] at hlt
      simp only [List.append_assoc, List.cons_append] at hlt
      exact lt_irrefl _ hlt
    | some cut' =>
      -- the text to find of the block has a replace marker for a line, and the one that comes out has not
      obtain ⟨close, hb, htrim, hplain⟩ := upTo?_eq_some.mp hclose
      refine ⟨_, _, _, closed?_of_marker_found b hnamed habove rest hfound hline hgiven hb htrim hplain,
        fun h => ?_⟩
      have hmem : close ∈ split (· = '\n') (blockText found) := by
        rw [(Prod.mk.inj h).1]
        exact b.search_fills.mem_split (hb ▸ List.mem_append_right _ List.mem_cons_self)
      have honeLine : ∀ l ∈ found, '\n' ∉ l := fun l hl =>
        u.body_oneLine l (hcut ▸ List.mem_append_left _ hl)
      rcases mem_of_mem_split_blockText honeLine hmem with ⟨l, hl, rfl⟩ | rfl
      · exact hopen l hl (by rw [← trim_withoutReturns, htrim])
      · exact absurd htrim (by decide)

/-- **A block that is not closed is never passed over.** The lines below it go on in it, down to the divider
and the replace marker that they hold, and what is left is read with its file in force. Where they are a
document of blocks that begins with the name of a file, the first step is for the file of the open block
and is not the first step of the document. -/
theorem open_block_takes (u : OpenBlock) :
    (∀ rest, (∀ l ∈ rest, '\n' ∉ l) →
      parse (unlines (u.lines ++ rest)) = stepsBelow u.file (closed? (u.body ++ rest))) ∧
    ∀ b more below t, FilesInForce none (b :: more) → b.above = [] → (∀ l ∈ below, IsProse l) →
      t = unlines (documentLines (b :: more) below) ∨
        t ++ ['\n'] = unlines (documentLines (b :: more) below) →
      parse t = b.step :: more.map Block.step ∧
        ∃ step steps, parse (unlines u.lines ++ t) = step :: steps ∧ step.file = u.file ∧ step ≠ b.step := by
  refine ⟨fun rest hrest => u.parse_append hrest, fun b more below t hfiles habove hbelow ht =>
    ⟨(parse_eq_of_unlines ht).trans (parse_unlines_documentLines hfiles hbelow), ?_⟩⟩
  have hnamed : b.named = true := hfiles.1.resolve_right (by simp)
  have hdocument : parse (unlines u.lines ++ t) =
      parse (unlines (u.lines ++ documentLines (b :: more) below)) := by
    refine parse_eq_of_unlines ?_
    rw [unlines_append, List.append_assoc]
    exact ht.imp (congrArg _) (congrArg _)
  obtain ⟨found, given, lower, hclosed, hne⟩ :=
    u.exists_closed b hnamed habove (more.flatMap Block.lines ++ below)
  have hsteps : parse (unlines u.lines ++ t) = stepsBelow u.file (some (found, given, lower)) := by
    rw [hdocument, u.parse_append (oneLine_of_mem_documentLines hbelow), documentLines, List.flatMap_cons,
      List.append_assoc, hclosed]
  exact ⟨_, _, hsteps, rfl, fun h => hne (by rw [← h])⟩

/-- A block that breaks off below its first line to find. -/
def cutOff : OpenBlock where
  file := "a.cpp"
  head := "FILE: a.cpp"
  opening := "<<<<<<< SEARCH"
  body := ["int a;"]
  head_names := by decide +kernel
  opening_opens := by decide +kernel
  body_open := by decide +kernel
  head_oneLine := by decide +kernel
  opening_oneLine := by decide +kernel
  body_oneLine := by decide +kernel

/-- A whole block, for another file. -/
def whole : Block where
  above := []
  named := true
  step := ⟨"b.cpp", "int b;", "int c;"⟩
  found := ["int b;"]
  given := ["int c;"]
  above_isProse := List.forall_mem_nil _
  file_isFileName := by decide +kernel
  search_fills := by decide +kernel
  replacement_fills := by decide +kernel
  found_plain := by decide +kernel
  given_plain := by decide +kernel

/-- The block that breaks off takes the whole one, and its step is for the wrong file. -/
theorem cutOff_takes_whole : parse (unlines (documentLines [whole] [])) = [⟨"b.cpp", "int b;", "int c;"⟩] ∧
    ∃ step steps, parse (unlines cutOff.lines ++ unlines (documentLines [whole] [])) = step :: steps ∧
      step.file = "a.cpp".toList ∧ step ≠ whole.step :=
  (open_block_takes cutOff).2 whole [] [] _ ⟨Or.inl rfl, trivial⟩ rfl (List.forall_mem_nil _) (Or.inl rfl)

/-- What is read for it: the name and the search marker of the whole block are looked for in the file. -/
theorem cutOff_not_passed_over :
    parse (unlines cutOff.lines ++ unlines (documentLines [whole] [])) =
      [⟨"a.cpp", "int a;\nFILE: b.cpp\n<<<<<<< SEARCH\nint b;", "int c;"⟩] ∧
    parse (unlines cutOff.lines ++ unlines (documentLines [whole] [])) ≠
      parse (unlines (documentLines [whole] [])) := by
  decide +kernel

end BuildMender.EditStep
