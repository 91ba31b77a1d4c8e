import BuildMender.Patch.EditStep
import BuildMender.Proofs.Text.Line

/-!
# Edit steps written as blocks

A step is written as a block of lines: its file's name, a search marker, the lines to find, a divider, the
lines to put there, and a replace marker. A text of such blocks, with prose around them, is read as the
steps that were written (`BuildMender.EditStep.parse_blocks`).

The one thing to know is what may stand where. Between blocks a line means something only if it opens a
block or names a file, and prose is a line that does neither (`BuildMender.EditStep.IsProse`). Inside a
block each half is ended by one marker, and every other line belongs to the text, whatever it looks like:
so the lines to find may hold a replace marker, and either half may hold names of files.

The reading goes line by line, and the laws for it say what a run of lines does to it at each of its three
places, with any lines after them (`BuildMender.EditStep.ofLines_prose`,
`BuildMender.EditStep.ofLines_searching`, `BuildMender.EditStep.ofLines_replacing`).
-/

namespace BuildMender.EditStep

open Text

variable {file : Option Text} {found given ls rest : List Text} {line name t : Text}

/-! ### What a line says between blocks -/

/-- The words with which a line begins that names a file. -/
def headings : List Text := ["FILE:", "File:", "file:"]

/-- **A line of prose** neither opens a block nor begins to name a file. -/
structure IsProse (line : Text) : Prop where
  oneLine : '\n' ∉ line
  ne_searchMarker : trim line ≠ searchMarker
  no_heading : ∀ word ∈ headings, ¬word <+: trim line

/-- **A name that can be written on a line**: not empty, without blanks or ticks around it, and spelled as
names are kept. -/
structure IsFileName (name : Text) : Prop where
  oneLine : '\n' ∉ name
  ne_nil : name ≠ []
  start : ∀ c ∈ name.head?, isBlank c = false ∧ c ≠ '\x60'
  finish : ∀ c ∈ name.getLast?, isBlank c = false ∧ c ≠ '\x60'
  normal : SourceFile.normalize name = name

instance (line : Text) : Decidable (IsProse line) :=
  decidable_of_iff ('\n' ∉ line ∧ trim line ≠ searchMarker ∧ ∀ word ∈ headings, ¬word <+: trim line)
    ⟨fun ⟨h, hm, hw⟩ => ⟨h, hm, hw⟩, fun ⟨h, hm, hw⟩ => ⟨h, hm, hw⟩⟩

instance (name : Text) : Decidable (IsFileName name) :=
  -- there is at most one character to look at, and no need to go through them all
  have (o : Option Char) : Decidable (∀ c ∈ o, isBlank c = false ∧ c ≠ '\x60') := Option.decidableForallMem o
  decidable_of_iff ('\n' ∉ name ∧ name ≠ [] ∧ (∀ c ∈ name.head?, isBlank c = false ∧ c ≠ '\x60') ∧
      (∀ c ∈ name.getLast?, isBlank c = false ∧ c ≠ '\x60') ∧ SourceFile.normalize name = name)
    ⟨fun ⟨h, hne, hs, hf, hn⟩ => ⟨h, hne, hs, hf, hn⟩, fun ⟨h, hne, hs, hf, hn⟩ => ⟨h, hne, hs, hf, hn⟩⟩

/-- The line that names a file. -/
def heading (name : Text) : Text := "FILE: " ++ name

theorem heading_eq (name : Text) : heading name = 'F' :: 'I' :: 'L' :: 'E' :: ':' :: ' ' :: name := rfl

theorem IsFileName.oneLine_heading (h : IsFileName name) : '\n' ∉ heading name := by
  intro hc
  rcases List.mem_append.mp hc with hc | hc
  · exact absurd hc (by decide)
  · exact h.oneLine hc

theorem getLast?_heading (h : name ≠ []) : (heading name).getLast? = name.getLast? :=
  List.getLast?_append_of_ne_nil _ h

theorem fileNamed?_of_no_heading (h : ∀ word ∈ headings, ¬word <+: trim line) : fileNamed? line = none := by
  have hnone (word : Text) (hw : word ∈ headings) : after? word (trim line) = none :=
    after?_eq_none.mpr (h word hw)
  rw [fileNamed?, written?, hnone "FILE:" (by simp [headings]), hnone "File:" (by simp [headings]),
    hnone "file:" (by simp [headings])]
  rfl

theorem trim_heading (h : IsFileName name) : trim (heading name) = heading name := by
  refine trim_of_ends (fun c hc => ?_) fun c hc => (h.finish c ?_).1
  · rw [heading_eq, List.head?_cons] at hc
    obtain rfl := Option.some.inj hc
    rfl
  · rwa [getLast?_heading h.ne_nil] at hc

/-- The name on the line that names a file. -/
theorem fileNamed?_heading (h : IsFileName name) : fileNamed? (heading name) = some name := by
  have hticks : trim (dropEnd (· == '\x60') (dropStart (· == '\x60') (trim (' ' :: name)))) = name := by
    have hblank : trim (' ' :: name) = trim name := rfl
    rw [hblank, trim_of_ends (fun c hc => (h.start c hc).1) fun c hc => (h.finish c hc).1,
      dropStart_of_head? fun c hc => beq_false_of_ne (h.start c hc).2,
      dropEnd_of_getLast? fun c hc => beq_false_of_ne (h.finish c hc).2,
      trim_of_ends (fun c hc => (h.start c hc).1) fun c hc => (h.finish c hc).1]
  have hafter : after? "FILE:" (heading name) = some (' ' :: name) := after?_append "FILE:" (' ' :: name)
  rw [fileNamed?, written?, trim_heading h, hafter]
  dsimp only [Option.orElse]
  rw [hticks, if_neg (by simpa using h.ne_nil), Option.map_some, h.normal]

/-! ### The reading of a run of lines -/

theorem ofLines_prose (h : ∀ l ∈ ls, trim l ≠ searchMarker ∧ fileNamed? l = none) :
    ofLines file .between (ls ++ rest) = ofLines file .between rest := by
  induction ls with
  | nil => rfl
  | cons l more ih =>
    obtain ⟨⟨hmarker, hnamed⟩, hmore⟩ := List.forall_mem_cons.mp h
    rw [List.cons_append, ofLines, hnamed]
    dsimp only
    rw [if_neg hmarker, ih hmore]

/-- The lines to find, down to a divider. -/
theorem ofLines_searching (h : ∀ l ∈ ls, trim l ≠ divider) (hline : trim line = divider) :
    ofLines file (.searching found) (ls ++ line :: rest) =
      ofLines file (.replacing (found ++ ls) []) rest := by
  induction ls generalizing found with
  | nil => rw [List.nil_append, ofLines, if_pos hline, List.append_nil]
  | cons l more ih =>
    obtain ⟨hl, hmore⟩ := List.forall_mem_cons.mp h
    rw [List.cons_append, ofLines, if_neg hl, ih hmore, List.append_assoc, List.singleton_append]

/-- The lines to put there, down to a replace marker. -/
theorem ofLines_replacing (h : ∀ l ∈ ls, trim l ≠ replaceMarker) (hline : trim line = replaceMarker) :
    ofLines file (.replacing found given) (ls ++ line :: rest) =
      (file.map fun name => ⟨name, join "\n" found, join "\n" (given ++ ls)⟩).toList ++
        ofLines file .between rest := by
  induction ls generalizing given with
  | nil => rw [List.nil_append, ofLines, if_pos hline, List.append_nil]
  | cons l more ih =>
    obtain ⟨hl, hmore⟩ := List.forall_mem_cons.mp h
    rw [List.cons_append, ofLines, if_neg hl, ih hmore, List.append_assoc, List.singleton_append]

/-- **A whole block**, with a file in force. -/
theorem ofLines_block (hfound : ∀ l ∈ found, trim l ≠ divider)
    (hgiven : ∀ l ∈ given, trim l ≠ replaceMarker) :
    ofLines (some name) .between
        (searchMarker :: (found ++ divider :: (given ++ replaceMarker :: rest))) =
      ⟨name, join "\n" found, join "\n" given⟩ :: ofLines (some name) .between rest := by
  have hopen : fileNamed? searchMarker = none := by decide
  rw [ofLines, hopen]
  dsimp only
  rw [if_pos (by decide), ofLines_searching hfound (by decide),
    ofLines_replacing hgiven (by decide)]
  rfl

/-- The line that names a file puts it in force. -/
theorem ofLines_heading (h : IsFileName name) :
    ofLines file .between (heading name :: rest) = ofLines (some name) .between rest := by
  rw [ofLines, fileNamed?_heading h]

/-- An empty line at the end says nothing. -/
theorem ofLines_append_nil (file : Option Text) (place : Place) (ls : List Text) :
    ofLines file place (ls ++ [[]]) = ofLines file place ls := by
  have hnamed : fileNamed? [] = none := by decide
  have hopen : trim [] ≠ searchMarker := by decide
  have hdivider : trim [] ≠ divider := by decide
  have hclose : trim [] ≠ replaceMarker := by decide
  induction ls generalizing file place with
  | nil =>
    cases place <;> simp only [List.nil_append, ofLines, hnamed, if_neg hopen, if_neg hdivider,
      if_neg hclose]
  | cons l more ih => cases place <;> simp only [List.cons_append, ofLines, ih]

/-! ### Texts and their lines -/

theorem parse_unlines (h : ∀ l ∈ ls, '\n' ∉ l) :
    parse (unlines ls) = ofLines none .between (ls.map withoutReturns) := by
  have hmap : (lines (unlines ls)).map withoutReturns = ls.map withoutReturns := by
    rw [lines_unlines h, List.map_map]
    exact List.map_congr_left fun l _ => withoutReturns_withoutReturn l
  rw [parse, ← hmap]
  rfl

/-- **A line feed at the end of a text** makes no difference to the steps in it. -/
theorem parse_append_lineFeed (t : Text) : parse (t ++ ['\n']) = parse t := by
  rcases lines_append_lineFeed t with ⟨start, last, ht, hfeed⟩ | hfeed
  · rw [parse, parse, ht, hfeed, List.map_append, List.map_append, List.map_singleton, List.map_singleton,
      ← withoutReturns, ← withoutReturns, withoutReturns_withoutReturn]
  · rw [parse, hfeed, List.map_append]
    exact ofLines_append_nil _ _ _

/-- The lines of a text whose last one may lack its line feed are all that its steps depend on. -/
theorem parse_eq_of_unlines (h : t = unlines ls ∨ t ++ ['\n'] = unlines ls) :
    parse t = parse (unlines ls) := by
  rcases h with rfl | h
  · rfl
  · rw [← h, parse_append_lineFeed]

/-- **The lines that a text fills.** An empty text fills one empty line, or none. -/
def Fills (t : Text) (ls : List Text) : Prop := ls = split (· = '\n') t ∨ t = [] ∧ ls = []

instance (t : Text) (ls : List Text) : Decidable (Fills t ls) :=
  inferInstanceAs (Decidable (_ ∨ _))

theorem Fills.join_eq (h : Fills t ls) : join "\n" ls = t := by
  rcases h with rfl | ⟨rfl, rfl⟩
  · exact join_split '\n' t
  · rfl

theorem Fills.oneLine (h : Fills t ls) : ∀ l ∈ ls, '\n' ∉ l := by
  rcases h with rfl | ⟨-, rfl⟩
  · exact fun l hl hc => not_mem_of_mem_split hl _ hc (decide_eq_true rfl)
  · exact List.forall_mem_nil _

/-! ### Documents -/

/-- **A step written as a block**: with some prose above it, with or without a line that names its file, and
with the lines that its two texts fill. No line of a text ends with a carriage return, and none reads as
the marker that ends its half of the block. -/
structure Block where
  above : List Text
  named : Bool
  step : EditStep
  found : List Text
  given : List Text
  above_isProse : ∀ l ∈ above, IsProse l
  file_isFileName : IsFileName step.file
  search_fills : Fills step.search found
  replacement_fills : Fills step.replacement given
  found_plain : ∀ l ∈ found, trim l ≠ divider ∧ l.getLast? ≠ some '\r'
  given_plain : ∀ l ∈ given, trim l ≠ replaceMarker ∧ l.getLast? ≠ some '\r'

/-- The lines of a block. -/
def Block.lines (b : Block) : List Text :=
  b.above ++ ((if b.named then [heading b.step.file] else []) ++
    searchMarker :: (b.found ++ divider :: (b.given ++ [replaceMarker])))

/-- The lines of some blocks, and prose below them. -/
def documentLines (blocks : List Block) (below : List Text) : List Text :=
  blocks.flatMap Block.lines ++ below

/-- **Each block has its file in force**: it names it itself, or is for the file of the block before. -/
def FilesInForce : Option Text → List Block → Prop
  | _, [] => True
  | file, b :: more => (b.named = true ∨ file = some b.step.file) ∧ FilesInForce (some b.step.file) more

theorem IsProse.between (h : ∀ l ∈ ls, IsProse l) :
    ∀ l ∈ ls.map withoutReturns, trim l ≠ searchMarker ∧ fileNamed? l = none := by
  intro l hl
  obtain ⟨raw, hraw, rfl⟩ := List.mem_map.mp hl
  have htrim := trim_withoutReturns raw
  refine ⟨htrim ▸ (h raw hraw).ne_searchMarker, fileNamed?_of_no_heading fun word hw => ?_⟩
  rw [htrim]
  exact (h raw hraw).no_heading word hw

theorem withoutReturns_heading (h : IsFileName name) : withoutReturns (heading name) = heading name := by
  refine withoutReturns_of_getLast? fun hc => ?_
  rw [getLast?_heading h.ne_nil] at hc
  exact absurd (h.finish _ hc).1 (by decide)

/-- **A block is read as its step**, and leaves its file in force. -/
theorem Block.ofLines_lines (b : Block) (hfile : b.named = true ∨ file = some b.step.file) :
    ofLines file .between (b.lines.map withoutReturns ++ rest) =
      b.step :: ofLines (some b.step.file) .between rest := by
  have hfound := map_withoutReturns fun l hl => (b.found_plain l hl).2
  have hgiven := map_withoutReturns fun l hl => (b.given_plain l hl).2
  have hmarkers : withoutReturns searchMarker = searchMarker ∧ withoutReturns divider = divider ∧
      withoutReturns replaceMarker = replaceMarker := by
    decide
  -- below the prose and the name the file is in force, whoever has named it
  have hnamed (ls : List Text) : ofLines file .between
      ((if b.named then [heading b.step.file] else []).map withoutReturns ++ ls) =
        ofLines (some b.step.file) .between ls := by
    cases hb : b.named with
    | true =>
      rw [if_pos rfl, List.map_singleton, withoutReturns_heading b.file_isFileName]
      exact ofLines_heading b.file_isFileName
    | false =>
      obtain rfl := hfile.resolve_left (by simp [hb])
      rfl
  have hstep : (⟨b.step.file, join "\n" b.found, join "\n" b.given⟩ : EditStep) = b.step := by
    rw [b.search_fills.join_eq, b.replacement_fills.join_eq]
  simp only [Block.lines, List.map_append, List.map_cons, List.map_nil, hmarkers, hfound, hgiven,
    List.append_assoc, List.cons_append, List.nil_append]
  rw [ofLines_prose (IsProse.between b.above_isProse), hnamed,
    ofLines_block (fun l hl => (b.found_plain l hl).1) fun l hl => (b.given_plain l hl).1, hstep]

theorem ofLines_documentLines {blocks : List Block} {below : List Text} (hfiles : FilesInForce file blocks)
    (hbelow : ∀ l ∈ below, IsProse l) :
    ofLines file .between ((documentLines blocks below).map withoutReturns) = blocks.map Block.step := by
  induction blocks generalizing file with
  | nil =>
    have hprose : ofLines file .between (below.map withoutReturns ++ []) = ofLines file .between [] :=
      ofLines_prose (IsProse.between hbelow)
    rw [List.append_nil] at hprose
    exact hprose
  | cons b more ih =>
    rw [documentLines, List.flatMap_cons, List.append_assoc, List.map_append, b.ofLines_lines hfiles.1,
      ← documentLines, ih hfiles.2, List.map_cons]

theorem Block.oneLine (b : Block) : ∀ l ∈ b.lines, '\n' ∉ l := by
  have hmarkers : '\n' ∉ searchMarker ∧ '\n' ∉ divider ∧ '\n' ∉ replaceMarker := by decide
  intro l hl
  simp only [Block.lines, List.mem_append, List.mem_cons, List.not_mem_nil, or_false] at hl
  rcases hl with hl | hl | rfl | hl | rfl | hl | rfl
  · exact (b.above_isProse l hl).oneLine
  · split at hl
    · rw [List.mem_singleton.mp hl]
      exact b.file_isFileName.oneLine_heading
    · cases hl
  · exact hmarkers.1
  · exact b.search_fills.oneLine l hl
  · exact hmarkers.2.1
  · exact b.replacement_fills.oneLine l hl
  · exact hmarkers.2.2

theorem oneLine_of_mem_documentLines {blocks : List Block} {below : List Text}
    (hbelow : ∀ l ∈ below, IsProse l) : ∀ l ∈ documentLines blocks below, '\n' ∉ l := by
  intro l hl
  rcases List.mem_append.mp hl with hl | hl
  · obtain ⟨b, -, hb⟩ := List.mem_flatMap.mp hl
    exact b.oneLine l hb
  · exact (hbelow l hl).oneLine

theorem parse_unlines_documentLines {blocks : List Block} {below : List Text}
    (hfiles : FilesInForce none blocks) (hbelow : ∀ l ∈ below, IsProse l) :
    parse (unlines (documentLines blocks below)) = blocks.map Block.step := by
  rw [parse_unlines (oneLine_of_mem_documentLines hbelow)]
  exact ofLines_documentLines hfiles hbelow

/-- **Steps that are written as blocks are read as they were written**, with any prose around the blocks, in
a text whose last line may lack its line feed. -/
theorem parse_blocks {blocks : List Block} {below : List Text} (hfiles : FilesInForce none blocks)
    (hbelow : ∀ l ∈ below, IsProse l)
    (ht : t = unlines (documentLines blocks below) ∨ t ++ ['\n'] = unlines (documentLines blocks below)) :
    parse t = blocks.map Block.step :=
  (parse_eq_of_unlines ht).trans (parse_unlines_documentLines hfiles hbelow)

/-- Two blocks for one file, which the first of them names. Its lines to find look like the end of a block
and like the name of another file, and its lines to put there hold a divider. -/
def twoForOne : List Block :=
  [{  above := ["First the declaration:", "```"]
      named := true
      step := ⟨"src/a.hpp", "int a;\n>>>>>>> REPLACE\nFILE: b.hpp", "\n=======\nint b;"⟩
      found := ["int a;", ">>>>>>> REPLACE", "FILE: b.hpp"]
      given := ["", "=======", "int b;"]
      above_isProse := by decide +kernel
      file_isFileName := by decide +kernel
      search_fills := by decide +kernel
      replacement_fills := by decide +kernel
      found_plain := by decide +kernel
      given_plain := by decide +kernel },
    { above := ["and at the end of the file:"]
      named := false
      step := ⟨"src/a.hpp", "", "int d;"⟩
      found := []
      given := ["int d;"]
      above_isProse := by decide +kernel
      file_isFileName := by decide +kernel
      search_fills := by decide +kernel
      replacement_fills := by decide +kernel
      found_plain := by decide +kernel
      given_plain := by decide +kernel }]

/-- A text of these blocks, with a code fence below them and no line feed at its end. -/
def twoForOneText : Text :=
  join "\n" ["First the declaration:", "```", "FILE: src/a.hpp", "<<<<<<< SEARCH", "int a;",
    ">>>>>>> REPLACE", "FILE: b.hpp", "=======", "", "=======", "int b;", ">>>>>>> REPLACE",
    "and at the end of the file:", "<<<<<<< SEARCH", "=======", "int d;", ">>>>>>> REPLACE", "```"]

theorem twoForOne_parsed : parse twoForOneText =
    [⟨"src/a.hpp", "int a;\n>>>>>>> REPLACE\nFILE: b.hpp", "\n=======\nint b;"⟩,
      ⟨"src/a.hpp", "", "int d;"⟩] := by
  have hfiles : FilesInForce none twoForOne := ⟨Or.inl rfl, Or.inr rfl, trivial⟩
  have hbelow : ∀ l ∈ ["```".toList], IsProse l := by decide +kernel
  have ht : twoForOneText ++ ['\n'] = unlines (documentLines twoForOne ["```"]) := by decide +kernel
  exact parse_blocks hfiles hbelow (Or.inr ht)

end BuildMender.EditStep
