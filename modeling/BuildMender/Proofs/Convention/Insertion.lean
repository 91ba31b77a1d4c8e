import BuildMender.Convention.Mend
import BuildMender.Proofs.Text.Cut
import BuildMender.Proofs.Text.Line

/-!
# What inserting text does to the lines of a file

A guard is put between two lines of a header. Two things can go wrong with that. The header is taken apart into
lines and put together again with *one* ending for all of them, the one that
`BuildMender.Convention.lineEnding` finds: so lines that were ended otherwise come out changed, and the old text is
no longer what is left when the guard is taken out (`BuildMender.Convention.insertions_put_in`). And the guard is
looked for among the lines of the result, while a guard of several lines is never one of them: it is put in again
each time, unless some two of the lines happen to be a guard by hand
(`BuildMender.Convention.insertGuard?_again_iff`).

What the check sees of a file is `BuildMender.Text.written`: the lines that are not blank, trimmed. For these it makes
no difference how lines are ended or what blanks stand around them, and a text that is put together from others has
theirs one after the other (`BuildMender.Text.written_append_lineFeed_cons`).
-/

namespace BuildMender

namespace Text

variable {a b l r t : Text} {ls : List Text} {c : Char}

/-! ### Complete texts -/

/-- A text behind which a line begins: an empty one, or one that ends with a line feed. -/
def Complete (t : Text) : Prop := t = [] ∨ ∃ start, t = start ++ ['\n']

theorem complete_iff : Complete t ↔ t.isEmpty || endsWith "\n" t := by
  rw [Bool.or_eq_true, List.isEmpty_iff, endsWith, List.isSuffixOf_iff_suffix]
  exact or_congr_right ⟨fun ⟨start, h⟩ => ⟨start, h.symm⟩, fun ⟨start, h⟩ => ⟨start, h.symm⟩⟩

theorem Complete.append (ha : Complete a) (hb : Complete b) : Complete (a ++ b) := by
  rcases hb with rfl | ⟨start, rfl⟩
  · rwa [List.append_nil]
  · exact Or.inr ⟨a ++ start, (List.append_assoc a start _).symm⟩

theorem complete_append_lineFeed_cons (a t : Text) : Complete (a ++ '\n' :: t) ↔ Complete t := by
  refine ⟨fun h => ?_, fun ht => ?_⟩
  · rcases h with hnil | ⟨start, h⟩
    · simp at hnil
    · rcases List.eq_nil_or_concat' t with rfl | ⟨u, c, rfl⟩
      · exact Or.inl rfl
      · have hlast := congrArg List.getLast? h
        rw [List.getLast?_concat, ← List.cons_append, ← List.append_assoc, List.getLast?_concat] at hlast
        exact Or.inr ⟨u, by rw [Option.some.inj hlast]⟩
  · rw [List.append_cons]
    exact Complete.append (Or.inr ⟨a, rfl⟩) ht

/-- Behind a complete text the lines are those of what stands there. -/
theorem Complete.rawLines_append (ha : Complete a) (b : Text) :
    rawLines (a ++ b) = rawLines a ++ rawLines b := by
  rcases ha with rfl | ⟨start, rfl⟩
  · rfl
  · rw [List.append_assoc, List.singleton_append, rawLines_append_lineFeed_cons]

theorem Complete.lines_append (ha : Complete a) (b : Text) : lines (a ++ b) = lines a ++ lines b := by
  rw [lines, ha.rawLines_append, List.map_append]
  rfl

/-! ### The lines that are not blank -/

theorem trim_withoutReturn (l : Text) : trim (withoutReturn l) = trim l := by
  rw [← trim_withoutReturns, withoutReturns_withoutReturn, trim_withoutReturns]

/-- Those of some lines that are not blank, trimmed. -/
def nonblank (ls : List Text) : List Text := (ls.map trim).filter fun l => !l.isEmpty

/-- The lines of a text that are not blank, trimmed. -/
def written (t : Text) : List Text := nonblank (lines t)

theorem nonblank_append (as bs : List Text) : nonblank (as ++ bs) = nonblank as ++ nonblank bs := by
  rw [nonblank, List.map_append, List.filter_append]
  rfl

theorem nonblank_congr (h : trim a = trim b) : nonblank [a] = nonblank [b] := by
  rw [nonblank, List.map_singleton, h]
  rfl

/-- **What is written above a line feed and below it.** -/
theorem written_append_lineFeed_cons (a b : Text) : written (a ++ '\n' :: b) = written a ++ written b := by
  have hfeed : nonblank (lines (a ++ ['\n'])) = nonblank (lines a) := by
    rcases lines_append_lineFeed a with ⟨start, last, hlines, heq⟩ | heq
    · rw [heq, hlines, nonblank_append, nonblank_append, nonblank_congr (trim_withoutReturn last)]
    · rw [heq, nonblank_append]
      exact List.append_nil _
  rw [written, lines_append_lineFeed_cons, nonblank_append, hfeed]
  rfl

theorem written_of_oneLine (h : '\n' ∉ l) : written l = nonblank [l] := by
  by_cases hne : l = []
  · rw [hne]
    rfl
  · rw [written, lines_of_oneLine hne h]

/-- Blanks behind a text do not count, … -/
theorem written_append_of_blank (hb : ∀ c ∈ b, isBlank c) (t : Text) : written (t ++ b) = written t := by
  induction t using induction_lines with
  | line l t hl ih =>
    rw [List.append_assoc, List.cons_append, written_append_lineFeed_cons, ih, written_append_lineFeed_cons]
  | last l hl =>
    induction b using induction_lines generalizing l with
    | last x hx =>
      rw [written_of_oneLine (by simp [hl, hx]), written_of_oneLine hl]
      exact nonblank_congr (trim_append_of_blank hb l)
    | line x z hx ih =>
      obtain ⟨hxblank, hz⟩ := List.forall_mem_append.mp hb
      have hnone : written z = [] := ih (List.forall_mem_cons.mp hz).2 [] List.not_mem_nil
      rw [← List.append_assoc, written_append_lineFeed_cons, hnone, List.append_nil,
        written_of_oneLine (by simp [hl, hx]), written_of_oneLine hl]
      exact nonblank_congr (trim_append_of_blank hxblank l)

/-- … nor do those in front of it. -/
theorem written_of_blank_append (ha : ∀ c ∈ a, isBlank c) (t : Text) : written (a ++ t) = written t := by
  induction a with
  | nil => rfl
  | cons c a ih =>
    obtain ⟨hc, ha⟩ := List.forall_mem_cons.mp ha
    rw [List.cons_append, ← ih ha]
    generalize a ++ t = u
    by_cases hfeed : c = '\n'
    · rw [hfeed]
      exact written_append_lineFeed_cons [] u
    have htrim (l : Text) : trim (c :: l) = trim l := by
      rw [trim, trim, trimStart, dropStart, List.dropWhile_cons_of_pos hc]
      rfl
    induction u using induction_lines with
    | last l hl =>
      rw [written_of_oneLine hl, written_of_oneLine (by simp [hl, Ne.symm hfeed])]
      exact nonblank_congr (htrim l)
    | line l v hl _ =>
      rw [← List.cons_append, written_append_lineFeed_cons, written_append_lineFeed_cons,
        written_of_oneLine hl, written_of_oneLine (by simp [hl, Ne.symm hfeed]), nonblank_congr (htrim l)]

theorem written_trim (t : Text) : written (trim t) = written t := by
  obtain ⟨a, b, ht, ha, hb⟩ := exists_trim t
  conv_rhs => rw [ht]
  rw [written_of_blank_append ha, written_append_of_blank hb]

/-- **A text is written as one line** just if it is one, apart from blanks around it. -/
theorem trim_mem_written : trim t ∈ written t ↔ trim t ≠ [] ∧ '\n' ∉ trim t := by
  rw [← written_trim]
  constructor
  · intro h
    obtain ⟨hmem, hne⟩ := List.mem_filter.mp h
    obtain ⟨l, hl, htrim⟩ := List.mem_map.mp hmem
    refine ⟨by simpa using hne, fun hfeed => oneLine_of_mem_lines hl ?_⟩
    exact trim_subset l (htrim ▸ hfeed)
  · rintro ⟨hne, hone⟩
    rw [written_of_oneLine hone, nonblank, List.map_singleton, trim_trim]
    simp [hne]

/-! ### Lines with one ending -/

/-- Lines put one below another, each with the same ending. -/
def ended (ending : Text) (ls : List Text) : Text := (ls.map (· ++ ending)).flatten

/-- Pieces joined, with the separator behind the last one too. -/
theorem join_append_sep (sep : Text) {ps : List Text} (h : ps ≠ []) : join sep ps ++ sep = ended sep ps := by
  induction ps with
  | nil => exact absurd rfl h
  | cons t more ih =>
    by_cases hmore : more = []
    · subst hmore
      simp [join, ended]
    · rw [join_cons sep t hmore, List.append_assoc, ih hmore]
      rfl

theorem ended_cons (r l : Text) (ls : List Text) :
    ended (r ++ ['\n']) (l :: ls) = (l ++ r) ++ '\n' :: ended (r ++ ['\n']) ls := by
  simp [ended]

theorem rawLines_ended (hr : '\n' ∉ r) (h : ∀ l ∈ ls, '\n' ∉ l) :
    rawLines (ended (r ++ ['\n']) ls) = ls.map (· ++ (r ++ ['\n'])) := by
  induction ls with
  | nil => rfl
  | cons l more ih =>
    obtain ⟨hl, hmore⟩ := List.forall_mem_cons.mp h
    rw [ended_cons, rawLines_append_cons (by simp [hl, hr]), ih hmore, List.map_cons, List.append_assoc]

theorem written_ended (hr : ∀ c ∈ r, isBlank c) (ls : List Text) :
    written (ended (r ++ ['\n']) ls) = ls.flatMap written := by
  induction ls with
  | nil => rfl
  | cons l more ih =>
    rw [ended_cons, written_append_lineFeed_cons, written_append_of_blank hr, ih, List.flatMap_cons]

theorem flatMap_written (h : ∀ l ∈ ls, '\n' ∉ l) : ls.flatMap written = nonblank ls := by
  induction ls with
  | nil => rfl
  | cons l more ih =>
    obtain ⟨hl, hmore⟩ := List.forall_mem_cons.mp h
    rw [List.flatMap_cons, ih hmore, written_of_oneLine hl, ← nonblank_append]
    rfl

/-- A text with an ending for its last line, if that has none. -/
def closeWith (ending t : Text) : Text := if t.isEmpty || endsWith "\n" t then t else t ++ ending

theorem closeWith_of_complete (h : Complete t) (ending : Text) : closeWith ending t = t :=
  if_pos (complete_iff.mp h)

theorem closeWith_of_oneLine (hne : l ≠ []) (h : '\n' ∉ l) (ending : Text) :
    closeWith ending l = l ++ ending := by
  refine if_neg fun hc => ?_
  rcases complete_iff.mpr hc with hnil | ⟨start, rfl⟩
  · exact hne hnil
  · exact h (by simp)

theorem ne_nil_of_mem_rawLines (h : l ∈ rawLines t) : l ≠ [] := by
  induction t using induction_lines with
  | last x hx =>
    by_cases hne : x = []
    · rw [hne] at h
      cases h
    · rw [rawLines_of_oneLine hne hx, List.mem_singleton] at h
      rwa [h]
  | line x t hx ih =>
    rw [rawLines_append_cons hx] at h
    rcases List.mem_cons.mp h with rfl | h
    · simp
    · exact ih h

/-- **Ending the last line** changes no other. -/
theorem rawLines_closeWith (hr : '\n' ∉ r) (t : Text) :
    rawLines (closeWith (r ++ ['\n']) t) = (rawLines t).map (closeWith (r ++ ['\n'])) := by
  induction t using induction_lines with
  | last l hl =>
    by_cases hne : l = []
    · rw [hne]
      rfl
    · rw [closeWith_of_oneLine hne hl, rawLines_of_oneLine hne hl, List.map_singleton,
        closeWith_of_oneLine hne hl, ← List.append_assoc, rawLines_append_cons (by simp [hl, hr]),
        List.append_assoc]
      rfl
  | line l t hl ih =>
    have hclose : closeWith (r ++ ['\n']) (l ++ '\n' :: t) = l ++ '\n' :: closeWith (r ++ ['\n']) t := by
      by_cases ht : Complete t
      · rw [closeWith_of_complete ht, closeWith_of_complete ((complete_append_lineFeed_cons l t).mpr ht)]
      · rw [closeWith, if_neg (mt complete_iff.mpr (mt (complete_append_lineFeed_cons l t).mp ht)), closeWith,
          if_neg (mt complete_iff.mpr ht), List.append_assoc]
        rfl
    rw [hclose, rawLines_append_cons hl, ih, rawLines_append_cons hl, List.map_cons,
      closeWith_of_complete (Or.inr ⟨l, rfl⟩)]

theorem complete_closeWith (r t : Text) : Complete (closeWith (r ++ ['\n']) t) := by
  rw [closeWith]
  split
  · exact complete_iff.mpr ‹_›
  · exact Or.inr ⟨t ++ r, by rw [List.append_assoc]⟩

end Text

namespace Convention

open Text

variable {directive addition content mended l : Text}

/-- The ending of a file's lines is a line feed behind nothing but carriage returns. -/
theorem exists_lineEnding (content : Text) :
    ∃ r, lineEnding content = r ++ ['\n'] ∧ '\n' ∉ r ∧ ∀ c ∈ r, isBlank c := by
  rw [lineEnding]
  split
  · refine ⟨['\r'], rfl, by decide, fun c hc => ?_⟩
    rw [List.mem_singleton.mp hc]
    rfl
  · exact ⟨[], rfl, List.not_mem_nil, fun c hc => absurd hc List.not_mem_nil⟩

/-! ### Where a guard is put -/

/-- The lines that stay above a guard that is put in: the comments at the top. -/
def linesAbove (content : Text) : List Text :=
  (lines content).take (commentLines 0 0 false (lines content))

/-- The lines that come to stand below it. -/
def linesBelow (content : Text) : List Text :=
  (lines content).drop (commentLines 0 0 false (lines content))

theorem lines_eq (content : Text) : linesAbove content ++ linesBelow content = lines content :=
  List.take_append_drop _ _

theorem oneLine_linesAbove (content : Text) : ∀ l ∈ linesAbove content, '\n' ∉ l :=
  fun _ hl => oneLine_of_mem_lines (List.mem_of_mem_take hl)

theorem oneLine_linesBelow (content : Text) : ∀ l ∈ linesBelow content, '\n' ∉ l :=
  fun _ hl => oneLine_of_mem_lines (List.mem_of_mem_drop hl)

/-- Only blank lines are put in with a directive. -/
theorem exists_guardBlock (directive : Text) (above below : List Text) :
    ∃ i j, guardBlock directive above below = List.replicate i [] ++ directive :: List.replicate j [] := by
  have hblank (b : Bool) : ∃ n, (if b then [] else [([] : Text)]) = List.replicate n [] := by
    cases b
    · exact ⟨1, rfl⟩
    · exact ⟨0, rfl⟩
  obtain ⟨i, hi⟩ := hblank above.isEmpty
  rw [guardBlock, hi]
  cases below.head? with
  | none => exact ⟨i, 0, List.append_nil _⟩
  | some next =>
    obtain ⟨j, hj⟩ := hblank (trim next).isEmpty
    refine ⟨i, j, ?_⟩
    simp only [hj, List.append_assoc, List.singleton_append]

/-- **A guard put in**: the file is not guarded, and its lines are put together again with the guard between
them. -/
theorem insertGuard?_eq_some : insertGuard? directive content = some mended ↔
    hasGuard directive content = false ∧
    mended = ended (lineEnding content) (linesAbove content ++
      guardBlock directive (linesAbove content) (linesBelow content) ++ linesBelow content) := by
  rw [insertGuard?]
  split
  · rename_i hguard
    simp [hguard]
  · rename_i hguard
    have hne : linesAbove content ++ guardBlock directive (linesAbove content) (linesBelow content) ++
        linesBelow content ≠ [] := by
      simp [guardBlock]
    rw [Bool.not_eq_true] at hguard
    rw [← join_append_sep _ hne, Option.some_inj, eq_comm, hguard]
    exact (and_iff_right rfl).symm

/-! ### A guard that is put in again -/

/-- **A file is guarded** by what is written in it. -/
theorem hasGuard_iff (directive t : Text) :
    hasGuard directive t ↔ trim directive ∈ written t ∨ hasGuardPair (written t) := by
  have hmem : trim directive ∈ written t ↔
      trim directive ≠ [] ∧ ∃ l ∈ lines t, trim l = trim directive := by
    simp [written, nonblank, and_comm]
  rw [hmem, hasGuard, Bool.or_eq_true, Bool.and_eq_true, Bool.not_eq_true', List.isEmpty_eq_false_iff,
    List.any_eq_true]
  simp only [beq_iff_eq]
  rfl

theorem flatMap_written_guardBlock (directive : Text) (above below : List Text) :
    (guardBlock directive above below).flatMap written = written directive := by
  obtain ⟨i, j, hblock⟩ := exists_guardBlock directive above below
  have hblank (n : Nat) : (List.replicate n ([] : Text)).flatMap written = [] :=
    List.flatMap_eq_nil_iff.mpr fun l hl => by rw [List.eq_of_mem_replicate hl]; rfl
  rw [hblock, List.flatMap_append, List.flatMap_cons, hblank, hblank, List.nil_append, List.append_nil]

/-- What is written in a file with a guard put in. -/
theorem written_inserted (h : insertGuard? directive content = some mended) :
    written mended = nonblank (linesAbove content) ++ written directive ++ nonblank (linesBelow content) := by
  obtain ⟨-, rfl⟩ := insertGuard?_eq_some.mp h
  obtain ⟨r, hr, -, hblank⟩ := exists_lineEnding content
  rw [hr, written_ended hblank, List.flatMap_append, List.flatMap_append, flatMap_written_guardBlock,
    flatMap_written (oneLine_linesAbove content), flatMap_written (oneLine_linesBelow content)]

/-- **A file with a guard put in is guarded** if the guard is one line that is not blank, apart from blanks around
it; and otherwise if two of the lines that are written in it now open a guard by hand. -/
theorem hasGuard_inserted_iff (h : insertGuard? directive content = some mended) :
    hasGuard directive mended ↔ (trim directive ≠ [] ∧ '\n' ∉ trim directive) ∨
      hasGuardPair (nonblank (linesAbove content ++ lines directive ++ linesBelow content)) := by
  have hbare : trim directive ∉ nonblank (linesAbove content) ++ nonblank (linesBelow content) := by
    rw [← nonblank_append, lines_eq]
    intro hmem
    have hguard := (hasGuard_iff directive content).mpr (Or.inl hmem)
    rw [(insertGuard?_eq_some.mp h).1] at hguard
    cases hguard
  rw [List.mem_append, not_or] at hbare
  rw [hasGuard_iff, written_inserted h, nonblank_append, nonblank_append, ← written, List.mem_append,
    List.mem_append, trim_mem_written]
  simp only [hbare.1, hbare.2, false_or, or_false]

/-- **Putting a guard in again** changes nothing just if the guard is one line that is not blank, apart from blanks
around it, or if two neighbours among the lines that are not blank open a guard by hand once those of the
directive stand between the others. -/
theorem insertGuard?_again_iff (h : insertGuard? directive content = some mended) :
    insertGuard? directive mended = none ↔
      (trim directive ≠ [] ∧ '\n' ∉ trim directive) ∨
        hasGuardPair (nonblank (linesAbove content ++ lines directive ++ linesBelow content)) := by
  rw [← hasGuard_inserted_iff h, insertGuard?]
  split <;> simp_all

/-- A guard by hand is found when it has been put in, though it is two lines. -/
theorem handGuard_not_put_in_again :
    insertGuard? "#ifndef A_H\n#define A_H" "// a\nint a;\n" =
      some "// a\n\n#ifndef A_H\n#define A_H\n\nint a;\n".toList ∧
    insertGuard? "#ifndef A_H\n#define A_H" "// a\n\n#ifndef A_H\n#define A_H\n\nint a;\n" = none := by
  have h : insertGuard? "#ifndef A_H\n#define A_H" "// a\nint a;\n" =
      some "// a\n\n#ifndef A_H\n#define A_H\n\nint a;\n".toList := by decide
  exact ⟨h, (insertGuard?_again_iff h).mpr (Or.inr (by decide))⟩

/-- **A directive of two lines** is put in again. -/
theorem twoLines_put_in_again :
    insertGuard? "#pragma once\n// clang-format off" "int x;\n" =
      some "#pragma once\n// clang-format off\n\nint x;\n".toList ∧
    insertGuard? "#pragma once\n// clang-format off" "#pragma once\n// clang-format off\n\nint x;\n" ≠ none := by
  decide

/-! ### What is left without the insertion -/

/-- A file with the last of its lines ended as the others are. -/
def closed (content : Text) : Text := closeWith (lineEnding content) content

theorem complete_closed (content : Text) : Complete (closed content) := by
  obtain ⟨r, hr, -, -⟩ := exists_lineEnding content
  rw [closed, hr]
  exact complete_closeWith r content

/-- What is put below a file together with a line: one more ending above it, unless the file is empty. -/
def endBlock (addition content : Text) : Text :=
  (if (closed content).isEmpty then [] else lineEnding content) ++ addition ++ lineEnding content

/-- **A line put at the end**: the file does not have it, and it comes below the last line. -/
theorem appendLine?_eq_some : appendLine? addition content = some mended ↔
    ((lines content).any fun l => trim l == addition) = false ∧
      mended = closed content ++ endBlock addition content := by
  have hbody : (if (closed content).isEmpty then closed content else closed content ++ lineEnding content) ++
      addition ++ lineEnding content = closed content ++ endBlock addition content := by
    rw [endBlock]
    split
    · rw [List.nil_append, List.append_assoc]
    · simp only [List.append_assoc]
  rw [← hbody, appendLine?]
  split
  · rename_i hfound
    simp [hfound]
  · rename_i hfound
    rw [Bool.not_eq_true] at hfound
    rw [Option.some_inj, eq_comm, hfound]
    exact (and_iff_right rfl).symm

/-- **A block of lines put into a text**: all the lines of the text are lines of the other, with their endings, and
what has been added stands in one place. -/
def PutIn (t mended : Text) : Prop :=
  ∃ above block below, rawLines t = above ++ below ∧ rawLines mended = above ++ block ++ below

/-- Without the block the text is what it was. -/
theorem PutIn.exists_block {t : Text} (h : PutIn t mended) :
    ∃ a b c, t = a ++ c ∧ mended = a ++ b ++ c := by
  obtain ⟨above, block, below, ht, hmended⟩ := h
  refine ⟨above.flatten, block.flatten, below.flatten, ?_, ?_⟩
  · rw [← flatten_rawLines t, ht, List.flatten_append]
  · rw [← flatten_rawLines mended, hmended, List.flatten_append, List.flatten_append]

/-- A file whose lines are all ended alike, up to a last one that is not ended. -/
def EndsAlike (content : Text) : Prop :=
  ∀ l ∈ rawLines content, endsWith "\n" l → endsWith (lineEnding content) l

instance (content : Text) : Decidable (EndsAlike content) :=
  inferInstanceAs (Decidable (∀ l ∈ rawLines content, endsWith "\n" l → endsWith (lineEnding content) l))

/-- A carriage return before a line feed is part of the ending. -/
theorem withoutReturn_append_lineEnding {x : Text} (hx : x ++ ['\n'] ∈ rawLines content)
    (hends : endsWith (lineEnding content) (x ++ ['\n'])) :
    withoutReturn x ++ lineEnding content = x ++ ['\n'] := by
  have hcrlf : "\r\n".toList = ['\r', '\n'] := by decide
  rw [lineEnding] at hends ⊢
  split at hends
  · rename_i hreturn
    rw [if_pos hreturn]
    obtain ⟨y, hy⟩ := List.isSuffixOf_iff_suffix.mp hends
    rw [hcrlf, List.append_cons] at hy
    obtain rfl : y ++ ['\r'] = x := List.append_cancel_right hy
    have hbefore : before? "\r" (y ++ ['\r']) = some y := before?_append _ _
    rw [withoutReturn, hbefore, hcrlf, List.append_cons]
    rfl
  · rename_i hreturn
    rw [if_neg hreturn, withoutReturn]
    cases hbefore : before? "\r" x with
    | none => rfl
    | some y =>
      -- there would be a carriage return before some line feed after all
      refine absurd (occurs_iff.mpr ?_) hreturn
      rw [append_of_before? hbefore, List.append_assoc] at hx
      rw [← flatten_rawLines content]
      exact (List.suffix_append y _).isInfix.trans (List.infix_of_mem_flatten hx)

/-- **Where all lines end alike**, taking the endings off and putting one on for all loses nothing. -/
theorem rawLines_closed (h : EndsAlike content) :
    rawLines (closed content) = (lines content).map (· ++ lineEnding content) := by
  obtain ⟨r, hr, hfeed, -⟩ := exists_lineEnding content
  have hclose (l : Text) (hl : l ∈ rawLines content) :
      closeWith (lineEnding content) l = withoutEnding l ++ lineEnding content := by
    obtain ⟨x, hx, rfl | rfl⟩ := exists_of_mem_rawLines hl
    · rw [closeWith_of_oneLine (ne_nil_of_mem_rawLines hl) hx, withoutEnding_of_not_mem hx]
    · have hends : endsWith "\n" (x ++ ['\n']) := List.isSuffixOf_iff_suffix.mpr ⟨x, rfl⟩
      rw [closeWith_of_complete (Or.inr ⟨x, rfl⟩), withoutEnding_append,
        withoutReturn_append_lineEnding hl (h _ hl hends)]
  rw [closed, hr, rawLines_closeWith hfeed, ← hr, lines, List.map_map]
  exact List.map_congr_left hclose

theorem oneLine_guardBlock (hd : '\n' ∉ directive) (above below : List Text) :
    ∀ l ∈ guardBlock directive above below, '\n' ∉ l := by
  obtain ⟨i, j, hblock⟩ := exists_guardBlock directive above below
  have hblank (n : Nat) : ∀ l ∈ List.replicate n ([] : Text), '\n' ∉ l := fun l hl => by
    rw [List.eq_of_mem_replicate hl]
    exact List.not_mem_nil
  rw [hblock, List.forall_mem_append, List.forall_mem_cons]
  exact ⟨hblank i, hd, hblank j⟩

theorem rawLines_inserted (hd : '\n' ∉ directive) (h : insertGuard? directive content = some mended) :
    rawLines mended = (linesAbove content ++ guardBlock directive (linesAbove content) (linesBelow content) ++
      linesBelow content).map (· ++ lineEnding content) := by
  obtain ⟨-, rfl⟩ := insertGuard?_eq_some.mp h
  obtain ⟨r, hr, hfeed, -⟩ := exists_lineEnding content
  rw [hr]
  refine rawLines_ended hfeed ?_
  rw [List.forall_mem_append, List.forall_mem_append]
  exact ⟨⟨oneLine_linesAbove content, oneLine_guardBlock hd _ _⟩, oneLine_linesBelow content⟩

/-- **A guard is put in** just where all lines end alike: those of the result do. -/
theorem putIn_inserted_iff (hd : '\n' ∉ directive) (h : insertGuard? directive content = some mended) :
    PutIn (closed content) mended ↔ EndsAlike content := by
  have hlines := rawLines_inserted hd h
  constructor
  · rintro ⟨above, block, below, hclosed, hmended⟩ l hl hends
    obtain ⟨r, hr, hfeed, -⟩ := exists_lineEnding content
    obtain ⟨x, hx, rfl | rfl⟩ := exists_of_mem_rawLines hl
    · obtain ⟨y, rfl⟩ := List.isSuffixOf_iff_suffix.mp hends
      simp at hx
    -- what ends a line of the file ends a line of the result, where all do as the file's ending says
    have hkept : x ++ ['\n'] ∈ above ++ below := by
      rw [← hclosed, closed, hr, rawLines_closeWith hfeed]
      exact List.mem_map.mpr ⟨_, hl, closeWith_of_complete (Or.inr ⟨x, rfl⟩) _⟩
    have hsub : above ++ below ⊆ rawLines mended := by
      rw [hmended, List.append_assoc]
      exact List.append_subset.mpr ⟨List.subset_append_left _ _,
        List.Subset.trans (List.subset_append_right block _) (List.subset_append_right above _)⟩
    obtain ⟨y, -, hy⟩ := List.mem_map.mp (hlines ▸ hsub hkept)
    exact List.isSuffixOf_iff_suffix.mpr ⟨y, hy⟩
  · intro halike
    refine ⟨_, _, _, ?_, by rw [hlines, List.map_append, List.map_append]⟩
    rw [rawLines_closed halike, ← lines_eq, List.map_append]

/-- **A line is put at the end** of any file. -/
theorem putIn_appended (h : appendLine? addition content = some mended) : PutIn (closed content) mended := by
  refine ⟨rawLines (closed content), rawLines (endBlock addition content), [], (List.append_nil _).symm, ?_⟩
  rw [(appendLine?_eq_some.mp h).2, (complete_closed content).rawLines_append, List.append_nil]

/-- **What the two insertions leave as it was.** A line at the end of a file is added to its lines. A guard of one
line is added to them just if they are all ended alike; otherwise some of them are ended in another way. -/
theorem insertions_put_in (hd : '\n' ∉ directive) (content addition : Text) :
    (∀ mended, insertGuard? directive content = some mended →
      (PutIn (closed content) mended ↔ EndsAlike content)) ∧
    ∀ mended, appendLine? addition content = some mended → PutIn (closed content) mended :=
  ⟨fun _ => putIn_inserted_iff hd, fun _ => putIn_appended⟩

/-- Where all lines end alike, a guard below a comment is one block, and what stands around it is the file. -/
theorem guard_put_in_below_comment :
    '\n' ∉ "#pragma once".toList ∧
    insertGuard? "#pragma once" "// a\r\nint a;\r\n" =
      some "// a\r\n\r\n#pragma once\r\n\r\nint a;\r\n".toList ∧
    ∃ a b c, "// a\r\nint a;\r\n".toList = a ++ c ∧
      "// a\r\n\r\n#pragma once\r\n\r\nint a;\r\n".toList = a ++ b ++ c := by
  have hd : '\n' ∉ "#pragma once".toList := by decide
  have h : insertGuard? "#pragma once" "// a\r\nint a;\r\n" =
      some "// a\r\n\r\n#pragma once\r\n\r\nint a;\r\n".toList := by decide
  exact ⟨hd, h, (((insertions_put_in hd _ []).1 _ h).mpr (by decide)).exists_block⟩

/-- **Where lines end in two ways**, no block of the result can be taken out to have the file again: the line that
was ended by a line feed alone has a carriage return now. -/
theorem mixed_endings_changed :
    insertGuard? "#pragma once" "int a;\r\nint b;\n" = some "#pragma once\r\n\r\nint a;\r\nint b;\r\n".toList ∧
    closed "int a;\r\nint b;\n" = "int a;\r\nint b;\n" ∧
    ¬∃ a b c, "int a;\r\nint b;\n".toList = a ++ c ∧
      "#pragma once\r\n\r\nint a;\r\nint b;\r\n".toList = a ++ b ++ c := by
  refine ⟨by decide, by decide, ?_⟩
  rintro ⟨a, b, c, hbefore, hafter⟩
  cases a with
  | nil =>
    have hsuffix : "int a;\r\nint b;\n".toList <:+ "#pragma once\r\n\r\nint a;\r\nint b;\r\n".toList :=
      ⟨b, by rw [hafter, hbefore]; rfl⟩
    exact absurd hsuffix (by decide)
  | cons x a =>
    -- the two begin with different characters
    have hfirst := congrArg List.head? hbefore
    rw [List.cons_append, List.head?_cons] at hfirst
    have hsecond := congrArg List.head? hafter
    rw [List.cons_append, List.cons_append, List.head?_cons, ← hfirst] at hsecond
    exact absurd hsecond (by decide)

end Convention

end BuildMender
