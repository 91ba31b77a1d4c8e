import BuildMender.Proofs.Request.Moved

/-!
# The window of lines around a cursor

A file is sent along as the lines around a cursor, ten on each side as far as there are lines. The cursor comes
from outside and may point anywhere, so it is brought into the file first; what is then counted up and down from
it is counted in words of 32 bits, and the lines are cut out by the numbers that come out.

The whole point is that the words do not run over (`BuildMender.Assembler.toNat_window`): the window is the one
that the same reckoning on natural numbers gives, as long as there is room for ten more lines below the last
one. Where the window begins and ends, which lines it holds and whether it holds all of them is then read off
natural numbers (`BuildMender.Assembler.snippet_in_window`).
-/

namespace BuildMender

open Text

/-- A stretch of a list is the whole list if nothing is left out at either end. -/
theorem drop_take_eq_self_iff {α : Type} {l : List α} {a b : Nat} (hne : l ≠ []) :
    (l.take b).drop a = l ↔ a = 0 ∧ l.length ≤ b := by
  constructor
  · intro h
    have hlength := congrArg List.length h
    have hpos := List.length_pos_of_ne_nil hne
    rw [List.length_drop, List.length_take] at hlength
    omega
  · rintro ⟨rfl, hb⟩
    rw [List.drop_zero, List.take_of_length_le hb]

namespace Assembler

variable {n : Nat} {line : UInt32} {content : Text}

/-! ### Words and numbers -/

/-- The cursor, brought into a file of `n` lines; a file without lines counts as one line here. -/
def cursorLine (n : Nat) (line : UInt32) : Nat := max 1 (min line.toNat (max 1 n))

theorem one_le_cursorLine (n : Nat) (line : UInt32) : 1 ≤ cursorLine n line := le_max_left _ _

theorem cursorLine_le (n : Nat) (line : UInt32) : cursorLine n line ≤ max 1 n := by
  rw [cursorLine]
  omega

theorem cursorLine_zero (line : UInt32) : cursorLine 0 line = 1 := by
  rw [cursorLine]
  omega

/-- The same as a word. -/
def cursorWord (total line : UInt32) : UInt32 :=
  let last := if total = 0 then 1 else total
  if line < 1 then 1 else if last < line then last else line

theorem window_eq (total line : UInt32) : window total line =
    (if cursorWord total line ≤ radius then 1 else cursorWord total line - radius,
      if cursorWord total line + radius ≤ total then cursorWord total line + radius else total) := rfl

theorem toNat_last (total : UInt32) : (if total = 0 then 1 else total).toNat = max 1 total.toNat := by
  split
  · rename_i h
    rw [h]
    rfl
  · rename_i h
    have hne : total.toNat ≠ 0 := fun hzero => h (UInt32.toNat_inj.mp hzero)
    omega

theorem toNat_cursorWord (total line : UInt32) :
    (cursorWord total line).toNat = cursorLine total.toNat line := by
  have hlast := toNat_last total
  have hone : (1 : UInt32).toNat = 1 := rfl
  simp only [cursorWord, cursorLine, UInt32.lt_iff_toNat_lt, hone, hlast]
  split
  · rw [hone]
    omega
  · split
    · rw [hlast]
      omega
    · omega

/-- The number of lines is a word, if there is room for ten more lines below the last one. -/
theorem toNat_count (h : n < UInt32.size - 10) : (UInt32.ofNat n).toNat = n :=
  UInt32.toNat_ofNat_of_lt' (Nat.lt_of_lt_of_le h (Nat.sub_le _ _))

/-- **The words do not run over**, if there is room for ten more lines below the last one. -/
theorem toNat_window (h : n < UInt32.size - 10) (line : UInt32) :
    (cursorWord (UInt32.ofNat n) line + radius).toNat = cursorLine n line + 10 ∧
    (window (UInt32.ofNat n) line).1.toNat = max 1 (cursorLine n line - 10) ∧
    (window (UInt32.ofNat n) line).2.toNat = min (cursorLine n line + 10) n := by
  have hcount := toNat_count h
  have hcursor := toNat_cursorWord (UInt32.ofNat n) line
  rw [hcount] at hcursor
  have hle := cursorLine_le n line
  have hradius : radius.toNat = 10 := rfl
  have hsize : UInt32.size = 4294967296 := rfl
  have hsum : (cursorWord (UInt32.ofNat n) line + radius).toNat = cursorLine n line + 10 := by
    rw [UInt32.toNat_add, hcursor, hradius]
    omega
  refine ⟨hsum, ?_, ?_⟩
  · simp only [window_eq, UInt32.le_iff_toNat_le, hcursor, hradius]
    split
    · have hone : (1 : UInt32).toNat = 1 := rfl
      omega
    · have hroom : radius ≤ cursorWord (UInt32.ofNat n) line := by
        rw [UInt32.le_iff_toNat_le, hcursor, hradius]
        omega
      rw [UInt32.toNat_sub_of_le _ _ hroom, hcursor, hradius]
      omega
  · simp only [window_eq, UInt32.le_iff_toNat_le, hsum, hcount]
    split <;> omega

/-- **The reckoning stays inside its bounds** for a file of `n` lines: their number is a word, so is the sum of
the cursor and the ten lines below it, and the lines that are cut out of a file that has any are there. -/
structure StaysInside (n : Nat) (line : UInt32) : Prop where
  count : (UInt32.ofNat n).toNat = n
  sum : (cursorWord (UInt32.ofNat n) line).toNat + radius.toNat < UInt32.size
  start_pos : 1 ≤ (window (UInt32.ofNat n) line).1.toNat
  slice : n ≠ 0 → (window (UInt32.ofNat n) line).1.toNat - 1 ≤ (window (UInt32.ofNat n) line).2.toNat ∧
    (window (UInt32.ofNat n) line).2.toNat ≤ n

theorem staysInside (h : n < UInt32.size - 10) (line : UInt32) : StaysInside n line := by
  have hcount := toNat_count h
  have hle := cursorLine_le n line
  have hradius : radius.toNat = 10 := rfl
  have hsize : UInt32.size = 4294967296 := rfl
  obtain ⟨-, hstart, hfinish⟩ := toNat_window h line
  refine ⟨hcount, ?_, ?_, fun hn => ?_⟩
  · rw [toNat_cursorWord, hcount, hradius]
    omega
  · omega
  · omega

/-! ### The lines of the window -/

/-- **A piece of a file is the window around a cursor**: with the cursor brought into the file, the piece
holds the lines from its first to its last, which lie around the cursor and at most ten lines away, and less
only where the file begins or ends; and it is marked as a part unless it holds all lines. -/
structure ShowsWindow (content : Text) (line : UInt32) (s : FileContext) : Prop where
  content_eq : s.content = join "\n" (((lines content).take s.endLine.toNat).drop (s.startLine.toNat - 1))
  start_le : s.startLine.toNat ≤ cursorLine (lines content).length line
  le_end : cursorLine (lines content).length line ≤ s.endLine.toNat
  above : cursorLine (lines content).length line ≤ s.startLine.toNat + 10
  below : s.endLine.toNat ≤ cursorLine (lines content).length line + 10
  fewer_above : cursorLine (lines content).length line < s.startLine.toNat + 10 → s.startLine = 1
  fewer_below : s.endLine.toNat < cursorLine (lines content).length line + 10 →
    s.endLine.toNat = max 1 (lines content).length
  one_le_start : 1 ≤ s.startLine.toNat
  end_le : s.endLine.toNat ≤ max 1 (lines content).length
  truncated_eq_false : s.truncated = false ↔
    ((lines content).take s.endLine.toNat).drop (s.startLine.toNat - 1) = lines content
  of_empty : content = [] → s.content = [] ∧ s.startLine = 1 ∧ s.endLine = 1 ∧ s.truncated = false

section Excerpt

variable (h : (lines content).length < UInt32.size - 10) (shown : Text) (kind : SourceFile.Kind) (line : UInt32)

include h

theorem toNat_startLine : (excerpt shown kind line content).startLine.toNat =
    max 1 (cursorLine (lines content).length line - 10) := by
  obtain ⟨-, hstart, -⟩ := toNat_window h line
  exact hstart

theorem toNat_endLine : (excerpt shown kind line content).endLine.toNat =
    min (cursorLine (lines content).length line + 10) (max 1 (lines content).length) := by
  have hpos := one_le_cursorLine (lines content).length line
  have hle := cursorLine_le (lines content).length line
  obtain ⟨-, hstart, hfinish⟩ := toNat_window h line
  simp only [excerpt, UInt32.lt_iff_toNat_lt]
  split <;> omega

/-- What is cut out goes up to the last line that is named. -/
theorem content_excerpt : (excerpt shown kind line content).content = join "\n"
    (((lines content).take (excerpt shown kind line content).endLine.toNat).drop
      ((excerpt shown kind line content).startLine.toNat - 1)) := by
  obtain ⟨-, -, hfinish⟩ := toNat_window h line
  have htake : (lines content).take (window (UInt32.ofNat (lines content).length) line).2.toNat =
      (lines content).take (excerpt shown kind line content).endLine.toNat := by
    rw [List.take_eq_take_iff, toNat_endLine h, hfinish]
    omega
  rw [← htake]
  rfl

theorem truncated_excerpt : (excerpt shown kind line content).truncated = false ↔
    (excerpt shown kind line content).startLine.toNat = 1 ∧
      (lines content).length ≤ (excerpt shown kind line content).endLine.toNat := by
  have hcount := toNat_count h
  have hone : (1 : UInt32).toNat = 1 := rfl
  obtain ⟨-, hstart, hfinish⟩ := toNat_window h line
  rw [toNat_startLine h, toNat_endLine h]
  simp only [excerpt, Bool.or_eq_false_iff, decide_eq_false_iff_not, UInt32.lt_iff_toNat_lt, hone, hcount,
    hstart, hfinish]
  omega

theorem showsWindow_excerpt : ShowsWindow content line (excerpt shown kind line content) := by
  have hpos := one_le_cursorLine (lines content).length line
  have hle := cursorLine_le (lines content).length line
  have hstart := toNat_startLine h shown kind line
  have hend := toNat_endLine h shown kind line
  have htruncated := truncated_excerpt h shown kind line
  constructor
  case content_eq => exact content_excerpt h shown kind line
  case fewer_above =>
    intro hfewer
    exact UInt32.toNat_inj.mp (by rw [hstart, UInt32.toNat_one]; omega)
  case truncated_eq_false =>
    by_cases hnil : lines content = []
    · rw [htruncated, hstart, hend, hnil, List.take_nil, List.drop_nil, List.length_nil, cursorLine_zero]
      decide
    · rw [htruncated, drop_take_eq_self_iff hnil]
      omega
  case of_empty =>
    rintro rfl
    have hnil : lines [] = [] := rfl
    rw [hnil, List.length_nil, cursorLine_zero] at hstart hend
    refine ⟨?_, UInt32.toNat_inj.mp hstart, UInt32.toNat_inj.mp hend, htruncated.mpr ⟨hstart, Nat.zero_le _⟩⟩
    rw [content_excerpt h, hnil, List.take_nil, List.drop_nil]
    rfl
  all_goals omega

end Excerpt

/-- **The lines around a cursor.** Of a file that can be read, and that leaves room for ten more line numbers,
the lines around any cursor are sent along: nothing runs over or is cut out where there is nothing, and the
piece is the window around the cursor. -/
theorem snippet_in_window {a : Assembler} {p : Path} (hread : a.files.read p = .ok content)
    (h : (lines content).length < UInt32.size - 10) (line : UInt32) :
    StaysInside (lines content).length line ∧ ∃ s, a.snippet? p line = some s ∧ ShowsWindow content line s := by
  have hsnippet : a.snippet? p line =
      some (excerpt (a.shown p) (SourceFile.kind a.project.conventions.interfaceDir p) line content) := by
    rw [snippet?_eq, hread]
    rfl
  exact ⟨staysInside h line, _, hsnippet, showsWindow_excerpt h _ _ line⟩

/-- A file of thirteen lines, each with its number. -/
def thirteenLines : Text := unlines ((List.range 13).map fun i => decimal (i + 1))

/-- A project with that file. -/
def ofThirteenLines : Assembler :=
  { ofOneFile "/p" with files := (MemoryFiles.plant "/p" [(("a.cpp" : Path), some thirteenLines)]).view }

/-- Far below the end of the file the cursor is brought to the last line, and the last eleven lines are
shown. -/
theorem snippet_in_window_far_below :
    ofThirteenLines.files.read "/p/a.cpp" = .ok thirteenLines ∧ (lines thirteenLines).length < UInt32.size - 10 ∧
    StaysInside (lines thirteenLines).length 4294967295 ∧
    ∃ s, ofThirteenLines.snippet? "/p/a.cpp" 4294967295 = some s ∧ ShowsWindow thirteenLines 4294967295 s ∧
      s.content = "3\n4\n5\n6\n7\n8\n9\n10\n11\n12\n13".toList ∧ s.startLine = 3 ∧ s.endLine = 13 ∧
      s.truncated = true := by
  have hread : ofThirteenLines.files.read "/p/a.cpp" = .ok thirteenLines := by decide
  have hlength : (lines thirteenLines).length < UInt32.size - 10 := by decide
  obtain ⟨hinside, s, hs, hshows⟩ := snippet_in_window hread hlength 4294967295
  have hsnippet : ofThirteenLines.snippet? "/p/a.cpp" 4294967295 =
      some ⟨"a.cpp", .implementation, "3\n4\n5\n6\n7\n8\n9\n10\n11\n12\n13", 3, 13, true⟩ := by
    decide
  obtain rfl := Option.some.inj (hs.symm.trans hsnippet)
  exact ⟨hread, hlength, hinside, _, hs, hshows, rfl, rfl, rfl, rfl⟩

end Assembler

end BuildMender
