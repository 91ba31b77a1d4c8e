import BuildMender.Diagnostic.Extract
import BuildMender.Proofs.Text.EndBlanks

/-!
# The lines of a log

The lines of a log are read without the blanks at their ends and without colour codes. What is left of a
line is made of its characters, so it is still one line, and a line that holds no escape character is not
changed at all.

Two logs that follow one another meet at one line feed. It ends the last line of the first log, or it is an
empty line of its own (`BuildMender.Diagnostic.logLines_append`); whether the first log ends with a
carriage return makes no difference, since that is a blank at the end of a line.
-/

namespace BuildMender.Diagnostic

open Text

variable {l t : Text}

/-! ### Colour codes -/

@[simp] theorem plain_nil : plain [] = [] := by rw [plain]

theorem afterColour?_subset {rest : Text} (h : afterColour? t = some rest) : rest ⊆ t := by
  obtain ⟨u, hu, h⟩ := Option.bind_eq_some_iff.mp h
  rw [← after?_eq_some.mp hu]
  refine List.Subset.trans ?_ (List.subset_append_right "[".toList u)
  refine List.Subset.trans ?_ (List.dropWhile_sublist fun c => isAsciiDigit c || c = ';').subset
  split at h
  · rename_i c r heq
    split at h
    · cases h
      rw [heq]
      exact List.subset_cons_self ..
    · cases h
  · cases h

theorem plain_subset (t : Text) : plain t ⊆ t := by
  fun_induction plain t with
  | case1 => exact List.Subset.refl []
  | case2 cs rest h ih =>
    exact List.Subset.trans (List.Subset.trans ih (afterColour?_subset h)) (List.subset_cons_self ..)
  | case3 cs h ih => exact List.cons_subset_cons _ ih
  | case4 c cs h ih => exact List.cons_subset_cons _ ih

/-- A text without escape characters has no colour codes. -/
theorem plain_of_escapeless (h : '\x1b' ∉ t) : plain t = t := by
  induction t with
  | nil => exact plain_nil
  | cons c cs ih =>
    obtain ⟨hc, hcs⟩ := not_or.mp (mt List.mem_cons.mpr h)
    rw [plain, if_neg (Ne.symm hc), ih hcs]

/-! ### Lines -/

theorem oneLine_of_mem_logLines {log : Text} (h : l ∈ logLines log) : '\n' ∉ l := by
  obtain ⟨line, hline, rfl⟩ := List.mem_map.mp h
  obtain ⟨b, hb, -⟩ := exists_dropEnd isBlank line
  intro hc
  refine oneLine_of_mem_lines hline ?_
  rw [hb]
  exact List.mem_append_left _ (plain_subset _ hc)

/-- **A single line** that ends with no blank and holds no escape character is read as it stands. -/
theorem logLines_of_line (hend : ∃ c ∈ t.getLast?, isBlank c = false) (hline : '\n' ∉ t)
    (hescape : '\x1b' ∉ t) : logLines t = [t] := by
  obtain ⟨c, hc, hblank⟩ := hend
  have hne : t ≠ [] := fun h => by simp [h] at hc
  have htrim : trimEnd t = t := dropEnd_of_getLast? fun d hd => by
    obtain rfl := Option.mem_unique hc hd
    exact hblank
  rw [logLines, lines_of_oneLine hne hline, List.map_singleton, htrim, plain_of_escapeless hescape]

theorem trimEnd_withoutReturn (l : Text) : trimEnd (withoutReturn l) = trimEnd l := by
  rw [withoutReturn]
  cases h : before? "\r" l with
  | none => rfl
  | some start =>
    have hreturn : ∀ c ∈ "\r".toList, isBlank c := List.all_eq_true.mp (by decide)
    rw [append_of_before? h]
    exact (dropEnd_append_of_all hreturn start).symm

theorem trimEnd_withoutEnding (l : Text) : trimEnd (withoutEnding l) = trimEnd l := by
  rw [withoutEnding]
  split
  · rfl
  · rename_i start hstart
    rw [append_of_before? hstart, trimEnd_append_of_allBlank (by decide)]
    exact trimEnd_withoutReturn start

/-- Whether a line is read with its ending or without makes no difference, since the ending is blank. -/
theorem logLines_eq (log : Text) : logLines log = (rawLines log).map fun l => plain (trimEnd l) := by
  rw [logLines, lines, List.map_map]
  exact List.map_congr_left fun l _ => congrArg plain (trimEnd_withoutEnding l)

/-- A log without escape characters has no colour codes to be taken out. -/
theorem logLines_of_escapeless {log : Text} (h : '\x1b' ∉ log) : logLines log = (lines log).map trimEnd :=
  List.map_congr_left fun l hl => plain_of_escapeless fun hc =>
    h (subset_of_mem_lines hl ((trimEnd_isPrefix l).subset hc))

/-- **Where two logs meet** there may be an empty line of its own. -/
theorem logLines_append (a b : Text) : ∃ gap, (∀ l ∈ gap, l = []) ∧
    logLines (a ++ '\n' :: b) = logLines a ++ (gap ++ logLines b) := by
  have hjoin : logLines (a ++ '\n' :: b) = logLines (a ++ ['\n']) ++ logLines b := by
    rw [logLines, lines_append_lineFeed_cons, List.map_append, ← logLines, ← logLines]
  rw [hjoin]
  rcases lines_append_lineFeed a with ⟨start, last, ha, hfeed⟩ | hfeed
  · -- the line feed ends the last line, and a carriage return before it is trimmed away like a blank
    refine ⟨[], by simp, ?_⟩
    rw [logLines, hfeed, logLines.eq_def a, ha, List.map_append, List.map_append, List.map_singleton,
      List.map_singleton, trimEnd_withoutReturn, List.nil_append]
  · -- the line feed is an empty line of its own
    refine ⟨[[]], by simp, ?_⟩
    have hempty : plain (trimEnd []) = [] := plain_nil
    rw [logLines, hfeed, List.map_append, ← logLines, List.append_assoc, List.map_singleton, hempty]

end BuildMender.Diagnostic
