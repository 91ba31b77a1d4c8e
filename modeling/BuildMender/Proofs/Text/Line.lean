import BuildMender.Text.Class
import BuildMender.Text.Line
import Mathlib.Data.List.Basic
import Mathlib.Data.List.TakeWhile

/-!
# Texts that are written line by line

Lines that are written one below another are read back one by one
(`BuildMender.Text.lines_unlines`), except that a carriage return at the end of a line is taken for part
of its ending. Whether the last line has a line feed makes no difference to the lines, unless it is empty
(`BuildMender.Text.lines_append_lineFeed`).

What readers of lines do next is to trim them, and then the carriage return makes no difference either
(`BuildMender.Text.trim_dropEnd`).
-/

namespace BuildMender.Text

variable {p : Char → Bool} {l t b : Text} {ls : List Text}

/-! ### What a text begins and ends with -/

@[simp] theorem after?_append (pat t : Text) : after? pat (pat ++ t) = some t :=
  List.isPrefixOf?_eq_some_iff_append_eq.mpr rfl

theorem after?_eq_some {pat rest : Text} : after? pat t = some rest ↔ pat ++ rest = t :=
  List.isPrefixOf?_eq_some_iff_append_eq

theorem after?_eq_none {pat : Text} : after? pat t = none ↔ ¬pat <+: t := by
  rw [Option.eq_none_iff_forall_ne_some]
  exact ⟨fun h hp => hp.elim fun rest hrest => h rest (after?_eq_some.mpr hrest),
    fun h rest hrest => h ⟨rest, after?_eq_some.mp hrest⟩⟩

theorem after?_cons_of_ne {pat : Text} {c d : Char} (hpat : pat.head? = some d) (h : c ≠ d) (t : Text) :
    after? pat (c :: t) = none := by
  refine after?_eq_none.mpr ?_
  rintro ⟨rest, hrest⟩
  cases pat with
  | nil => cases hpat
  | cons d' pat =>
    obtain rfl := Option.some.inj hpat
    exact h (List.cons.inj hrest).1.symm

theorem after?_cons_self (c : Char) (pat t : Text) : after? (c :: pat) (c :: t) = after? pat t := by
  simp [after?, List.isPrefixOf?]

@[simp] theorem before?_append (pat t : Text) : before? pat (t ++ pat) = some t := by
  rw [before?, List.reverse_append, List.isPrefixOf?_eq_some_iff_append_eq.mpr rfl, Option.map_some,
    List.reverse_reverse]

theorem append_of_before? {pat start : Text} (h : before? pat t = some start) : t = start ++ pat := by
  obtain ⟨r, hr, rfl⟩ := Option.map_eq_some_iff.mp h
  rw [← List.reverse_reverse t, ← List.isPrefixOf?_eq_some_iff_append_eq.mp hr, List.reverse_append,
    List.reverse_reverse]

/-! ### Trimming -/

theorem dropEnd_append_of_all (h : ∀ c ∈ b, p c) (t : Text) : dropEnd p (t ++ b) = dropEnd p t := by
  rw [dropEnd, dropEnd, List.reverse_append, List.dropWhile_append,
    List.dropWhile_eq_nil_iff.mpr fun c hc => h c (List.mem_reverse.mp hc)]
  rfl

theorem dropEnd_of_getLast? (h : ∀ c ∈ t.getLast?, p c = false) : dropEnd p t = t := by
  have hidle : dropStart p t.reverse = t.reverse :=
    dropStart_of_head? fun c hc => h c (by rwa [List.head?_reverse] at hc)
  rw [dropEnd, ← dropStart, hidle, List.reverse_reverse]

/-- What is dropped at the end of a text satisfies the predicate. -/
theorem exists_dropEnd (p : Char → Bool) (t : Text) : ∃ b, t = dropEnd p t ++ b ∧ ∀ c ∈ b, p c := by
  refine ⟨(t.reverse.takeWhile p).reverse, ?_, fun c hc => ?_⟩
  · rw [dropEnd, ← List.reverse_append, List.takeWhile_append_dropWhile, List.reverse_reverse]
  · exact List.mem_takeWhile_imp (List.mem_reverse.mp hc)

theorem trim_of_ends (hstart : ∀ c ∈ t.head?, isBlank c = false)
    (hend : ∀ c ∈ t.getLast?, isBlank c = false) : trim t = t := by
  rw [trim, trimStart, dropStart_of_head? hstart, trimEnd, dropEnd_of_getLast? hend]

theorem trimStart_suffix (t : Text) : trimStart t <:+ t := List.dropWhile_suffix _

theorem trim_subset (t : Text) : trim t ⊆ t := by
  obtain ⟨b, hb, -⟩ := exists_dropEnd isBlank (trimStart t)
  refine List.Subset.trans ?_ (trimStart_suffix t).subset
  rw [hb]
  exact List.subset_append_left ..

theorem allBlank_append (a b : Text) : allBlank (a ++ b) = (allBlank a && allBlank b) := List.all_append

/-- What is trimmed away are blanks. -/
theorem exists_trim (t : Text) :
    ∃ a b, t = a ++ (trim t ++ b) ∧ (∀ c ∈ a, isBlank c) ∧ ∀ c ∈ b, isBlank c := by
  obtain ⟨b, hb, hblank⟩ := exists_dropEnd isBlank (trimStart t)
  refine ⟨t.takeWhile isBlank, b, ?_, fun c hc => List.mem_takeWhile_imp hc, hblank⟩
  rw [trim, trimEnd, ← hb]
  exact List.takeWhile_append_dropWhile.symm

/-- Nothing but blanks is trimmed away. -/
theorem allBlank_trim (t : Text) : allBlank (trim t) = allBlank t := by
  obtain ⟨a, b, ht, ha, hb⟩ := exists_trim t
  have hfront : allBlank a = true := List.all_eq_true.mpr ha
  have hend : allBlank b = true := List.all_eq_true.mpr hb
  calc allBlank (trim t)
      = (allBlank a && (allBlank (trim t) && allBlank b)) := by
        rw [hfront, hend, Bool.true_and, Bool.and_true]
    _ = allBlank t := by rw [← allBlank_append, ← allBlank_append, ← ht]

theorem isEmpty_trim (t : Text) : (trim t).isEmpty = allBlank t := by
  cases hblank : allBlank t with
  | true =>
    have hstart : trimStart t = [] := List.dropWhile_eq_nil_iff.mpr (List.all_eq_true.mp hblank)
    rw [trim, hstart]
    rfl
  | false =>
    rw [← allBlank_trim] at hblank
    rw [List.isEmpty_eq_false_iff]
    intro hempty
    rw [hempty] at hblank
    cases hblank

theorem allBlank_eq_false {t : Text} : allBlank t = false ↔ ∃ c ∈ t, isBlank c = false := by
  simp [allBlank]

/-- Blanks at the end of a text are trimmed away. -/
theorem trim_append_of_blank (hb : ∀ c ∈ b, isBlank c) (t : Text) : trim (t ++ b) = trim t := by
  rw [trim, trim, trimStart, trimStart, dropStart, dropStart, List.dropWhile_append]
  split
  · rename_i hall
    rw [List.isEmpty_iff.mp hall, List.dropWhile_eq_nil_iff.mpr hb]
  · exact dropEnd_append_of_all hb _

/-- A text is trimmed alike when some of the blanks at its end are dropped first. -/
theorem trim_dropEnd (hp : ∀ c, p c → isBlank c) (t : Text) : trim (dropEnd p t) = trim t := by
  obtain ⟨b, ht, hb⟩ := exists_dropEnd p t
  rw [← trim_append_of_blank (fun c hc => hp c (hb c hc)) (dropEnd p t), ← ht]

/-! ### Lines -/

theorem unlines_append (above below : List Text) :
    unlines (above ++ below) = unlines above ++ unlines below := by
  rw [unlines, unlines, unlines, List.map_append, List.flatten_append]

theorem rawLines_append_cons (h : '\n' ∉ l) (t : Text) :
    rawLines (l ++ '\n' :: t) = (l ++ ['\n']) :: rawLines t := by
  induction l with
  | nil => rfl
  | cons c cs ih =>
    obtain ⟨hc, hcs⟩ := not_or.mp (mt List.mem_cons.mpr h)
    rw [List.cons_append, rawLines, if_neg (Ne.symm hc), ih hcs]
    rfl

/-- A line without the carriage return that may stand at its end. -/
def withoutReturn (line : Text) : Text := (before? "\r" line).getD line

/-- A line without all the carriage returns at its end. -/
def withoutReturns (line : Text) : Text := dropEnd (· = '\r') line

theorem withoutReturns_withoutReturn (l : Text) : withoutReturns (withoutReturn l) = withoutReturns l := by
  rw [withoutReturn]
  cases h : before? "\r" l with
  | none => rfl
  | some start =>
    rw [append_of_before? h]
    exact (dropEnd_append_of_all (by simp) start).symm

theorem trim_withoutReturns (l : Text) : trim (withoutReturns l) = trim l :=
  trim_dropEnd (fun _ hc => by rw [of_decide_eq_true hc]; rfl) l

theorem withoutReturns_of_getLast? (h : l.getLast? ≠ some '\r') : withoutReturns l = l :=
  dropEnd_of_getLast? fun _ hc => decide_eq_false fun hr => h (hr ▸ hc)

/-- Lines that end with no carriage return stay as they are. -/
theorem map_withoutReturns (h : ∀ l ∈ ls, l.getLast? ≠ some '\r') : ls.map withoutReturns = ls :=
  (List.map_congr_left fun l hl => withoutReturns_of_getLast? (h l hl)).trans (List.map_id _)

theorem oneLine_withoutReturns (h : '\n' ∉ l) : '\n' ∉ withoutReturns l := by
  obtain ⟨b, hb, -⟩ := exists_dropEnd (· = '\r') l
  intro hc
  rw [hb] at h
  exact h (List.mem_append_left _ hc)

theorem withoutEnding_append (l : Text) : withoutEnding (l ++ ['\n']) = withoutReturn l := by
  have h : before? "\n" (l ++ ['\n']) = some l := before?_append _ _
  rw [withoutEnding, h]
  rfl

theorem withoutEnding_of_not_mem (h : '\n' ∉ l) : withoutEnding l = l := by
  rw [withoutEnding]
  split
  · rfl
  · rename_i start hstart
    exact absurd (append_of_before? hstart ▸ by simp) h

/-- A line is ended by the only line feed in it, if there is one. -/
theorem exists_of_mem_rawLines (h : l ∈ rawLines t) : ∃ x, '\n' ∉ x ∧ (l = x ∨ l = x ++ ['\n']) := by
  induction t generalizing l with
  | nil => cases h
  | cons c cs ih =>
    rw [rawLines] at h
    split at h
    · rcases List.mem_cons.mp h with rfl | h
      · exact ⟨[], List.not_mem_nil, Or.inr rfl⟩
      · exact ih h
    · rename_i hc
      split at h
      · obtain rfl := List.mem_singleton.mp h
        exact ⟨[c], by simpa using Ne.symm hc, Or.inl rfl⟩
      · rename_i first more heq
        rcases List.mem_cons.mp h with rfl | h
        · -- the first line goes on with the one that is first below
          obtain ⟨x, hx, hfirst⟩ := ih (heq ▸ List.mem_cons_self)
          refine ⟨c :: x, by simp [hx, Ne.symm hc], ?_⟩
          rcases hfirst with rfl | rfl
          · exact Or.inl rfl
          · exact Or.inr rfl
        · exact ih (heq ▸ List.mem_cons_of_mem first h)

theorem withoutReturn_subset (l : Text) : withoutReturn l ⊆ l := by
  rw [withoutReturn]
  cases h : before? "\r" l with
  | none => exact List.Subset.refl l
  | some start =>
    rw [append_of_before? h]
    exact List.subset_append_left start _

theorem withoutEnding_subset (l : Text) : withoutEnding l ⊆ l := by
  rw [withoutEnding]
  split
  · exact List.Subset.refl l
  · rename_i start hstart
    rw [append_of_before? hstart]
    exact List.Subset.trans (withoutReturn_subset start) (List.subset_append_left start _)

/-- A line is part of the text. -/
theorem subset_of_mem_lines (h : l ∈ lines t) : l ⊆ t := by
  obtain ⟨line, hline, rfl⟩ := List.mem_map.mp h
  refine List.Subset.trans (withoutEnding_subset line) fun c hc => ?_
  rw [← flatten_rawLines t]
  exact List.mem_flatten_of_mem hline hc

/-- No line holds a line feed. -/
theorem oneLine_of_mem_lines (h : l ∈ lines t) : '\n' ∉ l := by
  obtain ⟨line, hline, rfl⟩ := List.mem_map.mp h
  obtain ⟨x, hx, rfl | rfl⟩ := exists_of_mem_rawLines hline
  · rwa [withoutEnding_of_not_mem hx]
  · rw [withoutEnding_append]
    exact fun hc => hx (withoutReturn_subset x hc)

theorem rawLines_of_oneLine (hne : t ≠ []) (h : '\n' ∉ t) : rawLines t = [t] := by
  induction t with
  | nil => exact absurd rfl hne
  | cons c cs ih =>
    obtain ⟨hc, hcs⟩ := not_or.mp (mt List.mem_cons.mpr h)
    rw [rawLines, if_neg (Ne.symm hc)]
    by_cases hnil : cs = []
    · rw [hnil]
      rfl
    · rw [ih hnil hcs]

/-- A text without line feeds is one line, if it is not empty. -/
theorem lines_of_oneLine (hne : t ≠ []) (h : '\n' ∉ t) : lines t = [t] := by
  rw [lines, rawLines_of_oneLine hne h, List.map_singleton, withoutEnding_of_not_mem h]

/-- **Induction along the lines**: a text is one line, or one with a line feed and a text below. -/
@[elab_as_elim]
theorem induction_lines {motive : Text → Prop} (last : ∀ l, '\n' ∉ l → motive l)
    (line : ∀ l t, '\n' ∉ l → motive t → motive (l ++ '\n' :: t)) (t : Text) : motive t := by
  -- the line that has been begun is carried along
  suffices h : ∀ t l : Text, '\n' ∉ l → motive (l ++ t) from h t [] List.not_mem_nil
  intro t
  induction t with
  | nil =>
    intro l hl
    rw [List.append_nil]
    exact last l hl
  | cons c cs ih =>
    intro l hl
    by_cases hc : c = '\n'
    · rw [hc]
      exact line l cs hl (ih [] List.not_mem_nil)
    · rw [List.append_cons]
      exact ih (l ++ [c]) (by simp [hl, Ne.symm hc])

/-- **Lines written one below another** are read back, but for a carriage return at their ends. -/
theorem lines_unlines (h : ∀ l ∈ ls, '\n' ∉ l) : lines (unlines ls) = ls.map withoutReturn := by
  induction ls with
  | nil => rfl
  | cons l more ih =>
    obtain ⟨hl, hmore⟩ := List.forall_mem_cons.mp h
    have hcons : unlines (l :: more) = l ++ '\n' :: unlines more := by simp [unlines]
    rw [hcons, lines, rawLines_append_cons hl, List.map_cons, withoutEnding_append, ← lines, ih hmore]
    rfl

theorem rawLines_append_lineFeed (t : Text) :
    (∃ start last, '\n' ∉ last ∧ rawLines t = start ++ [last] ∧
      rawLines (t ++ ['\n']) = start ++ [last ++ ['\n']]) ∨
    rawLines (t ++ ['\n']) = rawLines t ++ [['\n']] := by
  induction t with
  | nil => exact Or.inr rfl
  | cons c cs ih =>
    rw [List.cons_append, rawLines, rawLines]
    by_cases hc : c = '\n'
    · -- the first line ends here, and the last one is among the others
      rw [if_pos hc, if_pos hc]
      rcases ih with ⟨start, last, hlast, ht, hfeed⟩ | hfeed
      · rw [ht, hfeed]
        exact Or.inl ⟨['\n'] :: start, last, hlast, rfl, rfl⟩
      · rw [hfeed]
        exact Or.inr rfl
    · -- the first line goes on, and it may be the last one
      rw [if_neg hc, if_neg hc]
      rcases ih with ⟨start, last, hlast, ht, hfeed⟩ | hfeed
      · rw [ht, hfeed]
        cases start with
        | nil => exact Or.inl ⟨[], c :: last, by simp [Ne.symm hc, hlast], rfl, rfl⟩
        | cons first start => exact Or.inl ⟨(c :: first) :: start, last, hlast, rfl, rfl⟩
      · rw [hfeed]
        cases rawLines cs with
        | nil => exact Or.inl ⟨[], [c], by simp [Ne.symm hc], rfl, rfl⟩
        | cons first more => exact Or.inr rfl

/-- Below a line feed the lines are those of what stands there. -/
theorem rawLines_append_lineFeed_cons (t b : Text) :
    rawLines (t ++ '\n' :: b) = rawLines (t ++ ['\n']) ++ rawLines b := by
  induction t with
  | nil => rfl
  | cons c cs ih =>
    rw [List.cons_append, List.cons_append, rawLines, rawLines, ih]
    split
    · rfl
    · cases h : rawLines (cs ++ ['\n']) with
      | nil => simpa [h] using flatten_rawLines (cs ++ ['\n'])
      | cons first more => rfl

theorem lines_append_lineFeed_cons (t b : Text) :
    lines (t ++ '\n' :: b) = lines (t ++ ['\n']) ++ lines b := by
  rw [lines, rawLines_append_lineFeed_cons, List.map_append, ← lines, ← lines]

/-- **A line feed at the end of a text** ends its last line, or makes an empty one. -/
theorem lines_append_lineFeed (t : Text) :
    (∃ start last, lines t = start ++ [last] ∧ lines (t ++ ['\n']) = start ++ [withoutReturn last]) ∨
      lines (t ++ ['\n']) = lines t ++ [[]] := by
  rcases rawLines_append_lineFeed t with ⟨start, last, hlast, ht, hfeed⟩ | hfeed
  · refine Or.inl ⟨start.map withoutEnding, last, ?_, ?_⟩
    · rw [lines, ht, List.map_append, List.map_singleton, withoutEnding_of_not_mem hlast]
    · rw [lines, hfeed, List.map_append, List.map_singleton, withoutEnding_append]
  · exact Or.inr (by rw [lines, hfeed, List.map_append]; rfl)

theorem mem_join {sep : Text} {c : Char} (h : c ∈ join sep ls) : c ∈ sep ∨ ∃ l ∈ ls, c ∈ l := by
  induction ls using join.induct with
  | case1 => cases h
  | case2 l => exact Or.inr ⟨l, List.mem_singleton_self l, h⟩
  | case3 l more hne ih =>
    rw [join_cons sep l (by simpa using hne), List.mem_append, List.mem_append] at h
    rcases h with (h | h) | h
    · exact Or.inr ⟨l, List.mem_cons_self, h⟩
    · exact Or.inl h
    · exact (ih h).imp_right fun ⟨l', hl', hc⟩ => ⟨l', List.mem_cons_of_mem l hl', hc⟩

theorem head_subset_join (sep l : Text) (ls : List Text) : l ⊆ join sep (l :: ls) := by
  cases ls with
  | nil => exact List.Subset.refl l
  | cons l' more =>
    rw [join_cons sep l (List.cons_ne_nil l' more), List.append_assoc]
    exact List.subset_append_left l _

/-- The join of two runs of lines is at least as long as both joins together. -/
theorem length_join_append (sep : Text) (ps qs : List Text) :
    (join sep ps).length + (join sep qs).length ≤ (join sep (ps ++ qs)).length := by
  by_cases hp : ps = []
  · simp [hp, join]
  by_cases hq : qs = []
  · simp [hq, join]
  rw [join_append sep hp hq, List.length_append, List.length_append]
  omega

end BuildMender.Text
