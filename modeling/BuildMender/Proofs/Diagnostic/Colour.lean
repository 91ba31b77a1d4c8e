import BuildMender.Proofs.Diagnostic.LineEnd.Count

/-!
# Logs with colour codes

Each line of a log is trimmed first, and the colour codes are taken out then. So a code at the end of a line
keeps the blanks in front of it, and what is read is the line without codes but with these blanks. For the log
as a whole the codes make a difference exactly if the blanks that they keep count
(`BuildMender.Diagnostic.extract_coloured_iff`).
-/

namespace BuildMender.Diagnostic

open Text

variable {t u s log coloured : Text} {c : Char}

/-! ### Texts with colour codes -/

/-- A complete colour code: the escape character, a bracket, digits and semicolons, and a letter. -/
def IsColourCode (s : Text) : Prop := ∃ arguments letter, s = '\x1b' :: '[' :: (arguments ++ [letter]) ∧
  (∀ c ∈ arguments, isAsciiDigit c ∨ c = ';') ∧ isAsciiLetter letter

namespace IsColourCode

theorem of_all (arguments : Text) (letter : Char)
    (h : arguments.all fun c => isAsciiDigit c || decide (c = ';')) (hletter : isAsciiLetter letter) :
    IsColourCode ('\x1b' :: '[' :: (arguments ++ [letter])) :=
  ⟨arguments, letter, rfl, fun c hc => by simpa using List.all_eq_true.mp h c hc, hletter⟩

theorem ne_nil (hs : IsColourCode s) : s ≠ [] := by
  obtain ⟨arguments, letter, rfl, -⟩ := hs
  exact List.cons_ne_nil _ _

theorem oneLine (hs : IsColourCode s) : '\n' ∉ s := by
  obtain ⟨arguments, letter, rfl, harguments, hletter⟩ := hs
  have hargument : '\n' ∉ arguments := fun hc => absurd (harguments _ hc) (by decide)
  have hend : '\n' ≠ letter := by
    rintro rfl
    cases hletter
  simp [hargument, hend]

end IsColourCode

/-- **A text with colour codes put in**, in any places and any number; the text itself has no escape
characters. -/
inductive Coloured : Text → Text → Prop where
  | nil : Coloured [] []
  | char {c : Char} {t u : Text} (hc : c ≠ '\x1b') (h : Coloured t u) : Coloured (c :: t) (c :: u)
  | code {s t u : Text} (hs : IsColourCode s) (h : Coloured t u) : Coloured t (s ++ u)

/-- A colour code is taken out. -/
theorem plain_code (hs : IsColourCode s) (t : Text) : plain (s ++ t) = plain t := by
  obtain ⟨arguments, letter, rfl, harguments, hletter⟩ := hs
  have hargument : ∀ c ∈ arguments, isAsciiDigit c || decide (c = ';') := fun c hc => by
    simpa using harguments c hc
  have hdrop : (arguments ++ letter :: t).dropWhile (fun c => isAsciiDigit c || decide (c = ';')) = letter :: t := by
    rw [List.dropWhile_append_of_pos hargument]
    have hsemicolon : letter ≠ ';' := by
      rintro rfl
      cases hletter
    exact List.dropWhile_cons_of_neg (by simp [not_isAsciiDigit_of_isAsciiLetter hletter, hsemicolon])
  have hafter : afterColour? ('[' :: (arguments ++ letter :: t)) = some t := by
    have hopen : after? "[" ('[' :: (arguments ++ letter :: t)) = some (arguments ++ letter :: t) :=
      after?_append "[" _
    rw [afterColour?, hopen, Option.bind_some, hdrop]
    exact if_pos hletter
  have htext : '\x1b' :: '[' :: (arguments ++ [letter]) ++ t = '\x1b' :: '[' :: (arguments ++ letter :: t) := by
    simp
  rw [htext, plain, if_pos rfl]
  split
  · rename_i rest hrest
    rw [hafter] at hrest
    rw [Option.some.inj hrest]
  · rename_i hnone
    rw [hafter] at hnone
    cases hnone

theorem plain_cons (hc : c ≠ '\x1b') (t : Text) : plain (c :: t) = c :: plain t := by
  rw [plain, if_neg hc]

namespace Coloured

theorem subset (h : Coloured t u) : t ⊆ u := by
  induction h with
  | nil => exact List.Subset.refl []
  | char hc h ih => exact List.cons_subset_cons _ ih
  | code hs h ih => exact List.Subset.trans ih (List.subset_append_right _ _)

theorem escapeless (h : Coloured t u) : '\x1b' ∉ t := by
  induction h with
  | nil => exact List.not_mem_nil
  | char hc h ih => exact fun hmem => (List.mem_cons.mp hmem).elim (fun heq => hc heq.symm) ih
  | code hs h ih => exact ih

/-- Codes are put in behind a run of characters. -/
theorem append (hs : '\x1b' ∉ s) (h : Coloured t u) : Coloured (s ++ t) (s ++ u) := by
  induction s with
  | nil => exact h
  | cons c s ih =>
    obtain ⟨hc, hs⟩ := not_or.mp (mt List.mem_cons.mpr hs)
    exact .char (Ne.symm hc) (ih hs)

/-- **A line with its colour codes taken out** is the line without them, but for blanks at its end: those in
front of a code at the end are not dropped before. -/
theorem trimEnd_plain (h : Coloured t u) : trimEnd (plain (trimEnd u)) = trimEnd t := by
  induction h with
  | nil => rw [trimEnd_nil, plain_nil, trimEnd_nil]
  | @char c t u hc h ih =>
    cases hblank : allBlank (c :: u) with
    | true =>
      have hblank' : allBlank (c :: t) := allBlank_of_subset (List.cons_subset_cons c h.subset) hblank
      rw [trimEnd_eq_nil.mpr hblank, trimEnd_eq_nil.mpr hblank', plain_nil]
      rfl
    | false =>
      have hsame : allBlank (c :: plain (trimEnd u)) = allBlank (c :: t) := by
        rw [allBlank_cons, allBlank_cons, ← allBlank_trimEnd, ih, allBlank_trimEnd]
      rw [trimEnd_cons c u, hblank, if_neg Bool.false_ne_true, plain_cons hc, trimEnd_cons, trimEnd_cons, hsame, ih]
  | @code s t u hs h ih =>
    have hlast : ∀ c ∈ s.getLast?, isBlank c = false := by
      obtain ⟨arguments, letter, rfl, -, hletter⟩ := hs
      have hs : '\x1b' :: '[' :: (arguments ++ [letter]) = ('\x1b' :: '[' :: arguments) ++ [letter] := rfl
      rw [hs, List.getLast?_concat]
      rintro c hc
      obtain rfl := Option.some.inj hc
      exact not_isBlank_of_isAsciiLetter hletter
    rw [trimEnd_append hlast, plain_code hs, ih]

/-! ### Lines -/

theorem rawLines_append (hs : '\n' ∉ s) (hne : s ≠ []) (u : Text) : rawLines (s ++ u) =
    match rawLines u with
    | [] => [s]
    | line :: more => (s ++ line) :: more := by
  induction s with
  | nil => exact absurd rfl hne
  | cons c s ih =>
    obtain ⟨hc, hs⟩ := not_or.mp (mt List.mem_cons.mpr hs)
    rw [List.cons_append, rawLines, if_neg (Ne.symm hc)]
    by_cases hnil : s = []
    · rw [hnil, List.nil_append]
      cases rawLines u <;> rfl
    · rw [ih hs hnil]
      cases rawLines u <;> rfl

/-- **The lines of a text with colour codes** are its lines with colour codes; codes behind the last line feed
make one more line, which is empty without them. -/
theorem rawLines (h : Coloured t u) : ∃ extra, (∀ l ∈ extra, l = []) ∧
    List.Forall₂ Coloured (Text.rawLines t ++ extra) (Text.rawLines u) := by
  induction h with
  | nil => exact ⟨[], by simp, .nil⟩
  | @char c t u hc h ih =>
    obtain ⟨extra, hextra, hlines⟩ := ih
    rw [Text.rawLines, Text.rawLines]
    split
    · exact ⟨extra, hextra, .cons (.char (by decide) .nil) hlines⟩
    · generalize Text.rawLines t = ls at hlines
      generalize Text.rawLines u = us at hlines
      cases ls with
      | nil =>
        -- the first line is the last one, and what follows it are codes
        cases hlines with
        | nil => exact ⟨[], by simp, .cons (.char hc .nil) .nil⟩
        | @cons l line more lines hline hmore =>
          obtain rfl := hextra _ List.mem_cons_self
          exact ⟨more, fun l hl => hextra l (List.mem_cons_of_mem _ hl), .cons (.char hc hline) hmore⟩
      | cons line more =>
        cases hlines with
        | cons hline hmore => exact ⟨extra, hextra, .cons (.char hc hline) hmore⟩
  | @code s t u hs h ih =>
    obtain ⟨extra, hextra, hlines⟩ := ih
    rw [rawLines_append hs.oneLine hs.ne_nil]
    generalize hall : Text.rawLines t ++ extra = all at hlines
    generalize Text.rawLines u = us at hlines
    cases hlines with
    | nil =>
      obtain ⟨hnone, -⟩ := List.append_eq_nil_iff.mp hall
      have hend := code hs nil
      rw [List.append_nil] at hend
      refine ⟨[[]], by simp, ?_⟩
      rw [hnone]
      exact .cons hend .nil
    | cons hline hmore => exact ⟨extra, hextra, hall ▸ .cons (.code hs hline) hmore⟩

end Coloured

/-! ### Logs -/

/-- **The lines of a log with colour codes**, without the blanks at their ends, are those of the log without
codes; an empty line may follow. -/
theorem Coloured.logLines (h : Coloured log coloured) : ∃ extra, (∀ l ∈ extra, l = []) ∧
    (logLines coloured).map trimEnd = Diagnostic.logLines log ++ extra := by
  obtain ⟨extra, hextra, hlines⟩ := h.rawLines
  have hplain {ls us : List Text} (hlines : List.Forall₂ Coloured ls us) :
      (us.map fun l => plain (trimEnd l)).map trimEnd = ls.map trimEnd := by
    induction hlines with
    | nil => rfl
    | cons hline hmore ih => exact congr_arg₂ List.cons hline.trimEnd_plain ih
  have hlog : Diagnostic.logLines log = (Text.rawLines log).map trimEnd := by
    rw [logLines_of_escapeless h.escapeless, lines, List.map_map]
    exact List.map_congr_left fun l _ => trimEnd_withoutEnding l
  have hempty : extra.map trimEnd = extra :=
    (List.map_congr_left fun l hl => by rw [hextra l hl, trimEnd_nil, id]).trans (List.map_id extra)
  refine ⟨extra, hextra, ?_⟩
  rw [logLines_eq, hplain hlines, List.map_append, hempty, hlog]

/-- **Colour codes make no difference** to what is found in a log, except where they keep blanks at the end of a
line that count. -/
theorem extract_coloured_iff (h : Coloured log coloured) :
    (extract coloured).map withoutRaw = (extract log).map withoutRaw ↔ ∀ l ∈ logLines coloured, ¬BlanksCount l := by
  obtain ⟨extra, hextra, hlines⟩ := h.logLines
  have hafresh : StartAfresh extra := by
    have hnone : StartAfresh [] := fun _ hl => nomatch hl
    have hbelow := StartAfresh.append hextra hnone
    rwa [List.append_nil] at hbelow
  have hsame : ofLines ((logLines coloured).map trimEnd) = ofLines (logLines log) := by
    rw [hlines, ofLines_append hafresh, ofLines_of_empty hextra, List.append_nil]
  rw [extract, extract, ← hsame]
  exact map_mergeSort_trimEnd_iff

/-- Codes in front of a line, in it, behind the blanks at its end, and behind the last line feed. -/
theorem extract_coloured_of_gcc : ∃ log coloured : Text, Coloured log coloured ∧
    log = "a.cpp:1:2: error: x \n".toList ∧
    coloured = "\x1b[1ma.cpp:1:2:\x1b[0;31m error: x \x1b[m\n\x1b[K".toList ∧
    (extract coloured).map withoutRaw = (extract log).map withoutRaw ∧
    (extract log).map Diagnostic.message = ["x".toList] := by
  let log : Text := "a.cpp:1:2:".toList ++ (" error: x ".toList ++ ("\n".toList ++ []))
  let coloured : Text := "\x1b[1m".toList ++ ("a.cpp:1:2:".toList ++ ("\x1b[0;31m".toList ++ (" error: x ".toList ++
    ("\x1b[m".toList ++ ("\n".toList ++ ("\x1b[K".toList ++ []))))))
  have hcoloured : Coloured log coloured := by
    have hbold : IsColourCode "\x1b[1m".toList := .of_all ['1'] 'm' rfl rfl
    have hred : IsColourCode "\x1b[0;31m".toList := .of_all ['0', ';', '3', '1'] 'm' rfl rfl
    have hreset : IsColourCode "\x1b[m".toList := .of_all [] 'm' rfl rfl
    have herase : IsColourCode "\x1b[K".toList := .of_all [] 'K' rfl rfl
    refine .code hbold (.append (by decide +kernel) (.code hred (.append (by decide +kernel) (.code hreset ?_))))
    exact .append (by decide +kernel) (.code herase .nil)
  have hlines : logLines coloured = ["a.cpp:1:2: error: x ".toList, []] := by decide +kernel
  have hread : ∃ p, LinePattern.gcc? "a.cpp:1:2: error: x ".toList = some p :=
    Option.isSome_iff_exists.mp (by decide +kernel)
  have hcount : ∀ l ∈ logLines coloured, ¬BlanksCount l := by
    obtain ⟨p, hp⟩ := hread
    rw [hlines, List.forall_mem_cons, List.forall_mem_singleton]
    exact ⟨not_blanksCount_of_gcc hp, not_blanksCount_of_trimmed rfl⟩
  exact ⟨log, coloured, hcoloured, by decide +kernel, by decide +kernel,
    (extract_coloured_iff hcoloured).mpr hcount, by decide +kernel⟩

/-- **A code at the end of a line** keeps the blanks in front of it, and the project file stays in the message. -/
theorem project_kept_by_colour : ∃ log coloured : Text, Coloured log coloured ∧
    log = "a.cpp(1): error C1: x [p.vcxproj] \n".toList ∧
    coloured = "a.cpp(1): error C1: x [p.vcxproj] \x1b[0m\n".toList ∧
    (extract log).map Diagnostic.message = ["C1: x".toList] ∧
    (extract coloured).map Diagnostic.message = ["C1: x [p.vcxproj]".toList] ∧
    (extract coloured).map withoutRaw ≠ (extract log).map withoutRaw := by
  let log : Text := "a.cpp(1): error C1: x [p.vcxproj] ".toList ++ ("\n".toList ++ [])
  let coloured : Text := "a.cpp(1): error C1: x [p.vcxproj] ".toList ++ ("\x1b[0m".toList ++ ("\n".toList ++ []))
  have hcoloured : Coloured log coloured := by
    have hreset : IsColourCode "\x1b[0m".toList := .of_all ['0'] 'm' rfl rfl
    exact .append (by decide +kernel) (.code hreset (.append (by decide +kernel) .nil))
  have hlog : (extract log).map Diagnostic.message = ["C1: x".toList] := by decide +kernel
  have hkept : (extract coloured).map Diagnostic.message = ["C1: x [p.vcxproj]".toList] := by decide +kernel
  refine ⟨log, coloured, hcoloured, by decide +kernel, by decide +kernel, hlog, hkept, fun hsame => ?_⟩
  have hmessages : (extract coloured).map Diagnostic.message = (extract log).map Diagnostic.message := by
    simpa [List.map_map, Function.comp_def, withoutRaw] using congrArg (List.map Diagnostic.message) hsame
  rw [hlog, hkept] at hmessages
  exact absurd hmessages (by decide +kernel)

end BuildMender.Diagnostic
