import BuildMender.Proofs.Request.Moved
import BuildMender.Proofs.Text.Class

/-!
# The diagnostics that a prompt lists

A prompt has room for so many diagnostics only, so which ones are listed is a matter of their order. The request
to mend a failed build brings the errors to the front, and changes nothing else about the order
(`BuildMender.Diagnostic.ErrorsLead`); the first of them is then the first error that was found, and its place
is the file that is sent along. The prompt lists the diagnostics from the front as far as there is room, each
on a line of its own under its number, and says in one more line how many are left
(`BuildMender.Request.Lists`).

From the two together a note is listed only where no error is left out. What has to be seen to for the lines is
that they can be told apart: a diagnostic is one line if its file and its message are
(`BuildMender.Diagnostic.oneLine_display`), and then the lines of the prompt are the ones that were put
together (`BuildMender.Assembler.split_userPrompt`).
-/

namespace BuildMender

open Text

/-! ### Errors in front -/

namespace Diagnostic

variable {d : Diagnostic} {ds found listed : List Diagnostic} {max : Nat}

/-- **Diagnostics with the errors brought to the front**: the same ones, no error behind one that is none, and
both kinds in the order in which they stood. -/
structure ErrorsLead (found listed : List Diagnostic) : Prop where
  perm : listed.Perm found
  ordered : listed.Pairwise fun a b => b.isError → a.isError
  stable : ∀ error : Bool, (listed.filter fun d => d.isError = error) = found.filter fun d => d.isError = error

theorem errorsLead_errorsFirst (ds : List Diagnostic) : ErrorsLead ds (Request.errorsFirst ds) := by
  refine ⟨List.filter_append_perm _ ds, ?_, fun error => ?_⟩
  · refine List.pairwise_append.mpr ⟨?_, ?_, fun a ha b _ _ => (List.mem_filter.mp ha).2⟩
    · exact List.pairwise_of_forall_mem_list fun a ha b _ _ => (List.mem_filter.mp ha).2
    · refine List.pairwise_of_forall_mem_list fun a _ b hb herror => ?_
      simp [herror] at hb
  · rw [Request.errorsFirst, List.filter_append, List.filter_filter, List.filter_filter]
    cases error <;> simp

/-- **No error is left out where something else is listed.** -/
theorem ErrorsLead.isError_of_mem_drop (h : ErrorsLead found listed) (hd : d ∈ listed.take max)
    (hother : d.isError = false) : ∀ e ∈ listed.drop max, e.isError = false := by
  intro e he
  have hsplit := h.ordered
  rw [← List.take_append_drop max listed] at hsplit
  have hbefore := (List.pairwise_append.mp hsplit).2.2 d hd e he
  rw [hother] at hbefore
  simpa using hbefore

/-- The first diagnostic, if it is an error, is the first error. -/
theorem head?_errorsFirst (ds : List Diagnostic) :
    (Request.errorsFirst ds).head?.filter isError = ds.find? isError := by
  rw [Request.errorsFirst, List.head?_append, List.head?_filter, List.head?_filter]
  cases hfirst : ds.find? isError with
  | some d => simp [List.find?_some hfirst]
  | none =>
    rw [Option.none_or, Option.filter_eq_none_iff]
    intro d hd
    simpa using List.find?_some hd

/-- **A diagnostic is shown on one line**, if its file and its message are one line each. -/
theorem oneLine_display (hfile : '\n' ∉ d.file) (hmessage : '\n' ∉ d.message) : '\n' ∉ d.display := by
  have hnumeral (n : UInt32) : '\n' ∉ numeral n := not_mem_decimal rfl n.toNat
  have hlabel : '\n' ∉ d.severity.label := by cases d.severity <;> decide
  simp [display, hfile, hmessage, hnumeral, hlabel]

end Diagnostic

/-! ### Numbered lines -/

namespace Request

variable {ds : List Diagnostic} {max : Nat} {l : Text}

/-- **The lines that list diagnostics**: the first ones with their numbers, as many as there is room for, and
then how many more there are, if there are more. -/
structure Lists (max : Nat) (ds : List Diagnostic) (ls : List Text) : Prop where
  length : ls.length = min max ds.length + if max < ds.length then 1 else 0
  entry : ∀ i d, i < max → ds[i]? = some d → ls[i]? = some (decimal (i + 1) ++ ". " ++ d.display)
  remainder : max < ds.length → ls[max]? = some ("... and " ++ decimal (ds.length - max) ++ " more")

/-- The lines of a listing. -/
def listedLines (max : Nat) (ds : List Diagnostic) : List Text :=
  numbered (ds.take max) ++
    if max < ds.length then ["... and " ++ decimal (ds.length - max) ++ " more"] else []

theorem length_numbered (ds : List Diagnostic) : (numbered ds).length = ds.length := by
  rw [numbered, List.length_map, List.length_zipIdx]

theorem getElem?_numbered (ds : List Diagnostic) (i : Nat) :
    (numbered ds)[i]? = ds[i]?.map fun d => decimal (i + 1) ++ ". " ++ d.display := by
  rw [numbered, List.getElem?_map, List.getElem?_zipIdx, Option.map_map, Nat.zero_add]
  rfl

theorem lists_listedLines (max : Nat) (ds : List Diagnostic) : Lists max ds (listedLines max ds) where
  length := by
    rw [listedLines, List.length_append, length_numbered, List.length_take]
    split <;> rfl
  entry i d hi hd := by
    have hlt : i < (numbered (ds.take max)).length := by
      obtain ⟨hds, -⟩ := List.getElem?_eq_some_iff.mp hd
      rw [length_numbered, List.length_take]
      omega
    rw [listedLines, List.getElem?_append_left hlt, getElem?_numbered, List.getElem?_take_of_lt hi, hd]
    rfl
  remainder h := by
    have hlength : (numbered (ds.take max)).length = max := by
      rw [length_numbered, List.length_take]
      omega
    rw [listedLines, if_pos h, List.getElem?_append_right (by omega), hlength, Nat.sub_self]
    rfl

/-- **There is one way to list diagnostics.** -/
theorem lists_iff {ls : List Text} : Lists max ds ls ↔ ls = listedLines max ds := by
  refine ⟨fun h => List.ext_getElem? fun i => ?_, fun h => h ▸ lists_listedLines max ds⟩
  have h' := lists_listedLines max ds
  by_cases hentry : i < max ∧ i < ds.length
  · have hd : ds[i]? = some ds[i] := List.getElem?_eq_getElem hentry.2
    rw [h.entry i _ hentry.1 hd, h'.entry i _ hentry.1 hd]
  by_cases hremainder : i = max ∧ max < ds.length
  · rw [hremainder.1, h.remainder hremainder.2, h'.remainder hremainder.2]
  · -- behind the last line of both
    have hlength := h.length
    have hlength' := h'.length
    rw [List.getElem?_eq_none (by split at hlength <;> omega),
      List.getElem?_eq_none (by split at hlength' <;> omega)]

theorem listedLines_ne_nil (h : ds ≠ []) : listedLines max ds ≠ [] := by
  have hlength := (lists_listedLines max ds).length
  have hpos := List.length_pos_of_ne_nil h
  intro hnil
  rw [hnil, List.length_nil] at hlength
  split at hlength <;> omega

theorem oneLine_of_mem_listedLines (h : ∀ d ∈ ds, '\n' ∉ d.file ∧ '\n' ∉ d.message)
    (hl : l ∈ listedLines max ds) : '\n' ∉ l := by
  have hdecimal (n : Nat) : '\n' ∉ decimal n := not_mem_decimal rfl n
  rcases List.mem_append.mp hl with hl | hl
  · obtain ⟨⟨d, i⟩, hd, rfl⟩ := List.mem_map.mp hl
    have hmem : d ∈ ds := List.mem_of_mem_take (List.fst_mem_of_mem_zipIdx hd)
    have hdisplay := Diagnostic.oneLine_display (h d hmem).1 (h d hmem).2
    simp [hdecimal, hdisplay]
  · split at hl
    · obtain rfl := List.mem_singleton.mp hl
      simp [hdecimal]
    · cases hl

end Request

/-! ### The prompt -/

namespace Assembler

variable {r : BuildResult}

theorem trim_question (r : BuildResult) : trim (Request.fixFor r).question = (Request.fixFor r).question := by
  have hquestion : (Request.fixFor r).question =
      "The " ++ (r.action.label ++ (" step for preset " ++ (r.presetId ++
        (" failed with exit code " ++ (integer r.exitCode ++ ". Fix the errors below."))))) := by
    simp only [Request.fixFor, List.append_assoc]
  rw [hquestion]
  refine trim_of_ends (fun c hc => ?_) fun c hc => ?_
  · obtain rfl := Option.some.inj hc
    rfl
  · simp only [← List.append_assoc] at hc
    rw [List.getLast?_append_of_ne_nil _ (by decide)] at hc
    obtain rfl := Option.some.inj hc
    rfl

theorem userPrompt_fixFor (a : Assembler) (r : BuildResult) : a.userPrompt (Request.fixFor r) =
    (Request.fixFor r).question ++ if (Request.fixFor r).diagnostics = [] then [] else
      ("\n\nBuild errors:\n" ++
        join "\n" (Request.listedLines a.maxDiagnostics (Request.fixFor r).diagnostics) : Text) := by
  have hintent : ((Request.fixFor r).intent == .assist) = false := rfl
  rw [userPrompt, trim_question, hintent, Bool.or_false]
  simp only [List.isEmpty_iff]
  rfl

/-- **The lines of the prompt**: those of the question, and unless there is nothing to list a heading and the
listed lines. -/
theorem split_userPrompt (a : Assembler)
    (h : ∀ d ∈ (Request.fixFor r).diagnostics, '\n' ∉ d.file ∧ '\n' ∉ d.message) :
    split (· = '\n') (a.userPrompt (Request.fixFor r)) = split (· = '\n') (Request.fixFor r).question ++
      if (Request.fixFor r).diagnostics = [] then [] else [] :: "Build errors:".toList ::
        Request.listedLines a.maxDiagnostics (Request.fixFor r).diagnostics := by
  rw [userPrompt_fixFor]
  generalize (Request.fixFor r).diagnostics = ds at h
  generalize (Request.fixFor r).question = question
  by_cases hds : ds = []
  · rw [if_pos hds, if_pos hds, List.append_nil, List.append_nil]
  · rw [if_neg hds, if_neg hds]
    have hlines : split (· = '\n') (join "\n" (Request.listedLines a.maxDiagnostics ds)) =
        Request.listedLines a.maxDiagnostics ds := by
      refine split_join (c := '\n') (by decide) (Request.listedLines_ne_nil hds) fun l hl c hc => ?_
      simpa using fun heq : c = '\n' => Request.oneLine_of_mem_listedLines h hl (heq ▸ hc)
    have hheading : split (· = '\n') "Build errors:".toList = ["Build errors:".toList] := by decide
    have hfeed (above below : Text) : split (· = '\n') (above ++ '\n' :: below) =
        split (· = '\n') above ++ split (· = '\n') below := split_append_cons (by decide) above below
    have hprompt : question ++ ("\n\nBuild errors:\n" ++ join "\n" (Request.listedLines a.maxDiagnostics ds)) =
        question ++ '\n' :: ([] ++ '\n' :: ("Build errors:".toList ++
          '\n' :: join "\n" (Request.listedLines a.maxDiagnostics ds))) := rfl
    rw [hprompt, hfeed, hfeed, hfeed, hlines, hheading]
    rfl

/-- **The prompt to mend a failed build.** The errors come before all other diagnostics; the file sent along is
that of the first error; and where no file or message has a line feed of its own, the lines below the heading
are the first diagnostics with their numbers, as many as there is room for, and then how many more there are.
So nothing is listed in place of an error. -/
theorem fix_prompt_lists (a : Assembler) (r : BuildResult) :
    Diagnostic.ErrorsLead r.diagnostics (Request.fixFor r).diagnostics ∧
    (Request.fixFor r).activeFile =
      (r.diagnostics.find? Diagnostic.isError).map (fun d => ⟨⟨d.file⟩, if d.line = 0 then 1 else d.line⟩) ∧
    ((∀ d ∈ r.diagnostics, '\n' ∉ d.file ∧ '\n' ∉ d.message) →
      ∃ listed, Request.Lists a.maxDiagnostics (Request.fixFor r).diagnostics listed ∧
        split (· = '\n') (a.assemble (Request.fixFor r)).userPrompt =
          split (· = '\n') (Request.fixFor r).question ++
            if r.diagnostics = [] then [] else [] :: "Build errors:".toList :: listed) ∧
    ∀ d ∈ (Request.fixFor r).diagnostics.take a.maxDiagnostics, d.isError = false →
      ∀ e ∈ (Request.fixFor r).diagnostics.drop a.maxDiagnostics, e.isError = false := by
  have hlead : Diagnostic.ErrorsLead r.diagnostics (Request.fixFor r).diagnostics :=
    Diagnostic.errorsLead_errorsFirst r.diagnostics
  refine ⟨hlead, ?_, fun h => ⟨_, Request.lists_listedLines _ _, ?_⟩,
    fun d hd hother => hlead.isError_of_mem_drop hd hother⟩
  · have hfirst := Diagnostic.head?_errorsFirst r.diagnostics
    simp only [Request.fixFor, hfirst]
    rfl
  · have hempty : (Request.fixFor r).diagnostics = [] ↔ r.diagnostics = [] :=
      ⟨fun hnil => List.nil_perm.mp (hnil ▸ hlead.perm), fun hnil => List.perm_nil.mp (hnil ▸ hlead.perm)⟩
    have hlines := split_userPrompt a fun d hd => h d (hlead.perm.mem_iff.mp hd)
    simp only [hempty] at hlines
    exact hlines

/-- A build with a note, an error without a line, a warning and another error. -/
def mixedBuild : BuildResult where
  diagnostics :=
    [⟨"a.cpp", 1, 2, .info, "n", "", .gcc, none⟩, ⟨"b.cpp", 0, 1, .error, "x", "", .gcc, none⟩,
      ⟨"c.cpp", 3, 4, .warning, "w", "", .gcc, none⟩, ⟨"a.cpp", 5, 6, .error, "y", "", .gcc, none⟩]
  presetId := "p\nq"
  exitCode := 2

/-- With room for three diagnostics both errors are listed, and the note that was found before them; the
warning is left out. -/
theorem mixed_prompt_lists :
    (∀ d ∈ mixedBuild.diagnostics, '\n' ∉ d.file ∧ '\n' ∉ d.message) ∧
    (Request.fixFor mixedBuild).activeFile = some ⟨"b.cpp", 1⟩ ∧
    (∃ listed, Request.Lists 3 (Request.fixFor mixedBuild).diagnostics listed ∧
      split (· = '\n')
          (({ ofOneFile "/p" with maxDiagnostics := 3 }).assemble (Request.fixFor mixedBuild)).userPrompt =
        ["The build step for preset p".toList, "q failed with exit code 2. Fix the errors below.".toList, [],
          "Build errors:".toList] ++ listed ∧
      listed = ["1. b.cpp:0:1 - error: x".toList, "2. a.cpp:5:6 - error: y".toList,
        "3. a.cpp:1:2 - info: n".toList, "... and 1 more".toList]) := by
  have hlines : ∀ d ∈ mixedBuild.diagnostics, '\n' ∉ d.file ∧ '\n' ∉ d.message := by decide
  obtain ⟨-, hactive, hlisted, -⟩ := fix_prompt_lists { ofOneFile "/p" with maxDiagnostics := 3 } mixedBuild
  obtain ⟨listed, hlists, hprompt⟩ := hlisted hlines
  have hquestion : split (· = '\n') (Request.fixFor mixedBuild).question =
      ["The build step for preset p".toList, "q failed with exit code 2. Fix the errors below.".toList] := by
    decide
  rw [hquestion] at hprompt
  exact ⟨hlines, hactive.trans (by decide), listed, hlists, hprompt,
    (Request.lists_iff.mp hlists).trans (by decide)⟩

end Assembler

end BuildMender
