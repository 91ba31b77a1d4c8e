import BuildMender.Build.Builder
import BuildMender.Proofs.Diagnostic.Form
import BuildMender.Proofs.Diagnostic.LogLine
import BuildMender.Proofs.Diagnostic.Order
import BuildMender.Proofs.Text.EndBlanks

/-!
# Two logs in one

A line of a log is read by itself, but for a message of CMake, which may go on below. So when one log
follows another, their diagnostics are found as if each log stood alone, unless the second begins with
indented lines, which would be taken for the rest of a message in the first.

The place where the logs meet is one line feed. It ends the last line of the first log, or it is an empty
line of its own (`BuildMender.Diagnostic.logLines_append`); a message that goes on below passes over empty
lines or ends there, so neither matters.

A build that fails without an error in its error stream is asked for the errors in its other stream as well.
There the law says that the two lists, sorted together, are what the streams give in one log
(`BuildMender.Builder.diagnostics_resultOf`).

Where CMake's line ends at its colon, the message is on the lines below: after any number of blank lines there
is one block of indented lines, and whatever ends the block, nothing further down belongs to the message
(`BuildMender.Diagnostic.continuation_of_block`). If the first line that is not blank is not indented, there is
no message (`BuildMender.Diagnostic.continuation_of_startAfresh`). Blanks at the ends of the lines make no
difference, so that it does not matter whether they are dropped before
(`BuildMender.Diagnostic.continuation_map_trimEnd`).
-/

namespace BuildMender.Diagnostic

open Text

variable {above below gap : List Text} {l t a b : Text}

/-! ### Messages that go on below -/

/-- The first of some lines that is not blank, if there is one, is not indented. -/
def StartAfresh (ls : List Text) : Prop := ∀ l ∈ (ls.dropWhile allBlank).head?, isIndented l = false

instance (ls : List Text) : Decidable (StartAfresh ls) := inferInstanceAs (Decidable (∀ l ∈ _, _))

theorem StartAfresh.append (hgap : ∀ l ∈ gap, l = []) (h : StartAfresh below) :
    StartAfresh (gap ++ below) := by
  have hall : gap.dropWhile allBlank = [] :=
    List.dropWhile_eq_nil_iff.mpr fun l hl => by rw [hgap l hl]; rfl
  rw [StartAfresh, List.dropWhile_append, hall]
  exact h

/-- Lines whose first is blank or not indented have no indented block in front. -/
theorem indentedBlock_eq_nil (h : ∀ l ∈ below.head?, allBlank l ∨ isIndented l = false) :
    indentedBlock below = [] := by
  cases below with
  | nil => rfl
  | cons l more =>
    refine congrArg (List.map trim) (List.takeWhile_cons_of_neg ?_)
    rcases h l rfl with hl | hl <;> simp [hl]

theorem indentedBlock_append (h : indentedBlock below = []) (above : List Text) :
    indentedBlock (above ++ below) = indentedBlock above := by
  induction above with
  | nil => exact h
  | cons l more ih =>
    rw [List.cons_append, indentedBlock, indentedBlock, List.takeWhile_cons, List.takeWhile_cons]
    split
    · rw [List.map_cons, List.map_cons]
      exact congrArg _ ih
    · rfl

/-- **A message ends where lines start afresh**, if not above. -/
theorem continuation_append (h : StartAfresh below) (above : List Text) :
    continuation (above ++ below) = continuation above := by
  have hskipped : indentedBlock (below.dropWhile allBlank) = [] :=
    indentedBlock_eq_nil fun l hl => Or.inr (h l hl)
  -- a block does not go on below: there the first line is blank, or it is the one that starts afresh
  have hnone : indentedBlock below = [] := by
    refine indentedBlock_eq_nil fun l hl => ?_
    by_cases hblank : allBlank l
    · exact Or.inl hblank
    · refine Or.inr (h l ?_)
      cases below with
      | nil => cases hl
      | cons first more =>
        obtain rfl := Option.some.inj hl
        rw [List.dropWhile_cons_of_neg hblank]
        rfl
  have hblock : indentedBlock ((above ++ below).dropWhile allBlank) =
      indentedBlock (above.dropWhile allBlank) := by
    rw [List.dropWhile_append]
    split
    · -- with nothing but blank lines above, the first block is looked for below
      rename_i hall
      rw [hskipped, List.isEmpty_iff.mp hall]
      rfl
    · exact indentedBlock_append hnone _
  rw [continuation, continuation, hblock]

/-! ### Diagnostics of lines -/

theorem ofLine?_append (h : StartAfresh below) (line : Text) (above : List Text) :
    ofLine? line (above ++ below) = ofLine? line above := by
  have hcomplete (dialect : Dialect) (parts : LinePattern) :
      complete dialect parts (above ++ below) = complete dialect parts above := by
    rw [complete, complete, continuation_append h]
  rw [ofLine?, ofLine?]
  simp only [hcomplete]

/-- **Where lines start afresh**, they and the lines above are read apart. -/
theorem ofLines_append (h : StartAfresh below) (above : List Text) :
    ofLines (above ++ below) = ofLines above ++ ofLines below := by
  induction above with
  | nil => rfl
  | cons line more ih =>
    rw [List.cons_append, ofLines, ofLines, ofLine?_append h, ih, List.append_assoc]

theorem ofLines_of_empty (h : ∀ l ∈ gap, l = []) : ofLines gap = [] := by
  induction gap with
  | nil => rfl
  | cons l more ih =>
    obtain ⟨rfl, hmore⟩ := List.forall_mem_cons.mp h
    rw [ofLines, ih hmore]
    rfl

theorem ofLines_logLines_append (h : StartAfresh (logLines b)) (a : Text) :
    ofLines (logLines (a ++ '\n' :: b)) = ofLines (logLines a) ++ ofLines (logLines b) := by
  obtain ⟨gap, hgap, hlines⟩ := logLines_append a b
  rw [hlines, ofLines_append (h.append hgap), ofLines_append h, ofLines_of_empty hgap, List.nil_append]

/-- The diagnostics of two logs sorted together are those of both logs in one. -/
theorem mergeSort_extract_append (h : StartAfresh (logLines b)) (a : Text) :
    (extract a ++ extract b).mergeSort precedes = extract (a ++ '\n' :: b) := by
  rw [extract, extract, mergeSort_append_mergeSort precedes_trans precedes_total, extract,
    ofLines_logLines_append h]

end Diagnostic

/-! ### The two streams of a build -/

namespace Watch

/-- The watch over a process ends, at the latest when the time is up. -/
theorem isSome_termination_ofSignals (timeout : Nat) (ss : List Signal) :
    (ofSignals timeout ss).termination.isSome := by
  rw [ofSignals, observeAll, List.foldl_append, List.foldl_cons, List.foldl_nil, observe]
  split
  · assumption
  · rfl

end Watch

namespace BuildResult

/-- A build has failed by itself and shows no error in its error stream, so that its diagnostics are looked
for in both streams. -/
def FallsBack (r : BuildResult) : Prop :=
  r.termination = .exited ∧ r.exitCode ≠ 0 ∧ ∀ d ∈ Diagnostic.extract r.stderr, d.isError = false

instance (r : BuildResult) : Decidable r.FallsBack := inferInstanceAs (Decidable (_ ∧ _ ∧ _))

end BuildResult

namespace Builder

open Diagnostic

variable {b : Builder} {preset : Preset} {action : BuildAction} {command : Text} {r : BuildResult}

/-- **A result that falls back** is that of both streams in one log, the error stream first. -/
theorem diagnostics_resultOf {w : Watch} (hw : w.termination.isSome)
    (hr : resultOf preset action command w = r) (hback : r.FallsBack) (h : StartAfresh (logLines r.stdout)) :
    r.diagnostics = extract (r.stderr ++ '\n' :: r.stdout) := by
  subst hr
  obtain ⟨hexited, hcode, herrors⟩ := hback
  have hended : w.termination = some .exited := by
    obtain ⟨termination, hsome⟩ := Option.isSome_iff_exists.mp hw
    rw [hsome]
    change w.termination.getD .exited = .exited at hexited
    rw [← hexited, hsome]
    rfl
  have hboth : w.exitCode ≠ 0 ∧ w.termination = some .exited ∧
      !(extract w.stderr).any Diagnostic.isError := by
    refine ⟨hcode, hended, ?_⟩
    rw [Bool.not_eq_true', List.any_eq_false]
    exact fun d hd => by simp [herrors d hd]
  have hmerged := mergeSort_extract_append h w.stderr
  change diagnosticsOf w = _
  rw [diagnosticsOf, if_pos hboth]
  exact hmerged

theorem diagnostics_report {heard : Except Text (List Signal)}
    (hr : (b.report preset action command heard).1 = r) (hback : r.FallsBack)
    (h : StartAfresh (logLines r.stdout)) : r.diagnostics = extract (r.stderr ++ '\n' :: r.stdout) := by
  cases heard with
  | error reason => exact diagnostics_resultOf rfl hr hback h
  | ok signals => exact diagnostics_resultOf (Watch.isSome_termination_ofSignals _ _) hr hback h

/-- A run's result is what its process came to, with what the dependency cache says. -/
theorem exists_report {running : Running} {root : Path} {w after : Workspace}
    (h : b.runBy running root preset action w = .ok (r, after)) : ∃ command heard check,
      r = { (b.report preset action command heard).1 with dependencyCheck := check } := by
  rw [runBy] at h
  cases hcommand : commandOf preset action with
  | error e =>
    rw [hcommand] at h
    cases h
  | ok command =>
    rw [hcommand] at h
    obtain ⟨check, hcheck⟩ := b.exists_runCommandBy running root preset action command w
    exact ⟨command, _, check, (congrArg Prod.fst (Except.ok.inj h)).symm.trans hcheck⟩

end Builder

namespace Diagnostic

/-- **Two logs are read in one pass as each by itself**, where the second starts afresh. So a build that falls
back to its other stream reports what both streams show in one log, in whatever way commands are run, and
whatever a process writes and in whatever order that is heard. -/
theorem extract_in_parts :
    (∀ a b : Text, StartAfresh (logLines b) →
      SortedByPlace (extract a ++ extract b) (extract (a ++ '\n' :: b))) ∧
    (∀ (builder : Builder) preset action command heard r, (builder.report preset action command heard).1 = r →
      r.FallsBack → StartAfresh (logLines r.stdout) → r.diagnostics = extract (r.stderr ++ '\n' :: r.stdout)) ∧
    (∀ (builder : Builder) running root preset action w r after,
      builder.runBy running root preset action w = .ok (r, after) →
      r.FallsBack → StartAfresh (logLines r.stdout) → r.diagnostics = extract (r.stderr ++ '\n' :: r.stdout)) := by
  refine ⟨fun a b h => ?_, fun builder preset action command heard r => builder.diagnostics_report, ?_⟩
  · exact sortedByPlace_iff.mpr (mergeSort_extract_append h a).symm
  · intro builder running root preset action w r after hrun hback h
    obtain ⟨command, heard, check, rfl⟩ := Builder.exists_report hrun
    have hreport : (builder.report preset action command heard).1.diagnostics = _ :=
      Builder.diagnostics_report rfl hback h
    exact hreport

/-- A header of CMake's above a line of GCC's; and builds that write their errors to the output stream. -/
theorem extract_in_parts_of_failed_build :
    SortedByPlace (extract "CMake Error at b.cmake:1:" ++ extract "a.cpp:2:1: error: x")
      (extract "CMake Error at b.cmake:1:\na.cpp:2:1: error: x") ∧
    (∃ signals r, (({} : Builder).report default .build "make" (.ok signals)).1 = r ∧ r.FallsBack ∧
      r.diagnostics = extract "make failed\n\na.cpp(3): error C2065: x\n") ∧
    ∃ preset w r after, ({} : Builder).run ⟨"/p"⟩ preset .build w = .ok (r, after) ∧ r.FallsBack ∧
      r.stdout = "a.cpp(3): error C2065: x\n".toList ∧ r.diagnostics = extract (r.stderr ++ '\n' :: r.stdout) := by
  obtain ⟨hlogs, hreport, hrun⟩ := extract_in_parts
  refine ⟨hlogs _ _ (by decide +kernel), ?_, ?_⟩
  · let signals : List Signal :=
      [.line .stdout "a.cpp(3): error C2065: x", .line .stderr "make failed", .closed, .ended (some 2)]
    have hback : (({} : Builder).report default .build "make" (.ok signals)).1.FallsBack := by decide +kernel
    refine ⟨signals, _, rfl, hback, (hreport {} default .build _ _ _ rfl hback (by decide +kernel)).trans ?_⟩
    decide +kernel
  · let preset : Preset := { id := "d", configure := "c", build := "cat build.log missing", buildDir := ⟨"b"⟩ }
    let w : Workspace :=
      { disk := { nodes := [(["bin"], .directory), (["bin", "cat"], .file (Text.toBytes "")),
        (["p"], .directory), (["p", "build.log"], .file (Text.toBytes "a.cpp(3): error C2065: x\n"))] } }
    have hfacts : (({} : Builder).run ⟨"/p"⟩ preset .build w).toOption.map (fun p =>
        decide (p.1.FallsBack ∧ StartAfresh (logLines p.1.stdout) ∧
          p.1.stdout = "a.cpp(3): error C2065: x\n".toList)) = some true := by decide +kernel
    cases h : ({} : Builder).run ⟨"/p"⟩ preset .build w with
    | error e =>
      rw [h] at hfacts
      cases hfacts
    | ok p =>
      obtain ⟨r, after⟩ := p
      rw [h] at hfacts
      obtain ⟨hback, hafresh, hstdout⟩ := of_decide_eq_true (Option.some.inj hfacts)
      exact ⟨preset, w, r, after, h, hback, hstdout, hrun _ _ _ _ _ _ _ _ h hback hafresh⟩

end Diagnostic

/-! ### Messages on the lines below -/

namespace Text

variable {ls : List Text} {l : Text}

theorem join_ne_nil (sep : Text) (ls : List Text) (h : l ≠ []) : join sep (l :: ls) ≠ [] := fun hnil =>
  h (List.subset_nil.mp (hnil ▸ head_subset_join sep l ls))

/-- Pieces that begin and end with no blank, joined, begin and end with none. -/
theorem trim_join (sep : Text) (h : ∀ l ∈ ls, l ≠ [] ∧ trim l = l) : trim (join sep ls) = join sep ls := by
  induction ls using join.induct with
  | case1 => rfl
  | case2 l => exact (h l (List.mem_singleton_self l)).2
  | case3 l more hne ih =>
    obtain ⟨hl, htrim⟩ := h l List.mem_cons_self
    obtain ⟨l', more, rfl⟩ := List.exists_cons_of_ne_nil hne
    have hmore := ih fun l' hl' => h l' (List.mem_cons_of_mem l hl')
    have hjoin : join sep (l' :: more) ≠ [] :=
      join_ne_nil sep more (h l' (List.mem_cons_of_mem l List.mem_cons_self)).1
    rw [join_cons sep l hne]
    refine trim_of_ends (fun c hc => ?_) fun c hc => ?_
    · rw [List.append_assoc, List.head?_append_of_ne_nil l hl, ← htrim] at hc
      exact head?_trim hc
    · rw [List.getLast?_append_of_ne_nil _ hjoin, ← hmore] at hc
      exact getLast?_trim hc

end Text

namespace Diagnostic

open Text

variable {gap block below ls : List Text} {l t : Text}

/-! ### Blanks at the ends of lines -/

theorem isIndented_append (hne : t ≠ []) (b : Text) : isIndented (t ++ b) = isIndented t := by
  obtain ⟨c, cs, rfl⟩ := List.exists_cons_of_ne_nil hne
  rfl

/-- A line that goes into a block is one that goes into it without the blanks at its end. -/
theorem indented_trimEnd (l : Text) :
    (!allBlank (trimEnd l) && isIndented (trimEnd l)) = (!allBlank l && isIndented l) := by
  rw [allBlank_trimEnd]
  cases hblank : allBlank l with
  | true => rfl
  | false =>
    obtain ⟨b, hb, -⟩ := exists_dropEnd isBlank l
    have hne : trimEnd l ≠ [] := fun h => by simp [trimEnd_eq_nil.mp h] at hblank
    have hsame : isIndented (trimEnd l) = isIndented l := by
      conv_rhs => rw [hb]
      exact (isIndented_append hne b).symm
    rw [hsame]

/-- **Blanks at the ends of the lines** make no difference to the message on them. -/
theorem continuation_map_trimEnd (ls : List Text) : continuation (ls.map trimEnd) = continuation ls := by
  have hblock (ls : List Text) : indentedBlock (ls.map trimEnd) = indentedBlock ls := by
    rw [indentedBlock, indentedBlock, List.takeWhile_map, List.map_map]
    exact congr_arg₂ List.map (funext trim_trimEnd) (congrArg (List.takeWhile · ls) (funext indented_trimEnd))
  have hskip : (ls.map trimEnd).dropWhile allBlank = (ls.dropWhile allBlank).map trimEnd := by
    rw [List.dropWhile_map]
    exact congrArg (List.map trimEnd) (congrArg (List.dropWhile · ls) (funext allBlank_trimEnd))
  rw [continuation, continuation, hskip, hblock]

/-- A message on the lines below begins and ends with no blank. -/
theorem trim_of_continuation {message : Text} (h : continuation below = some message) :
    trim message = message := by
  rw [continuation] at h
  split at h
  · cases h
  · obtain rfl := Option.some.inj h
    refine trim_join " " fun l hl => ?_
    obtain ⟨l', -, hblank, rfl⟩ := exists_of_mem_indentedBlock hl
    refine ⟨fun hnil => ?_, trim_trim l'⟩
    rw [← allBlank_trim, hnil] at hblank
    cases hblank

/-! ### The block below -/

/-- **The message is the block** below the blank lines, whatever stands behind its end. -/
theorem continuation_of_block (hgap : ∀ l ∈ gap, allBlank l) (hne : block ≠ [])
    (hblock : ∀ l ∈ block, allBlank l = false ∧ isIndented l)
    (hbelow : ∀ l ∈ below.head?, allBlank l ∨ isIndented l = false) :
    continuation (gap ++ (block ++ below)) = some (join " " (block.map trim)) := by
  have hskip : (gap ++ (block ++ below)).dropWhile allBlank = block ++ below := by
    rw [List.dropWhile_append_of_pos hgap]
    obtain ⟨first, more, rfl⟩ := List.exists_cons_of_ne_nil hne
    refine List.dropWhile_cons_of_neg ?_
    simp [(hblock first List.mem_cons_self).1]
  have hall : block.takeWhile (fun l => !allBlank l && isIndented l) = block :=
    List.takeWhile_eq_self_iff.mpr fun l hl => by
      obtain ⟨hblank, hindented⟩ := hblock l hl
      rw [hblank, hindented]
      rfl
  have hread : indentedBlock (block ++ below) = block.map trim := by
    rw [indentedBlock_append (indentedBlock_eq_nil hbelow), indentedBlock, hall]
  rw [continuation, hskip, hread]
  split
  · rename_i hnil
    exact absurd (List.map_eq_nil_iff.mp hnil) hne
  · rfl

/-- **There is no message** where the lines below start afresh. -/
theorem continuation_of_startAfresh (h : StartAfresh below) : continuation below = none := by
  have hnone := continuation_append h []
  exact hnone

end Diagnostic

end BuildMender
