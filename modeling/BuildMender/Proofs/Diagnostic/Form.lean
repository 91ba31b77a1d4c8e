import BuildMender.Proofs.Diagnostic.LogLine
import BuildMender.Proofs.Diagnostic.Order
import BuildMender.Proofs.Diagnostic.Reader
import BuildMender.Proofs.Path.Normalize

/-!
# The form of diagnostics

Whatever a log holds, its diagnostics have one form (`BuildMender.Diagnostic.WellFormed`), and there is one for
each line that some reader takes (`BuildMender.Diagnostic.extract_form`).

Two parts of the form do not come from the line alone. A number that is missing, zero or too large counts as 1,
so that every diagnostic points at a line. And where CMake leaves the message to the lines below, it is put
together from those that are indented, or failing that from the severity. The lines of such a block are not
blank, so neither is the message.
-/

namespace BuildMender.Diagnostic

open Text LinePattern

variable {line l : Text} {below ls : List Text} {dialect : Dialect} {parts : LinePattern} {d : Diagnostic}

/-- **The form that all diagnostics have.** -/
structure WellFormed (d : Diagnostic) : Prop where
  line_pos : 1 ≤ d.line
  column_pos : 1 ≤ d.column
  file_slashed : '\\' ∉ d.file
  file_not_here : ¬"./".toList <+: d.file
  message_trimmed : trim d.message = d.message
  message_oneLine : '\n' ∉ d.message
  message_ne_nil : d.dialect = .cmake → d.message ≠ []
  violation_eq : d.violation = Hint.ofMessage d.message

/-! ### Numbers -/

theorem one_le_orOne (n : Option UInt32) : 1 ≤ orOne n := by
  have hpos {k : UInt32} (h : 0 < k) : 1 ≤ k := by
    rw [UInt32.le_iff_toNat_le]
    exact UInt32.lt_iff_toNat_lt.mp h
  rw [orOne]
  cases h : n.filter (0 < ·) with
  | none => exact UInt32.le_refl 1
  | some k =>
    obtain ⟨-, hk⟩ := Option.filter_eq_some_iff.mp h
    exact hpos (of_decide_eq_true hk)

/-! ### Messages -/

theorem exists_of_mem_indentedBlock (h : l ∈ indentedBlock ls) :
    ∃ l' ∈ ls, allBlank l' = false ∧ trim l' = l := by
  obtain ⟨l', hl', rfl⟩ := List.mem_map.mp h
  have hkept := List.mem_takeWhile_imp hl'
  rw [Bool.and_eq_true, Bool.not_eq_true'] at hkept
  exact ⟨l', (List.takeWhile_prefix _).subset hl', hkept.1, rfl⟩

/-- **A message on the lines below** is not blank and holds no line feed. -/
theorem of_continuation {message : Text} (hbelow : ∀ l ∈ below, '\n' ∉ l)
    (h : continuation below = some message) : allBlank message = false ∧ '\n' ∉ message := by
  rw [continuation] at h
  have hpiece (l : Text) (hl : l ∈ indentedBlock (below.dropWhile allBlank)) :
      allBlank l = false ∧ '\n' ∉ l := by
    obtain ⟨l', hl', hblank, rfl⟩ := exists_of_mem_indentedBlock hl
    have hmem : l' ∈ below := (List.dropWhile_suffix allBlank).subset hl'
    exact ⟨(allBlank_trim l').trans hblank, fun hc => hbelow l' hmem (trim_subset l' hc)⟩
  split at h
  · cases h
  · rename_i hne
    obtain rfl := Option.some.inj h
    refine ⟨?_, fun hc => ?_⟩
    · -- a character of the first line shows it
      obtain ⟨first, more, hcons⟩ := List.exists_cons_of_ne_nil hne
      rw [hcons] at hpiece ⊢
      obtain ⟨c, hc, hblank⟩ := List.all_eq_false.mp (hpiece first List.mem_cons_self).1
      exact List.all_eq_false.mpr ⟨c, head_subset_join _ first more hc, hblank⟩
    · rcases mem_join hc with hc | ⟨l, hl, hc⟩
      · exact absurd hc (by decide)
      · exact (hpiece l hl).2 hc

/-- The message that is made up from the severity. -/
theorem configuration_severity {severity : Text} (h : severity ∈ ["Error".toList, "Warning".toList]) :
    allBlank ("configuration " ++ lowercase severity) = false ∧ '\n' ∉ "configuration " ++ lowercase severity := by
  have hall : ∀ s ∈ ["Error".toList, "Warning".toList],
      allBlank ("configuration " ++ lowercase s) = false ∧ '\n' ∉ "configuration " ++ lowercase s := by
    decide
  exact hall severity h

/-- **The message of a line**, if need be with those below, holds no line feed, and CMake's is not blank. -/
theorem message_complete (hread : LinePattern.ofLine? line = some (dialect, parts)) (hline : '\n' ∉ line)
    (hbelow : ∀ l ∈ below, '\n' ∉ l) : '\n' ∉ (complete dialect parts below).message ∧
      (dialect = .cmake → allBlank (complete dialect parts below).message = false) := by
  have honeLine := oneLine_of_ofLine? hread hline
  rw [complete]
  split
  · -- the line ends at its colon, and the message is looked for below
    rename_i hopen
    obtain ⟨rfl, -⟩ := hopen
    obtain ⟨hseverity, -⟩ := exists_of_cmake? (cmake?_of_ofLine? hread)
    cases h : continuation below with
    | none =>
      obtain ⟨hblank, hfeed⟩ := configuration_severity hseverity
      exact ⟨hfeed, fun _ => hblank⟩
    | some message =>
      obtain ⟨hblank, hfeed⟩ := of_continuation hbelow h
      exact ⟨hfeed, fun _ => hblank⟩
  · rename_i hclosed
    refine ⟨honeLine, ?_⟩
    rintro rfl
    obtain ⟨-, context, message, hparts, -⟩ := exists_of_cmake? (cmake?_of_ofLine? hread)
    have hne : withContext context message ≠ [] := fun h => hclosed ⟨rfl, hparts.trans h⟩
    rw [hparts]
    exact (withContext_eq_nil_or context message).resolve_left hne

/-! ### Diagnostics -/

theorem wellFormed_of_ofLine? (hline : '\n' ∉ line) (hbelow : ∀ l ∈ below, '\n' ∉ l)
    (h : ofLine? line below = some d) : WellFormed d := by
  obtain ⟨-, h⟩ := Option.ite_none_left_eq_some.mp h
  obtain ⟨⟨dialect, parts⟩, hread, rfl⟩ := Option.map_eq_some_iff.mp h
  obtain ⟨hfeed, hblank⟩ := message_complete hread hline hbelow
  exact {
    line_pos := one_le_orOne _
    column_pos := one_le_orOne _
    file_slashed := SourceFile.backslash_not_mem_normalize _
    file_not_here := SourceFile.here_not_prefix_normalize _
    message_trimmed := trim_trim _
    message_oneLine := fun hc => hfeed (trim_subset _ hc)
    message_ne_nil := fun hcmake hnil => by
      have hempty := allBlank_trim (complete dialect parts below).message
      change trim (complete dialect parts below).message = [] at hnil
      rw [hblank hcmake, hnil] at hempty
      cases hempty
    violation_eq := rfl }

theorem wellFormed_of_mem_ofLines (hls : ∀ l ∈ ls, '\n' ∉ l) (h : d ∈ ofLines ls) : WellFormed d := by
  induction ls with
  | nil => cases h
  | cons line below ih =>
    obtain ⟨hline, hbelow⟩ := List.forall_mem_cons.mp hls
    rcases List.mem_append.mp h with h | h
    · exact wellFormed_of_ofLine? hline hbelow (Option.mem_toList.mp h)
    · exact ih hbelow h

/-- The dialect of the diagnostic that a line gives, if it gives one. -/
def lineDialect? (line : Text) : Option Dialect := if allBlank line then none else LinePattern.dialect? line

theorem map_ofLine? (line : Text) (below : List Text) : (ofLine? line below).map (fun d => (d.raw, d.dialect)) =
    (lineDialect? line).map fun dialect => (line, dialect) := by
  rw [ofLine?, lineDialect?]
  split
  · rfl
  · rw [← map_fst_ofLine?]
    cases LinePattern.ofLine? line <;> rfl

/-- The lines that give a diagnostic, with its dialect. -/
theorem map_ofLines (ls : List Text) : (ofLines ls).map (fun d => (d.raw, d.dialect)) =
    ls.filterMap fun line => (lineDialect? line).map fun dialect => (line, dialect) := by
  induction ls with
  | nil => rfl
  | cons line below ih =>
    rw [ofLines, List.map_append, ih, List.filterMap_cons, ← map_ofLine? line below]
    cases ofLine? line below <;> rfl

/-- **What a log gives**: one diagnostic for each line that is not blank and that some reader takes, with the
dialect of the first such reader, sorted by place and all in one form. -/
theorem extract_form (log : Text) : ∃ found : List Diagnostic,
    found.map (fun d => (d.raw, d.dialect)) =
      (logLines log).filterMap (fun line => (lineDialect? line).map fun dialect => (line, dialect)) ∧
    SortedByPlace found (extract log) ∧ ∀ d ∈ extract log, WellFormed d := by
  refine ⟨ofLines (logLines log), map_ofLines _, sortedByPlace_extract log, fun d hd => ?_⟩
  have hfound := (sortedByPlace_extract log).perm.mem_iff.mp hd
  exact wellFormed_of_mem_ofLines (fun l => oneLine_of_mem_logLines) hfound

/-- A message over two lines, a line number that counts for nothing, and colour codes. -/
theorem extract_form_of_mixed_log : ∃ log found,
    log = "CMake Warning at ./b.cmake:0:\n\n  two \n\twords\nno message\n\x1b[1ma.cpp:7: note: x\x1b[0m".toList ∧
    found.map (fun d => (d.raw, d.dialect)) =
      [("CMake Warning at ./b.cmake:0:".toList, .cmake), ("a.cpp:7: note: x".toList, .gcc)] ∧
    SortedByPlace found (extract log) ∧
    ∃ d ∈ extract log, d.file = "b.cmake".toList ∧ d.line = 1 ∧ d.message = "two words".toList ∧ WellFormed d := by
  let log := "CMake Warning at ./b.cmake:0:\n\n  two \n\twords\nno message\n\x1b[1ma.cpp:7: note: x\x1b[0m".toList
  let d : Diagnostic :=
    { file := "b.cmake", line := 1, column := 1, severity := .warning, message := "two words"
      raw := "CMake Warning at ./b.cmake:0:", dialect := .cmake, violation := none }
  obtain ⟨found, hlines, hsorted, hform⟩ := extract_form log
  have hfound : d ∈ ofLines (logLines log) := by decide +kernel
  have hmem : d ∈ extract log := (sortedByPlace_extract log).perm.mem_iff.mpr hfound
  exact ⟨log, found, rfl, hlines.trans (by decide +kernel), hsorted, d, hmem, rfl, rfl, rfl, hform d hmem⟩

end BuildMender.Diagnostic
