import BuildMender.Patch.Manager
import BuildMender.Proofs.Convention.Insertion
import BuildMender.Proofs.SourceFile

/-!
# Mending a broken convention mends it

A line that is put into a file has to be found there by the check. It is, as long as it is one line: a guard
(`BuildMender.Convention.hasGuard_insertGuard?`) and an include (`BuildMender.Convention.exists_line_appendLine?`).

A file is *settled* when the check finds nothing in it that inserting text can mend
(`BuildMender.Convention.Settled`). What mending leaves is settled
(`BuildMender.Convention.settled_foldl_mend`). Nothing is asked of the content for this, and of the
settings only that what is inserted is one line.
-/

namespace BuildMender

namespace Convention

open Text PatchManager

variable {settings : Settings} {p q : Path} {t directive addition content mended : Text}

/-! ### The two insertions -/

/-- **A header with the guard put in is guarded.** -/
theorem hasGuard_insertGuard? (hne : trim directive ≠ []) (hd : '\n' ∉ directive)
    (h : insertGuard? directive content = some mended) : hasGuard directive mended :=
  (hasGuard_inserted_iff h).mpr (Or.inl ⟨hne, fun hfeed => hd (trim_subset directive hfeed)⟩)

/-- **A file with a line put at its end has that line**: behind a line feed, or at the very beginning, it is a line
of its own, and trimming takes off what the ending adds to it. -/
theorem exists_line_appendLine? (hl : '\n' ∉ addition) (htrim : trim addition = addition)
    (h : appendLine? addition content = some mended) :
    (lines mended).any fun l => trim l == addition := by
  obtain ⟨-, rfl⟩ := appendLine?_eq_some.mp h
  obtain ⟨r, hr, hfeed, hblank⟩ := exists_lineEnding content
  have hcomplete : Complete (closed content ++ if (closed content).isEmpty then [] else lineEnding content) := by
    refine (complete_closed content).append ?_
    split
    · exact Or.inl rfl
    · exact Or.inr ⟨r, hr⟩
  have hlines : lines (addition ++ lineEnding content) = [withoutReturn (addition ++ r)] := by
    rw [hr, ← List.append_assoc, lines, rawLines_append_cons (by simp [hl, hfeed]), List.map_cons,
      withoutEnding_append]
    rfl
  rw [endBlock, List.append_assoc, ← List.append_assoc, hcomplete.lines_append, hlines, List.any_append]
  simp [trim_withoutReturn, trim_append_of_blank hblank, htrim]

/-! ### What is inserted is one line -/

/-- Settings whose guard is one line that is not blank, and whose include lines are lines. -/
structure Settings.Insertable (settings : Settings) : Prop where
  guard_ne_blank : trim settings.includeGuard ≠ []
  guard_oneLine : '\n' ∉ settings.includeGuard
  prefix_oneLine : '\n' ∉ settings.metaObjectPrefix

/-- The include line begins and ends with what is no blank. -/
theorem exists_metaObjectLine (settings : Settings) (p : Path) :
    ∃ inner, metaObjectLine settings p = '#' :: (inner ++ ['"']) := by
  have hopen : "#include \"".toList = '#' :: "include \"".toList := by decide
  have hclose : ".cpp\"".toList = ".cpp".toList ++ ['"'] := by decide
  refine ⟨"include \"".toList ++ settings.metaObjectPrefix ++ p.stem?.getD [] ++ ".cpp".toList, ?_⟩
  unfold metaObjectLine
  rw [hopen, hclose, ← List.append_assoc]
  rfl

theorem trim_metaObjectLine (settings : Settings) (p : Path) :
    trim (metaObjectLine settings p) = metaObjectLine settings p := by
  obtain ⟨inner, hline⟩ := exists_metaObjectLine settings p
  rw [hline]
  refine trim_of_ends (fun c hc => ?_) fun c hc => ?_
  · obtain rfl : '#' = c := by simpa using hc
    rfl
  · rw [← List.cons_append, List.getLast?_concat] at hc
    obtain rfl : '"' = c := by simpa using hc
    rfl

/-- The include line of a file is one line if the file's name is. -/
theorem oneLine_metaObjectLine (hs : settings.Insertable) (hname : ∀ n ∈ p.fileName?, '\n' ∉ n) :
    '\n' ∉ metaObjectLine settings p := by
  have hstem : '\n' ∉ p.stem?.getD [] := by
    rw [Path.stem?]
    cases hn : p.fileName? with
    | none => exact List.not_mem_nil
    | some n => exact fun hc => hname n hn ((Path.stem_prefix_name n).subset hc)
  have hopen : '\n' ∉ "#include \"".toList := by decide
  have hclose : '\n' ∉ ".cpp\"".toList := by decide
  unfold metaObjectLine
  simp only [List.mem_append, not_or]
  exact ⟨⟨⟨hopen, hs.prefix_oneLine⟩, hstem⟩, hclose⟩

/-! ### What the name of a file settles -/

theorem metaObjectLine_congr (h : p.fileName? = q.fileName?) :
    metaObjectLine settings p = metaObjectLine settings q := by
  unfold metaObjectLine
  rw [Path.stem?, Path.stem?, h]

theorem isHeader_of_breaksGuard (h : breaksGuard settings p t) : SourceFile.isHeader p := by
  simp only [breaksGuard, Bool.and_eq_true] at h
  exact h.1.2

theorem isImplementation_of_breaksMetaObject (h : breaksMetaObject settings p t) :
    SourceFile.isImplementation p := by
  simp only [breaksMetaObject, Bool.and_eq_true] at h
  exact h.1.1.2

/-- A header is asked for no include. -/
theorem breaksMetaObject_eq_false (h : SourceFile.isHeader p) : breaksMetaObject settings p t = false := by
  simp [breaksMetaObject, SourceFile.isImplementation_eq_false h]

/-- An implementation is asked for no guard. -/
theorem breaksGuard_eq_false (h : SourceFile.isImplementation p) :
    breaksGuard settings p t = false := by
  by_contra hc
  rw [SourceFile.isImplementation_eq_false (isHeader_of_breaksGuard (by simpa using hc))] at h
  cases h

/-! ### Settled files -/

/-- **A settled file**: the check finds nothing in it that inserting text can mend. -/
def Settled (settings : Settings) (p : Path) (t : Text) : Prop :=
  ∀ v ∈ check settings p t, v.autoFixable = false

instance (settings : Settings) (p : Path) (t : Text) : Decidable (Settled settings p t) :=
  inferInstanceAs (Decidable (∀ v ∈ check settings p t, v.autoFixable = false))

/-- What is found that inserting text can mend: the guard that lacks, and the include. -/
theorem filter_check : (check settings p t).filter Violation.autoFixable =
    ([includeGuard, metaObjectInclude].filter (breaks settings p t)).map fun k =>
      k.violation (advice settings p k) := by
  rw [check]
  split
  · rw [List.filter_map, List.filter_filter]
    simp [all, List.filter_cons, Convention.violation, autoFixable]
  · rename_i hsource
    rw [Bool.or_eq_true, not_or] at hsource
    have hguard : ¬breaks settings p t .includeGuard := fun h => hsource.1 (isHeader_of_breaksGuard h)
    have hmeta : ¬breaks settings p t .metaObjectInclude := fun h =>
      hsource.2 (isImplementation_of_breaksMetaObject h)
    simp [hguard, hmeta]

theorem settled_iff : Settled settings p t ↔
    breaksGuard settings p t = false ∧ breaksMetaObject settings p t = false := by
  have hfilter : Settled settings p t ↔ (check settings p t).filter Violation.autoFixable = [] := by
    simp [Settled, List.filter_eq_nil_iff]
  simp [hfilter, filter_check, List.filter_eq_nil_iff, breaks]

/-- Whether a file is settled is a matter of its name and content. -/
theorem settled_congr (h : p.fileName? = q.fileName?) : Settled settings p t ↔ Settled settings q t := by
  rw [settled_iff, settled_iff, breaksGuard, breaksGuard, breaksMetaObject, breaksMetaObject,
    SourceFile.isHeader_congr h, SourceFile.isImplementation_congr h, metaObjectLine_congr h]

/-- A file that is not settled is a header or an implementation. -/
theorem source_of_not_settled (h : ¬Settled settings p t) :
    SourceFile.isHeader p ∨ SourceFile.isImplementation p := by
  rw [settled_iff, not_and_or, Bool.not_eq_false, Bool.not_eq_false] at h
  exact h.imp isHeader_of_breaksGuard isImplementation_of_breaksMetaObject

/-! ### What mending leaves -/

/-- Mending leaves out what inserting text cannot mend. -/
theorem foldl_mend (vs : List Violation) (t : Text) :
    vs.foldl (mend settings p) t = (vs.filter Violation.autoFixable).foldl (mend settings p) t := by
  induction vs generalizing t with
  | nil => rfl
  | cons v more ih =>
    rw [List.foldl_cons, ih, List.filter_cons]
    split
    · rfl
    · rename_i hv
      rw [mend, if_neg hv]

/-- A header without a guard gets one, and has it then. -/
theorem exists_insertGuard? (hs : settings.Insertable) (h : breaksGuard settings p t) :
    ∃ mended, insertGuard? settings.includeGuard t = some mended ∧ breaksGuard settings p mended = false := by
  have hbare : ¬hasGuard settings.includeGuard t := by
    simp only [breaksGuard, Bool.and_eq_true, Bool.not_eq_true'] at h
    simp [h.2]
  refine ⟨_, if_neg hbare, ?_⟩
  rw [breaksGuard, hasGuard_insertGuard? hs.guard_ne_blank hs.guard_oneLine (if_neg hbare), Bool.not_true,
    Bool.and_false]

/-- So it is with an implementation and its include. -/
theorem exists_appendLine? (hs : settings.Insertable) (hname : ∀ n ∈ p.fileName?, '\n' ∉ n)
    (h : breaksMetaObject settings p t) :
    ∃ mended, appendLine? (metaObjectLine settings p) t = some mended ∧
      breaksMetaObject settings p mended = false := by
  have hbare : ¬(lines t).any fun l => trim l == metaObjectLine settings p := by
    simp only [breaksMetaObject, Bool.and_eq_true, Bool.not_eq_true'] at h
    simp [h.2]
  refine ⟨_, if_neg hbare, ?_⟩
  rw [breaksMetaObject, exists_line_appendLine? (oneLine_metaObjectLine hs hname)
    (trim_metaObjectLine settings p) (if_neg hbare), Bool.not_true, Bool.and_false]

/-- **What mending the violations of a file leaves is settled**, though they are found under one spelling
and mended under another. -/
theorem settled_foldl_mend (hs : settings.Insertable) (hname : ∀ n ∈ p.fileName?, '\n' ∉ n)
    (h : p.fileName? = q.fileName?) :
    Settled settings p ((check settings p t).foldl (mend settings q) t) := by
  rw [settled_iff, foldl_mend, filter_check]
  -- a header can only lack its guard, and an implementation its include, so that one insertion is all
  cases hguard : breaksGuard settings p t with
  | true =>
    obtain ⟨mended, hmended, hsettled⟩ := exists_insertGuard? hs hguard
    have hmeta (t : Text) : breaksMetaObject settings p t = false :=
      breaksMetaObject_eq_false (isHeader_of_breaksGuard hguard)
    have hfound : [includeGuard, metaObjectInclude].filter (breaks settings p t) = [includeGuard] := by
      simp [breaks, hguard, hmeta]
    have hmend (advice : Text) : mend settings q t (includeGuard.violation advice) = mended :=
      congrArg (Option.getD · t) hmended
    rw [hfound, List.map_singleton, List.foldl_cons, List.foldl_nil, hmend]
    exact ⟨hsettled, hmeta mended⟩
  | false =>
    cases hmeta : breaksMetaObject settings p t with
    | true =>
      obtain ⟨mended, hmended, hsettled⟩ := exists_appendLine? hs hname hmeta
      rw [metaObjectLine_congr h] at hmended
      have hfound : [includeGuard, metaObjectInclude].filter (breaks settings p t) = [metaObjectInclude] := by
        simp [breaks, hguard, hmeta]
      have hmend (advice : Text) : mend settings q t (metaObjectInclude.violation advice) = mended :=
        congrArg (Option.getD · t) hmended
      rw [hfound, List.map_singleton, List.foldl_cons, List.foldl_nil, hmend]
      exact ⟨breaksGuard_eq_false (isImplementation_of_breaksMetaObject hmeta), hsettled⟩
    | false =>
      have hfound : [includeGuard, metaObjectInclude].filter (breaks settings p t) = [] := by
        simp [breaks, hguard, hmeta]
      rw [hfound]
      exact ⟨hguard, hmeta⟩

end Convention

end BuildMender
