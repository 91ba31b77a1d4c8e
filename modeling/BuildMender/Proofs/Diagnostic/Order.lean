import BuildMender.Diagnostic.Extract
import BuildMender.Proofs.Text.ByteOrder
import Mathlib.Data.List.Basic

/-!
# The order of diagnostics

Diagnostics are sorted by the place they point at: by the bytes of the file's name, and in one file by the
line. Those that point at one line of one file stay in the order in which they were found. That says
exactly which list comes out (`BuildMender.Diagnostic.sortedByPlace_iff`).

A list is sorted stably when elements that the order does not tell apart stay as they stood. For each
element, then, the elements level with it are the same list before and after
(`BuildMender.filter_level_mergeSort`), and there is only one sorted list of which that is true
(`BuildMender.eq_of_filter_level`). So to sort parts of a list first makes no difference
(`BuildMender.mergeSort_append_mergeSort`).
-/

namespace BuildMender

/-! ### Stable sorting -/

section Stable

variable {α : Type} {le : α → α → Bool}

/-- Whether an order does not tell two elements apart. -/
def level (le : α → α → Bool) (a b : α) : Bool := le a b && le b a

theorem level_iff {a b : α} : level le a b ↔ le a b ∧ le b a := Bool.and_eq_true_iff

/-- **Elements that are level with one another keep their order.** -/
theorem filter_level_mergeSort (trans : ∀ a b c, le a b → le b c → le a c)
    (total : ∀ a b, le a b || le b a) (a : α) (l : List α) :
    (l.mergeSort le).filter (level le a) = l.filter (level le a) := by
  -- the elements level with one are in order as they stand, so sorting keeps them as a sublist
  have hlevel : (l.filter (level le a)).Pairwise (le · ·) := by
    refine List.pairwise_of_forall_mem_list fun b hb c hc => ?_
    exact trans b a c (level_iff.mp (List.mem_filter.mp hb).2).2 (level_iff.mp (List.mem_filter.mp hc).2).1
  have hsub : (l.filter (level le a)).Sublist ((l.mergeSort le).filter (level le a)) := by
    have h := (List.sublist_mergeSort trans total hlevel List.filter_sublist).filter (level le a)
    simpa only [List.filter_filter, Bool.and_self] using h
  exact (hsub.eq_of_length ((List.mergeSort_perm l le).filter _).length_eq.symm).symm

/-- **A sorted list is known from the elements that are level with each.** -/
theorem eq_of_filter_level (refl : ∀ a, le a a) {s t : List α} (hs : s.Pairwise (le · ·)) (ht : t.Pairwise (le · ·))
    (h : ∀ a, s.filter (level le a) = t.filter (level le a)) : s = t := by
  have hself (a : α) : level le a a := level_iff.mpr ⟨refl a, refl a⟩
  have hmem {a : α} {s t : List α} (h : ∀ a, s.filter (level le a) = t.filter (level le a)) (ha : a ∈ s) :
      a ∈ t := by
    have : a ∈ s.filter (level le a) := List.mem_filter.mpr ⟨ha, hself a⟩
    exact (List.mem_filter.mp (h a ▸ this)).1
  induction s generalizing t with
  | nil =>
    cases t with
    | nil => rfl
    | cons b t => exact absurd (hmem (fun a => (h a).symm) List.mem_cons_self) List.not_mem_nil
  | cons a s ih =>
    cases t with
    | nil => exact absurd (hmem h List.mem_cons_self) List.not_mem_nil
    | cons b t =>
      obtain ⟨has, hs'⟩ := List.pairwise_cons.mp hs
      obtain ⟨hbt, ht'⟩ := List.pairwise_cons.mp ht
      -- each of the two first elements stands in the other list, so neither is before the other
      have hab : le a b := by
        rcases List.mem_cons.mp (hmem (fun a => (h a).symm) List.mem_cons_self) with rfl | hb
        · exact refl b
        · exact has b hb
      have hba : le b a := by
        rcases List.mem_cons.mp (hmem h List.mem_cons_self) with rfl | ha
        · exact refl a
        · exact hbt a ha
      have hfirst := h a
      rw [List.filter_cons_of_pos (hself a), List.filter_cons_of_pos (level_iff.mpr ⟨hab, hba⟩)] at hfirst
      obtain ⟨rfl, -⟩ := List.cons.inj hfirst
      refine congrArg (a :: ·) (ih hs' ht' fun c => ?_)
      have hc := h c
      rw [List.filter_cons, List.filter_cons] at hc
      split at hc
      · exact (List.cons.inj hc).2
      · exact hc

/-- **To sort parts of a list first makes no difference.** -/
theorem mergeSort_append_mergeSort (trans : ∀ a b c, le a b → le b c → le a c)
    (total : ∀ a b, le a b || le b a) (l m : List α) :
    (l.mergeSort le ++ m.mergeSort le).mergeSort le = (l ++ m).mergeSort le := by
  have refl (a : α) : le a a := (Bool.or_self (le a a)).symm.trans (total a a)
  refine eq_of_filter_level refl (List.pairwise_mergeSort trans total _)
    (List.pairwise_mergeSort trans total _) fun a => ?_
  simp only [filter_level_mergeSort trans total, List.filter_append]

end Stable

namespace Diagnostic

open Text

variable {a b c : Diagnostic} {found sorted : List Diagnostic}

/-! ### Before and after -/

theorem precedes_iff : precedes a b ↔
    byteList a.file < byteList b.file ∨ a.file = b.file ∧ a.line ≤ b.line := by
  rw [← Path.compareText_eq_lt, precedes]
  cases h : Path.compareText a.file b.file with
  | lt => simp
  | eq => simp [Path.eq_of_compareText h]
  | gt =>
    have hne : a.file ≠ b.file := by
      intro heq
      have hself : Path.compareText b.file b.file = .eq := Std.ReflCmp.compare_self
      rw [heq, hself] at h
      cases h
    simp [hne]

theorem precedes_trans (a b c : Diagnostic) (hab : precedes a b) (hbc : precedes b c) : precedes a c := by
  rw [precedes_iff] at *
  rcases hab with hab | ⟨hfile, hline⟩
  · rcases hbc with hbc | ⟨hfile, -⟩
    · exact Or.inl (List.lt_trans hab hbc)
    · exact Or.inl (hfile ▸ hab)
  · rcases hbc with hbc | ⟨hfile', hline'⟩
    · exact Or.inl (hfile ▸ hbc)
    · exact Or.inr ⟨hfile.trans hfile', UInt32.le_trans hline hline'⟩

theorem precedes_total (a b : Diagnostic) : precedes a b || precedes b a := by
  rw [Bool.or_eq_true, precedes_iff, precedes_iff]
  cases h : Path.compareText a.file b.file with
  | lt => exact Or.inl (Or.inl (Path.compareText_eq_lt.mp h))
  | gt => exact Or.inr (Or.inl (Path.compareText_eq_lt.mp (Std.OrientedCmp.lt_of_gt h)))
  | eq =>
    have hfile := Path.eq_of_compareText h
    rcases UInt32.le_total a.line b.line with hline | hline
    · exact Or.inl (Or.inr ⟨hfile, hline⟩)
    · exact Or.inr (Or.inr ⟨hfile.symm, hline⟩)

theorem precedes_refl (a : Diagnostic) : precedes a a :=
  precedes_iff.mpr (Or.inr ⟨rfl, UInt32.le_refl a.line⟩)

/-- The order does not tell diagnostics apart that point at one line of one file. -/
theorem level_precedes_iff : level precedes a b ↔ b.file = a.file ∧ b.line = a.line := by
  rw [level_iff, precedes_iff, precedes_iff]
  constructor
  · rintro ⟨hab | ⟨hfile, hab⟩, hba | ⟨hfile', hba⟩⟩
    · exact absurd hba (List.lt_asymm hab)
    · exact absurd (hfile' ▸ hab) (List.lt_irrefl _)
    · exact absurd (hfile ▸ hba) (List.lt_irrefl _)
    · exact ⟨hfile', UInt32.le_antisymm hba hab⟩
  · rintro ⟨hfile, hline⟩
    exact ⟨Or.inr ⟨hfile.symm, hline ▸ UInt32.le_refl _⟩, Or.inr ⟨hfile, hline ▸ UInt32.le_refl _⟩⟩

/-! ### Sorted diagnostics -/

/-- **Diagnostics sorted by the place they point at**: the same ones, ordered by the bytes of the file's
name and then by the line, where those that point at one line of one file stay in their order. -/
structure SortedByPlace (found sorted : List Diagnostic) : Prop where
  perm : sorted.Perm found
  ordered : sorted.Pairwise fun a b =>
    byteList a.file < byteList b.file ∨ a.file = b.file ∧ a.line ≤ b.line
  stable : ∀ file line, (sorted.filter fun d => d.file = file ∧ d.line = line) =
    found.filter fun d => d.file = file ∧ d.line = line

/-- **There is one way to sort diagnostics by place.** -/
theorem sortedByPlace_iff : SortedByPlace found sorted ↔ sorted = found.mergeSort precedes := by
  have hlevel (a : Diagnostic) :
      level precedes a = fun d => decide (d.file = a.file ∧ d.line = a.line) := by
    funext d
    rw [Bool.eq_iff_iff, level_precedes_iff, decide_eq_true_eq]
  constructor
  · intro h
    refine eq_of_filter_level precedes_refl (h.ordered.imp precedes_iff.mpr)
      (List.pairwise_mergeSort precedes_trans precedes_total _) fun a => ?_
    rw [filter_level_mergeSort precedes_trans precedes_total, hlevel, h.stable]
  · rintro rfl
    refine ⟨List.mergeSort_perm _ _,
      (List.pairwise_mergeSort precedes_trans precedes_total _).imp precedes_iff.mp, fun file line => ?_⟩
    have h := filter_level_mergeSort precedes_trans precedes_total
      { (default : Diagnostic) with file := file, line := line } found
    rwa [hlevel] at h

/-- The diagnostics of a log are those of its lines, sorted by place. -/
theorem sortedByPlace_extract (log : Text) : SortedByPlace (ofLines (logLines log)) (extract log) :=
  sortedByPlace_iff.mpr rfl

end Diagnostic

end BuildMender
