import BuildMender.Text.Basic
import Mathlib.Data.List.Infix

/-!
# Where a text is cut

A text is cut at the first place where a pattern stands. Such a place may also begin in the text before the
pattern and end inside it, so the text before is read with the pattern behind it, less its last character:
if the pattern is not found there, it is found where it was put (`BuildMender.Text.cut_append`). From the
end of the text it is the other way round (`BuildMender.Text.cutLast_append`).
-/

namespace BuildMender.Text

variable {pat before after t : Text}

/-! ### One place after another -/

theorem cut_nil (hne : pat ≠ []) : cut pat [] = none := if_neg (by simpa using hne)

theorem cut_cons_of_some {c : Char} {rest : Text} (h : after? pat (c :: t) = some rest) :
    cut pat (c :: t) = some ([], rest) := by
  have hhere : pat.isPrefixOf? (c :: t) = some rest := h
  rw [cut, hhere]

theorem cut_cons_of_none {c : Char} (h : after? pat (c :: t) = none) :
    cut pat (c :: t) = (cut pat t).map fun p => (c :: p.1, p.2) := by
  have hhere : pat.isPrefixOf? (c :: t) = none := h
  rw [cut, hhere]

theorem cut_eq_none (h : ¬pat <:+: t) : cut pat t = none := by
  rw [Option.eq_none_iff_forall_ne_some]
  rintro ⟨before, after⟩ hcut
  exact h ⟨before, after, (eq_of_cut hcut).symm⟩

theorem occurs_iff : occurs pat t ↔ pat <:+: t := by
  induction t with
  | nil => rw [occurs, List.isEmpty_iff, List.infix_nil]
  | cons c t ih => rw [occurs, Bool.or_eq_true, List.isPrefixOf_iff_prefix, ih, List.infix_cons_iff]

/-! ### Up to a character -/

theorem takeWhile_append_cons {p : Char → Bool} {stop : Char} (h : ∀ c ∈ before, p c) (hstop : p stop = false)
    (after : Text) : (before ++ stop :: after).takeWhile p = before := by
  rw [List.takeWhile_append_of_pos h, List.takeWhile_cons_of_neg (by simp [hstop]), List.append_nil]

theorem dropWhile_append_cons {p : Char → Bool} {stop : Char} (h : ∀ c ∈ before, p c) (hstop : p stop = false)
    (after : Text) : (before ++ stop :: after).dropWhile p = stop :: after := by
  rw [List.dropWhile_append_of_pos h]
  exact List.dropWhile_cons_of_neg (by simp [hstop])

theorem takeWhile_append_stop {stop : Char} (h : stop ∉ before) (after : Text) :
    (before ++ stop :: after).takeWhile (· ≠ stop) = before :=
  takeWhile_append_cons (fun _ hc => by simpa using ne_of_mem_of_not_mem hc h) (by simp) after

theorem dropWhile_append_stop {stop : Char} (h : stop ∉ before) (after : Text) :
    (before ++ stop :: after).dropWhile (· ≠ stop) = stop :: after :=
  dropWhile_append_cons (fun _ hc => by simpa using ne_of_mem_of_not_mem hc h) (by simp) after

/-! ### Where a pattern was put -/

theorem cut_append (hne : pat ≠ []) (h : ¬pat <:+: before ++ pat.dropLast) :
    cut pat (before ++ (pat ++ after)) = some (before, after) := by
  induction before with
  | nil =>
    obtain ⟨p, ps, rfl⟩ := List.exists_cons_of_ne_nil hne
    have hhere : (p :: ps).isPrefixOf? (p :: (ps ++ after)) = some after :=
      List.isPrefixOf?_eq_some_iff_append_eq.mpr rfl
    rw [List.nil_append, List.cons_append, cut, hhere]
  | cons c cs ih =>
    have hnot : pat.isPrefixOf? (c :: (cs ++ (pat ++ after))) = none := by
      rw [Option.eq_none_iff_forall_ne_some]
      intro rest hrest
      have hpat : pat <+: c :: (cs ++ (pat ++ after)) :=
        ⟨rest, List.isPrefixOf?_eq_some_iff_append_eq.mp hrest⟩
      -- a pattern that stood here would end before the last character of the one that was put
      have hfront : c :: cs ++ pat.dropLast <+: c :: (cs ++ (pat ++ after)) :=
        (List.prefix_append_right_inj (c :: cs)).mpr ((List.dropLast_prefix pat).trans (List.prefix_append ..))
      refine h (List.prefix_of_prefix_length_le hpat hfront ?_).isInfix
      have hlength : pat.length ≠ 0 := fun hzero => hne (List.eq_nil_of_length_eq_zero hzero)
      rw [List.length_append, List.length_dropLast, List.length_cons]
      omega
    have hrest : ¬pat <:+: cs ++ pat.dropLast := fun hinside => h (hinside.trans (List.suffix_cons c _).isInfix)
    rw [List.cons_append, cut, hnot, ih hrest]
    rfl

theorem cutLast_append (hne : pat ≠ []) (h : ¬pat <:+: pat.tail ++ after) :
    cutLast pat (before ++ (pat ++ after)) = some (before, after) := by
  have hreverse : ¬pat.reverse <:+: after.reverse ++ pat.reverse.dropLast := by
    rwa [List.dropLast_reverse, ← List.reverse_append, List.reverse_infix]
  have hcut : cut pat.reverse (after.reverse ++ (pat.reverse ++ before.reverse)) =
      some (after.reverse, before.reverse) := cut_append (by simpa using hne) hreverse
  rw [cutLast, List.reverse_append, List.reverse_append, List.append_assoc, hcut, Option.map_some,
    List.reverse_reverse, List.reverse_reverse]

/-- Nothing is lost at a cut from the end. -/
theorem eq_of_cutLast (h : cutLast pat t = some (before, after)) : t = before ++ pat ++ after := by
  obtain ⟨⟨a, b⟩, hcut, h⟩ := Option.map_eq_some_iff.mp h
  cases h
  have hreverse := congrArg List.reverse (eq_of_cut hcut)
  simpa using hreverse

/-! ### At one character -/

/-- The character that a text is cut at does not stand before the cut. -/
theorem not_mem_of_cut {c : Char} (h : cut [c] t = some (before, after)) : c ∉ before := by
  induction t generalizing before with
  | nil => cases h
  | cons d t ih =>
    cases hhere : after? [c] (d :: t) with
    | some rest =>
      rw [cut_cons_of_some hhere] at h
      cases h
      exact List.not_mem_nil
    | none =>
      rw [cut_cons_of_none hhere] at h
      obtain ⟨⟨b, s⟩, hcut, h⟩ := Option.map_eq_some_iff.mp h
      cases h
      have hne : c ≠ d := by
        rintro rfl
        simp [after?, List.isPrefixOf?] at hhere
      exact List.not_mem_cons_of_ne_of_not_mem hne (ih hcut)

/-- From the end, it does not stand after the cut. -/
theorem not_mem_of_cutLast {c : Char} (h : cutLast [c] t = some (before, after)) : c ∉ after := by
  obtain ⟨⟨b, s⟩, hcut, h⟩ := Option.map_eq_some_iff.mp h
  cases h
  rw [List.mem_reverse]
  exact not_mem_of_cut hcut

end BuildMender.Text
