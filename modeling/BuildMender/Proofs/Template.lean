import BuildMender.Proofs.Text.Cut
import BuildMender.Template

/-!
# What a filled template says

A template is read from left to right, and a hole is where two braces open before two braces close. Written
out as stretches of text with a hole behind each (`BuildMender.Template.written`), it is filled stretch by
stretch, all holes at once: the value of a hole stands in the result as it is, whatever it looks like
(`BuildMender.Template.interpolate_written`).

The one thing to arrange is that every hole is found where it was written
(`BuildMender.Template.segments_source_append`). A brace at the end of the text in front of it would open it too
early, and a closing brace between its braces could close it too early (`BuildMender.Template.Stretch.IsPlain`).
What stands behind a hole is then read as if it stood alone, and where no further hole is closed it stays as it
is (`BuildMender.Template.interpolate_of_unclosed`).
-/

namespace BuildMender.Template

open Text

/-! ### Templates written out -/

/-- A stretch of a template: some text and what stands between the braces of the hole behind it. -/
structure Stretch where
  text : Text
  inner : Text

namespace Stretch

/-- A stretch as it is written. -/
def source (s : Stretch) : Text := s.text ++ (opening ++ (s.inner ++ closing))

/-- A stretch with its hole filled: with the value of the name in it, or with the hole as it was. -/
def filled (value : Text → Option Text) (s : Stretch) : Text :=
  s.text ++
    match value (trim s.inner) with
    | some v => v
    | none => opening ++ (s.inner ++ closing)

/-- **The hole of a stretch stands where it seems to**: no hole is opened in the text, nor by a brace at its end
together with those of the hole, and no brace closes the hole inside. -/
structure IsPlain (s : Stretch) : Prop where
  unopened : ¬opening <:+: s.text
  apart : s.text.getLast? ≠ some '{'
  unclosed : '}' ∉ s.inner

end Stretch

/-- A template written as stretches with some text behind them. -/
def written (ss : List Stretch) (last : Text) : Text := ss.flatMap Stretch.source ++ last

/-- The stretches of a template filled, and the text behind them. -/
def filled (value : Text → Option Text) (ss : List Stretch) (last : Text) : Text :=
  ss.flatMap (Stretch.filled value) ++ last

variable {value : Text → Option Text} {s : Stretch} {ss : List Stretch} {t last rest : Text} {c : Char}

/-! ### The first hole -/

/-- A pair of characters is not found where only its first one could begin it. -/
theorem not_pair_concat (h : ¬[c, c] <:+: t) (hlast : t.getLast? ≠ some c) : ¬[c, c] <:+: t ++ [c] := by
  intro hinfix
  rcases List.infix_concat_iff.mp hinfix with ⟨front, hfront⟩ | hinside
  · have hsplit : (front ++ [c]) ++ [c] = t ++ [c] := by simpa using hfront
    rw [← List.append_cancel_right hsplit, List.getLast?_concat] at hlast
    exact hlast rfl
  · exact h hinside

/-- **A hole is found where it was written**, and what follows is read as if it stood alone. -/
theorem segments_source_append (h : s.IsPlain) (t : Text) :
    segments (s.source ++ t) = .literal s.text :: .hole s.inner :: segments t := by
  have hopening : cut opening (s.source ++ t) = some (s.text, s.inner ++ (closing ++ t)) := by
    have hcut : cut opening (s.text ++ (opening ++ (s.inner ++ (closing ++ t)))) =
        some (s.text, s.inner ++ (closing ++ t)) :=
      cut_append (by decide) (not_pair_concat h.unopened h.apart)
    simpa [Stretch.source] using hcut
  have hclosing : cut closing (s.inner ++ (closing ++ t)) = some (s.inner, t) := by
    refine cut_append (by decide) (not_pair_concat (fun hinside => ?_) fun hlast => ?_)
    · exact h.unclosed (hinside.subset (List.mem_cons_self ..))
    · exact h.unclosed (List.mem_of_getLast? hlast)
  rw [segments]
  split
  · rename_i hnone
    rw [hopening] at hnone
    cases hnone
  · rename_i before after hsome
    obtain ⟨rfl, rfl⟩ := Prod.mk.inj (Option.some.inj (hopening.symm.trans hsome))
    split
    · rename_i hnone
      rw [hclosing] at hnone
      cases hnone
    · rename_i inner rest hsome
      obtain ⟨rfl, rfl⟩ := Prod.mk.inj (Option.some.inj (hclosing.symm.trans hsome))
      rfl

/-- **One stretch is filled**, and what follows as if it stood alone. -/
theorem interpolate_source_append (h : s.IsPlain) (t : Text) :
    interpolate value (s.source ++ t) = s.filled value ++ interpolate value t := by
  rw [interpolate, segments_source_append h, List.flatMap_cons, List.flatMap_cons, ← interpolate,
    ← List.append_assoc]
  congr 1
  rw [Stretch.filled, Segment.fill, Segment.fill]
  cases value (trim s.inner) with
  | some v => rfl
  | none => simp [Segment.source]

/-! ### Behind the last hole -/

/-- **A text in which no hole is closed** behind the first that is opened stays as it is. -/
theorem interpolate_of_unclosed
    (h : ∀ before after, cut opening t = some (before, after) → ¬closing <:+: after) :
    interpolate value t = t := by
  rw [interpolate, segments]
  split
  · simp [Segment.fill]
  · rename_i before after hopening
    have hclosing : cut closing after = none := cut_eq_none (h before after hopening)
    split
    · simp [Segment.fill, eq_of_cut hopening]
    · rename_i hsome
      rw [hclosing] at hsome
      cases hsome

theorem interpolate_of_unopened (h : ¬opening <:+: t) : interpolate value t = t := by
  refine interpolate_of_unclosed fun before after hcut => ?_
  rw [cut_eq_none h] at hcut
  cases hcut

/-- A hole that is opened behind some text and never closed. -/
theorem interpolate_of_open (hlast : ¬opening <:+: last) (hrest : ¬closing <:+: rest) :
    interpolate value (last ++ (opening ++ rest)) = last ++ (opening ++ rest) := by
  refine interpolate_of_unclosed fun before after hcut hinside => ?_
  have hsplit : last ++ (opening ++ rest) = before ++ opening ++ after := eq_of_cut hcut
  -- the first opening may begin with a brace at the end of the text, but not before
  have hlong : last.length < (before ++ opening).length := by
    by_contra hshort
    have hprefix : before ++ opening <+: last ++ (opening ++ rest) := ⟨after, hsplit.symm⟩
    have hinlast := List.prefix_of_prefix_length_le hprefix (List.prefix_append ..) (Nat.le_of_not_lt hshort)
    exact hlast ((List.suffix_append before opening).isInfix.trans hinlast.isInfix)
  have hafter : after <:+ '{' :: rest := by
    refine List.suffix_of_suffix_length_le ⟨before ++ opening, hsplit.symm⟩ ⟨last ++ ['{'], by simp [opening]⟩ ?_
    have hlength := congrArg List.length hsplit
    simp only [List.length_append, List.length_cons, opening, List.length_nil] at hlength hlong ⊢
    omega
  rcases List.infix_cons_iff.mp (hinside.trans hafter.isInfix) with hprefix | hinrest
  · obtain ⟨more, hmore⟩ := hprefix
    cases hmore
  · exact hrest hinrest

/-! ### All holes -/

theorem interpolate_written_append (h : ∀ s ∈ ss, s.IsPlain) (hstays : interpolate value last = last) :
    interpolate value (written ss last) = filled value ss last := by
  induction ss with
  | nil => exact hstays
  | cons s ss ih =>
    obtain ⟨hs, hss⟩ := List.forall_mem_cons.mp h
    rw [written, List.flatMap_cons, List.append_assoc, interpolate_source_append hs, ← written, ih hss, filled,
      filled, List.flatMap_cons, List.append_assoc]

/-- **A template is filled all at once.** Every hole is replaced by the value of the name in it, which stands
there as it is, or stays if there is no such value; all other text stays, and so does everything from braces on
that are opened behind the last hole and never closed. -/
theorem interpolate_written (value : Text → Option Text) {ss : List Stretch} {last : Text}
    (h : ∀ s ∈ ss, s.IsPlain) (hlast : ¬opening <:+: last) :
    interpolate value (written ss last) = filled value ss last ∧
      ∀ rest, ¬closing <:+: rest →
        interpolate value (written ss (last ++ (opening ++ rest))) = filled value ss (last ++ (opening ++ rest)) :=
  ⟨interpolate_written_append h (interpolate_of_unopened hlast),
    fun _ hrest => interpolate_written_append h (interpolate_of_open hlast hrest)⟩

/-- A template with a hole whose value looks like another hole, one with blanks in it, and one without a value. -/
def lookalike : List Stretch := [⟨[], "a"⟩, ⟨" ", " b "⟩, ⟨" ", "c"⟩]

/-- The value that looks like a hole is not filled, and braces that are not closed open nothing. -/
theorem lookalike_stays :
    (∀ s ∈ lookalike, s.IsPlain) ∧ ¬opening <:+: [' ', '{'] ∧ ¬closing <:+: ['a', '}'] ∧
      interpolate (ofPairs [("a", "{{b}}"), ("b", "é")]) "{{a}} {{ b }} {{c}} \x7b\x7b\x7ba\x7d" =
        "{{b}} é {{c}} \x7b\x7b\x7ba\x7d".toList := by
  have hplain : ∀ s ∈ lookalike, s.IsPlain := by
    simp only [lookalike, List.forall_mem_cons]
    exact ⟨⟨by decide, by decide, by decide⟩, ⟨by decide, by decide, by decide⟩,
      ⟨by decide, by decide, by decide⟩, nofun⟩
  have hlast : ¬opening <:+: [' ', '{'] := by decide
  have hrest : ¬closing <:+: ['a', '}'] := by decide
  have hwritten : written lookalike ([' ', '{'] ++ (opening ++ ['a', '}'])) =
      "{{a}} {{ b }} {{c}} \x7b\x7b\x7ba\x7d".toList := by decide
  refine ⟨hplain, hlast, hrest, ?_⟩
  rw [← hwritten, (interpolate_written _ hplain hlast).2 _ hrest]
  decide

end BuildMender.Template
