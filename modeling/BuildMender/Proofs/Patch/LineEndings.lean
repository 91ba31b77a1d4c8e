import BuildMender.Patch.EditStep
import BuildMender.Proofs.Text.Cut
import BuildMender.Proofs.Text.Line

/-!
# Steps and line endings

A step is written with line feeds, and the file it is for may end its lines with carriage returns as well. The
text to find is found in such a file exactly where it would be found without the returns
(`BuildMender.Text.cut_withReturns`), and it never stands there as it is written if it goes over the end of a
line. So whether a step can be applied does not depend on the endings of the file.

What is put there does. The endings of the replacement are turned into those of the file only where the text to
find had to be, because it goes on behind the end of a line. A text to find within one line is replaced by
lines with bare line feeds; one that begins with a line feed leaves the carriage return before it behind; and
what is appended has bare line feeds in any case. `BuildMender.EditStep.apply_withReturns_iff` says exactly which
steps leave the endings of a file alone.
-/

namespace BuildMender

open Text

variable {pat t c : Text}

namespace EditStep

@[simp] theorem withReturns_nil : withReturns [] = [] := rfl

@[simp] theorem withReturns_lineFeed_cons (t : Text) :
    withReturns ('\n' :: t) = '\r' :: '\n' :: withReturns t := rfl

theorem withReturns_cons {x : Char} (h : x ≠ '\n') (t : Text) :
    withReturns (x :: t) = x :: withReturns t := by
  simp [withReturns, h]

@[simp] theorem withReturns_append (a b : Text) :
    withReturns (a ++ b) = withReturns a ++ withReturns b := List.flatMap_append

/-- A text of one line has no endings to be changed. -/
theorem withReturns_of_oneLine (h : '\n' ∉ t) : withReturns t = t := by
  induction t with
  | nil => rfl
  | cons x t ih =>
    obtain ⟨hx, ht⟩ := not_or.mp (mt List.mem_cons.mpr h)
    rw [withReturns_cons (Ne.symm hx), ih ht]

theorem length_withReturns (t : Text) : (withReturns t).length = t.length + t.count '\n' := by
  induction t with
  | nil => rfl
  | cons x t ih =>
    by_cases hx : x = '\n'
    · subst hx
      simp [ih]
      omega
    · rw [withReturns_cons hx, List.length_cons, ih, List.count_cons_of_ne hx, List.length_cons]
      omega

/-- Only a text of one line stays as it is. -/
theorem withReturns_eq_self_iff : withReturns t = t ↔ '\n' ∉ t := by
  refine ⟨fun h hmem => ?_, withReturns_of_oneLine⟩
  have hlength := congrArg List.length h
  have hcount : 0 < t.count '\n' := List.count_pos_iff.mpr hmem
  rw [length_withReturns] at hlength
  omega

end EditStep

namespace Text

open EditStep

/-- No text begins inside an ending. -/
theorem exists_withReturns (hne : pat ≠ []) : ∃ d ds, withReturns pat = d :: ds ∧ d ≠ '\n' := by
  obtain ⟨x, pat, rfl⟩ := List.exists_cons_of_ne_nil hne
  by_cases hxfeed : x = '\n'
  · exact ⟨'\r', '\n' :: withReturns pat, by rw [hxfeed, withReturns_lineFeed_cons], by decide⟩
  · exact ⟨x, withReturns pat, withReturns_cons hxfeed pat, hxfeed⟩

/-- A text begins alike whatever the line endings. -/
theorem after?_withReturns (hpat : '\r' ∉ pat) (ht : '\r' ∉ t) :
    after? (withReturns pat) (withReturns t) = (after? pat t).map withReturns := by
  induction pat generalizing t with
  | nil => rfl
  | cons x pat ih =>
    obtain ⟨hx, hpat⟩ := not_or.mp (mt List.mem_cons.mpr hpat)
    cases t with
    | nil =>
      by_cases hxfeed : x = '\n'
      · rw [hxfeed]
        rfl
      · rw [withReturns_cons hxfeed]
        rfl
    | cons y t =>
      obtain ⟨hy, ht⟩ := not_or.mp (mt List.mem_cons.mpr ht)
      have ih := ih hpat ht
      -- where only one of the two is a line feed, the ending of the other text begins with neither
      by_cases hxfeed : x = '\n' <;> by_cases hyfeed : y = '\n'
      · rw [hxfeed, hyfeed, withReturns_lineFeed_cons, withReturns_lineFeed_cons, after?_cons_self,
          after?_cons_self, after?_cons_self, ih]
      · rw [hxfeed, withReturns_lineFeed_cons, withReturns_cons hyfeed, after?_cons_of_ne rfl (Ne.symm hy),
          after?_cons_of_ne rfl hyfeed, Option.map_none]
      · rw [hyfeed, withReturns_cons hxfeed, withReturns_lineFeed_cons, after?_cons_of_ne rfl hx,
          after?_cons_of_ne rfl (Ne.symm hxfeed), Option.map_none]
      · rw [withReturns_cons hxfeed, withReturns_cons hyfeed]
        by_cases hxy : y = x
        · rw [hxy, after?_cons_self, after?_cons_self, ih]
        · rw [after?_cons_of_ne rfl hxy, after?_cons_of_ne rfl hxy, Option.map_none]

/-- **A text is found whatever the line endings**, if it has those of the text it is looked for in. -/
theorem cut_withReturns (hne : pat ≠ []) (hpat : '\r' ∉ pat) (ht : '\r' ∉ t) :
    cut (withReturns pat) (withReturns t) =
      (cut pat t).map fun p => (withReturns p.1, withReturns p.2) := by
  obtain ⟨d, ds, hd, hdfeed⟩ := exists_withReturns hne
  induction t with
  | nil => rw [withReturns_nil, cut_nil (hd ▸ List.cons_ne_nil d ds), cut_nil hne, Option.map_none]
  | cons y t ih =>
    have hhere := after?_withReturns hpat ht
    have ih := ih (mt (List.mem_cons_of_mem y) ht)
    by_cases hyfeed : y = '\n'
    · subst hyfeed
      rw [withReturns_lineFeed_cons] at hhere ⊢
      cases hafter : after? pat ('\n' :: t) with
      | some rest =>
        rw [hafter] at hhere
        rw [cut_cons_of_some hafter, cut_cons_of_some hhere, Option.map_some, withReturns_nil]
      | none =>
        -- nothing is found that begins inside an ending
        have hinside : after? (withReturns pat) ('\n' :: withReturns t) = none :=
          after?_cons_of_ne (congrArg List.head? hd) (Ne.symm hdfeed) _
        rw [hafter] at hhere
        rw [cut_cons_of_none hafter, cut_cons_of_none hhere, cut_cons_of_none hinside, ih]
        cases cut pat t <;> rfl
    · rw [withReturns_cons hyfeed] at hhere ⊢
      cases hafter : after? pat (y :: t) with
      | some rest =>
        rw [hafter] at hhere
        rw [cut_cons_of_some hafter, cut_cons_of_some hhere, Option.map_some, withReturns_nil]
      | none =>
        rw [hafter] at hhere
        rw [cut_cons_of_none hafter, cut_cons_of_none hhere, ih]
        cases cut pat t with
        | none => rfl
        | some p => simp [withReturns_cons hyfeed]

/-- A text that begins with a line feed is found behind the carriage return. -/
theorem cut_lineFeed_cons (hpat : '\n' ∉ pat) (hreturn : '\r' ∉ pat) (ht : '\r' ∉ t) :
    cut ('\n' :: pat) (withReturns t) =
      (cut ('\n' :: pat) t).map fun p => (withReturns p.1 ++ ['\r'], withReturns p.2) := by
  induction t with
  | nil => rfl
  | cons y t ih =>
    have htail : '\r' ∉ t := mt (List.mem_cons_of_mem y) ht
    have ih := ih htail
    by_cases hyfeed : y = '\n'
    · subst hyfeed
      have hreturn' : after? ('\n' :: pat) ('\r' :: '\n' :: withReturns t) = none :=
        after?_cons_of_ne rfl (by decide) _
      have hhere : after? ('\n' :: pat) ('\n' :: withReturns t) =
          (after? ('\n' :: pat) ('\n' :: t)).map withReturns := by
        have hbehind := after?_withReturns hreturn htail
        rwa [withReturns_of_oneLine hpat, ← after?_cons_self '\n', ← after?_cons_self '\n' pat t] at hbehind
      rw [withReturns_lineFeed_cons, cut_cons_of_none hreturn']
      cases hafter : after? ('\n' :: pat) ('\n' :: t) with
      | some rest =>
        rw [hafter] at hhere
        rw [cut_cons_of_some hafter, cut_cons_of_some hhere]
        rfl
      | none =>
        rw [hafter] at hhere
        rw [cut_cons_of_none hafter, cut_cons_of_none hhere, ih]
        cases cut ('\n' :: pat) t <;> rfl
    · have hnone (u : Text) : after? ('\n' :: pat) (y :: u) = none := after?_cons_of_ne rfl hyfeed u
      rw [withReturns_cons hyfeed, cut_cons_of_none (hnone _), cut_cons_of_none (hnone _), ih]
      cases cut ('\n' :: pat) t with
      | none => rfl
      | some p => simp [withReturns_cons hyfeed]

end Text

namespace EditStep

/-! ### Texts without bare line feeds -/

/-- **No line feed is bare**: before each stands a carriage return. -/
def Returned (t : Text) : Prop := ∀ a b, t = a ++ '\n' :: b → a.getLast? = some '\r'

theorem Returned.append {a b : Text} (ha : Returned a) (hb : Returned b) : Returned (a ++ b) := by
  intro u v huv
  rcases List.append_eq_append_iff.mp huv with ⟨u', rfl, hb'⟩ | ⟨v', rfl, hv'⟩
  · rw [List.getLast?_append, hb u' v hb', Option.some_or]
  · cases v' with
    | nil => exact absurd (hb [] v hv'.symm) (by simp)
    | cons y v' =>
      obtain ⟨rfl, rfl⟩ := List.cons.inj hv'
      exact ha u v' rfl

theorem returned_of_oneLine (h : '\n' ∉ t) : Returned t := fun a b hab => absurd (hab ▸ by simp) h

theorem returned_ending : Returned ['\r', '\n'] := by
  rintro (_ | ⟨r, _ | ⟨f, a⟩⟩) b hab
  · exact absurd (List.cons.inj hab).1 (by decide)
  · rw [(List.cons.inj hab).1]
    rfl
  · simp at hab

theorem returned_withReturns (t : Text) : Returned (withReturns t) := by
  induction t with
  | nil => exact returned_of_oneLine List.not_mem_nil
  | cons x t ih =>
    by_cases hxfeed : x = '\n'
    · rw [hxfeed]
      exact returned_ending.append ih
    · rw [withReturns_cons hxfeed]
      exact (returned_of_oneLine (t := [x]) (by simpa using Ne.symm hxfeed)).append ih

/-- Where there are no carriage returns, every line feed is bare. -/
theorem returned_iff (ht : '\r' ∉ t) : Returned t ↔ '\n' ∉ t := by
  refine ⟨fun h hmem => ?_, returned_of_oneLine⟩
  obtain ⟨a, b, rfl⟩ := List.append_of_mem hmem
  exact ht (List.mem_append_left _ (List.mem_of_getLast? (h a b rfl)))

/-- Behind a carriage return a text may begin with a line feed. -/
theorem returned_return_cons_iff (ht : '\r' ∉ t) : Returned ('\r' :: t) ↔ '\n' ∉ t.tail := by
  cases t with
  | nil => exact ⟨fun _ => List.not_mem_nil, fun _ => returned_of_oneLine (by decide)⟩
  | cons x t =>
    constructor
    · intro h hmem
      obtain ⟨a, b, rfl⟩ := List.append_of_mem (show '\n' ∈ t from hmem)
      have hlast := h ('\r' :: x :: a) b rfl
      rw [List.getLast?_cons_cons] at hlast
      have hmem : '\r' ∈ x :: a := List.mem_of_getLast? hlast
      exact ht (List.mem_append_left _ hmem)
    · intro h
      have hfront : Returned ['\r', x] := by
        by_cases hxfeed : x = '\n'
        · exact hxfeed ▸ returned_ending
        · exact returned_of_oneLine (by simpa using Ne.symm hxfeed)
      exact hfront.append (returned_of_oneLine (show '\n' ∉ t from h))

/-- An ending ends with its line feed. -/
theorem getLast?_withReturns_ne (ht : '\r' ∉ t) : (withReturns t).getLast? ≠ some '\r' := by
  rcases List.eq_nil_or_concat t with rfl | ⟨t, x, rfl⟩
  · simp
  · have hx : x ≠ '\r' := fun h => ht (by simp [h])
    rw [List.concat_eq_append, withReturns_append]
    by_cases hxfeed : x = '\n'
    · rw [hxfeed, withReturns_lineFeed_cons]
      simp
    · rw [withReturns_cons hxfeed]
      simpa using hx

/-- **What stands between texts with changed endings** is all that decides. -/
theorem returned_between_iff {before after : Text} (hbefore : '\r' ∉ before) :
    Returned (withReturns before ++ t ++ withReturns after) ↔ Returned t := by
  constructor
  · intro h a b hab
    have hlast := h (withReturns before ++ a) (b ++ withReturns after) (by simp [hab])
    rw [List.getLast?_append] at hlast
    cases ha : a.getLast? with
    | none =>
      rw [ha, Option.none_or] at hlast
      exact absurd hlast (getLast?_withReturns_ne hbefore)
    | some d => rwa [ha, Option.some_or] at hlast
  · exact fun h => ((returned_withReturns before).append h).append (returned_withReturns after)

/-! ### What is put in the place of a text -/

variable {step : EditStep}

/-- **What takes the place of the text to find** in a file with carriage returns, between the texts before and
behind it with their endings. A carriage return in front of it was there before. -/
def inserted (step : EditStep) : Text :=
  if '\n' ∈ step.search.tail then withReturns step.replacement
  else if step.search.head? = some '\n' then '\r' :: step.replacement
  else step.replacement

/-- A text without carriage returns is only searched for the step as it is written. -/
theorem apply_eq_replaceFirst? (hne : step.search ≠ []) (hc : '\r' ∉ c) :
    step.apply c = replaceFirst? step.search step.replacement c := by
  have hnone : occurs "\r\n" c = false := by
    rw [← Bool.not_eq_true, occurs_iff]
    exact fun h => hc (h.subset (by decide))
  rw [apply, if_neg (by simpa using hne), hnone, if_neg Bool.false_ne_true]
  cases replaceFirst? step.search step.replacement c <;> rfl

/-- A text that goes on behind the end of a line does not stand there as it is written. -/
theorem cut_eq_none_of_inner (hinner : '\n' ∈ pat.tail) (hpat : '\r' ∉ pat) (t : Text) :
    cut pat (withReturns t) = none := by
  refine cut_eq_none ?_
  rintro ⟨before, after, hwhole⟩
  obtain ⟨x, pat, rfl⟩ := List.exists_cons_of_ne_nil (l := pat) (by rintro rfl; cases hinner)
  obtain ⟨u, v, rfl⟩ := List.append_of_mem (show '\n' ∈ pat from hinner)
  -- the character before its line feed is one of its own
  have hlast := returned_withReturns t (before ++ x :: u) (v ++ after) (by simp [← hwhole])
  rw [List.getLast?_append_of_ne_nil _ (List.cons_ne_nil x u)] at hlast
  have hmem : '\r' ∈ x :: u := List.mem_of_getLast? hlast
  exact hpat (List.mem_append_left _ hmem)

/-- Any other text does, wherever it would stand without the carriage returns. -/
theorem replaceFirst?_withReturns (hinner : '\n' ∉ step.search.tail) (hne : step.search ≠ []) (hc : '\r' ∉ c)
    (hsearch : '\r' ∉ step.search) : replaceFirst? step.search step.replacement (withReturns c) =
      (cut step.search c).map fun p => withReturns p.1 ++ step.inserted ++ withReturns p.2 := by
  obtain ⟨x, pat, hcons⟩ := List.exists_cons_of_ne_nil hne
  rw [inserted, if_neg hinner, replaceFirst?, hcons]
  rw [hcons] at hinner hsearch hne
  rw [List.tail_cons] at hinner
  by_cases hxfeed : x = '\n'
  · have hreturn : '\r' ∉ pat := mt (List.mem_cons_of_mem x) hsearch
    subst hxfeed
    rw [cut_lineFeed_cons hinner hreturn hc, Option.map_map, List.head?_cons, if_pos rfl]
    refine congrArg (fun f => Option.map f _) (funext fun p => ?_)
    simp
  · have honeLine : '\n' ∉ x :: pat := List.not_mem_cons_of_ne_of_not_mem (Ne.symm hxfeed) hinner
    have hcut := cut_withReturns hne hsearch hc
    rw [withReturns_of_oneLine honeLine] at hcut
    rw [hcut, Option.map_map, List.head?_cons, if_neg (by simpa using hxfeed)]
    rfl

/-- **A step in a file with carriage returns**: the text to find is found where it would be without them. -/
theorem apply_withReturns (hne : step.search ≠ []) (hc : '\r' ∉ c) (hsearch : '\r' ∉ step.search) :
    step.apply (withReturns c) = (cut step.search c).map fun p =>
      withReturns p.1 ++ step.inserted ++ withReturns p.2 := by
  have hchanged : replaceFirst? (withReturns step.search) (withReturns step.replacement) (withReturns c) =
      (cut step.search c).map fun p =>
        withReturns p.1 ++ withReturns step.replacement ++ withReturns p.2 := by
    rw [replaceFirst?, cut_withReturns hne hsearch hc, Option.map_map]
    rfl
  rw [apply, if_neg (by simpa using hne), hchanged]
  by_cases hinner : '\n' ∈ step.search.tail
  · -- it is found with its endings changed, and then there is an ending in the file
    have hdirect : replaceFirst? step.search step.replacement (withReturns c) = none := by
      rw [replaceFirst?, cut_eq_none_of_inner hinner hsearch, Option.map_none]
    rw [hdirect, inserted, if_pos hinner]
    cases hcut : cut step.search c with
    | none => simp
    | some p =>
      have hending : occurs "\r\n" (withReturns c) := by
        obtain ⟨u, v, huv⟩ := List.append_of_mem (List.mem_of_mem_tail hinner)
        rw [occurs_iff, eq_of_cut hcut, huv]
        exact ⟨withReturns (p.1 ++ u), withReturns (v ++ p.2), by simp⟩
      rw [if_pos hending]
      rfl
  · rw [replaceFirst?_withReturns hinner hne hc hsearch]
    cases cut step.search c <;> simp

/-- What is appended ends with a bare line feed. -/
theorem not_returned_append (hc : '\r' ∉ c) (hreplacement : '\r' ∉ step.replacement) :
    ¬Returned (append step.replacement (withReturns c)) := by
  intro h
  have hlast := h _ [] (by rw [append]; rfl)
  rw [List.getLast?_append] at hlast
  cases hreplaced : step.replacement.getLast? with
  | some d =>
    rw [hreplaced, Option.some_or] at hlast
    exact hreplacement (List.mem_of_getLast? (hreplaced.trans hlast))
  | none =>
    rw [hreplaced, Option.none_or] at hlast
    split at hlast
    · exact getLast?_withReturns_ne hc hlast
    · rw [List.getLast?_append_of_ne_nil _ (by decide)] at hlast
      exact absurd hlast (by decide)

theorem mem_iff_head?_or_tail {x : Char} : x ∈ t ↔ t.head? = some x ∨ x ∈ t.tail := by
  cases t with
  | nil => simp
  | cons y t => simp [eq_comm]

/-- The text that is put in has the endings of the file. -/
theorem inserted_eq_withReturns_iff (hreplacement : '\r' ∉ step.replacement) :
    step.inserted = withReturns step.replacement ↔ '\n' ∈ step.search.tail ∨ '\n' ∉ step.replacement.tail ∧
      (step.search.head? = some '\n' ↔ step.replacement.head? = some '\n') := by
  rw [inserted]
  split
  · rename_i hinner
    exact ⟨fun _ => Or.inl hinner, fun _ => rfl⟩
  · rename_i hinner
    split
    · rename_i hhead
      simp only [hinner, hhead, false_or, true_iff]
      generalize step.replacement = new at hreplacement
      cases new with
      | nil => simp
      | cons x new =>
        by_cases hxfeed : x = '\n'
        · rw [hxfeed, withReturns_lineFeed_cons]
          simp only [List.cons.injEq, true_and, List.tail_cons, List.head?_cons, and_true]
          exact eq_comm.trans withReturns_eq_self_iff
        · rw [withReturns_cons hxfeed]
          simp only [List.cons.injEq, List.tail_cons, List.head?_cons, Option.some.injEq, hxfeed, and_false,
            iff_false, not_and]
          exact fun hx => absurd (hx ▸ List.mem_cons_self) hreplacement
    · rename_i hhead
      simp only [hinner, hhead, false_or, false_iff]
      rw [eq_comm, withReturns_eq_self_iff, mem_iff_head?_or_tail, not_or, and_comm]

/-- The text that is put in has no bare line feed. -/
theorem returned_inserted_iff (hreplacement : '\r' ∉ step.replacement) :
    Returned step.inserted ↔ '\n' ∈ step.search.tail ∨ '\n' ∉ step.replacement.tail ∧
      (step.replacement.head? = some '\n' → step.search.head? = some '\n') := by
  rw [inserted]
  split
  · rename_i hinner
    exact ⟨fun _ => Or.inl hinner, fun _ => returned_withReturns _⟩
  · rename_i hinner
    split
    · rename_i hhead
      simp only [hinner, hhead, false_or, implies_true, and_true]
      exact returned_return_cons_iff hreplacement
    · rename_i hhead
      simp only [hinner, hhead, false_or, imp_false]
      rw [returned_iff hreplacement, mem_iff_head?_or_tail, not_or, and_comm]

/-! ### Steps that keep to the endings of a file -/

/-- **A step that keeps to the endings of its file**: its text to find goes on behind the end of a line; or what
is put there adds no line feed but one that it begins with, and that is there if the text to find begins with
one. -/
def KeepsEndings (step : EditStep) : Prop :=
  step.search ≠ [] ∧ ('\n' ∈ step.search.tail ∨ '\n' ∉ step.replacement.tail ∧
    (step.search.head? = some '\n' ↔ step.replacement.head? = some '\n'))

/-- A step that puts no bare line feed into a file without any. -/
def AddsNoBare (step : EditStep) : Prop :=
  step.search ≠ [] ∧ ('\n' ∈ step.search.tail ∨ '\n' ∉ step.replacement.tail ∧
    (step.replacement.head? = some '\n' → step.search.head? = some '\n'))

instance (step : EditStep) : Decidable step.KeepsEndings := inferInstanceAs (Decidable (_ ∧ _))

instance (step : EditStep) : Decidable step.AddsNoBare := inferInstanceAs (Decidable (_ ∧ _))

/-- **A step and the line endings of its file.** Whether it can be applied does not depend on them. What comes
out is the same but for the endings exactly if the step keeps to them, and it has no bare line feed exactly if
the step adds none. -/
theorem apply_withReturns_iff (hc : '\r' ∉ c) (hsearch : '\r' ∉ step.search)
    (hreplacement : '\r' ∉ step.replacement) :
    (step.apply (withReturns c)).isSome = (step.apply c).isSome ∧
    (step.apply (withReturns c) = (step.apply c).map withReturns ↔
      step.apply c = none ∨ step.KeepsEndings) ∧
    ∀ t ∈ step.apply (withReturns c), Returned t ↔ step.AddsNoBare := by
  by_cases hne : step.search = []
  · -- an empty text to find: the replacement is appended
    have happly (t : Text) : step.apply t = some (append step.replacement t) := by
      rw [apply, if_pos (by rw [hne]; rfl)]
    have hbare := not_returned_append hc hreplacement
    simp only [happly, KeepsEndings, AddsNoBare, hne]
    refine ⟨rfl, ?_, ?_⟩
    · simp only [Option.map_some, Option.some.injEq, ne_eq, not_true_eq_false, false_and, reduceCtorEq, or_false,
        iff_false]
      intro heq
      exact hbare (heq ▸ returned_withReturns _)
    · simpa using hbare
  · have hboth : step.apply c = (cut step.search c).map fun p => p.1 ++ step.replacement ++ p.2 :=
      apply_eq_replaceFirst? hne hc
    rw [apply_withReturns hne hc hsearch, hboth]
    cases hcut : cut step.search c with
    | none => simp
    | some p =>
      have hbefore : '\r' ∉ p.1 := fun h => hc (eq_of_cut hcut ▸ by simp [h])
      refine ⟨rfl, ?_, ?_⟩
      · simp only [Option.map_some, Option.some.injEq, withReturns_append, List.append_cancel_right_eq,
          List.append_cancel_left_eq, reduceCtorEq, false_or]
        rw [inserted_eq_withReturns_iff hreplacement, KeepsEndings, and_iff_right hne]
      · rintro t ⟨⟩
        rw [returned_between_iff hbefore, returned_inserted_iff hreplacement, AddsNoBare, and_iff_right hne]

/-- Two lines take the place of two, and get the endings of the file. -/
theorem twoForTwo_keeps_endings : ∃ (step : EditStep) (c : Text),
    '\r' ∉ c ∧ '\r' ∉ step.search ∧ '\r' ∉ step.replacement ∧ step.KeepsEndings ∧
    step.apply (withReturns c) = (step.apply c).map withReturns ∧
    step.apply (withReturns c) = some "int c;\r\nint d;\r\nint x;\r\n" := by
  let step : EditStep := ⟨"a.cpp", "int a;\nint b;", "int c;\nint d;"⟩
  let c : Text := "int a;\nint b;\nint x;\n"
  have hc : '\r' ∉ c := by decide +kernel
  have hsearch : '\r' ∉ step.search := by decide +kernel
  have hreplacement : '\r' ∉ step.replacement := by decide +kernel
  have hkeeps : step.KeepsEndings := by decide +kernel
  obtain ⟨-, hiff, -⟩ := apply_withReturns_iff hc hsearch hreplacement
  exact ⟨step, c, hc, hsearch, hreplacement, hkeeps, hiff.mpr (Or.inr hkeeps), by decide +kernel⟩

/-- **Two lines in the place of one** have bare line feeds in a file that has none. -/
theorem twoForOne_mixes_endings : ∃ (step : EditStep) (c : Text),
    step = ⟨"a.cpp", "int a;", "int c;\nint d;"⟩ ∧ c = "int a;\nint b;\n".toList ∧
    '\r' ∉ c ∧ '\r' ∉ step.search ∧ '\r' ∉ step.replacement ∧
    (step.apply c).map withReturns = some "int c;\r\nint d;\r\nint b;\r\n" ∧
    step.apply (withReturns c) = some "int c;\nint d;\r\nint b;\r\n" ∧
    step.apply (withReturns c) ≠ (step.apply c).map withReturns :=
  ⟨_, _, rfl, rfl, by decide +kernel, by decide +kernel, by decide +kernel, by decide +kernel,
    by decide +kernel, by decide +kernel⟩

end EditStep

end BuildMender
