import BuildMender.Proofs.Text.Line
import BuildMender.Text.Place

/-!
# Blanks at the end of a text

The blanks at the end of a text are dropped from the right, but a reader goes from left to right. So the
dropping is described from the left here: the first character stays unless nothing but blanks follows, itself
included (`BuildMender.Text.trimEnd_cons`). All that a text is asked for in front is then answered before the
end comes into view: what is left behind a pattern or a run of characters is the same text, less the blanks at
its end (`BuildMender.Text.after?_trimEnd`, `BuildMender.Text.dropWhile_trimEnd`). Only a pattern that ends with
a blank itself can be lost (`BuildMender.Text.after?_trimEnd_of_blank`).
-/

namespace BuildMender.Text

variable {t a b pat : Text} {c : Char} {p : Char → Bool}

/-! ### One character after another -/

@[simp] theorem trimEnd_nil : trimEnd [] = [] := rfl

theorem allBlank_cons (c : Char) (t : Text) : allBlank (c :: t) = (isBlank c && allBlank t) := rfl

/-- **A text's first character** is dropped only with everything else. -/
theorem trimEnd_cons (c : Char) (t : Text) :
    trimEnd (c :: t) = if allBlank (c :: t) then [] else c :: trimEnd t := by
  have hblank : (t.reverse.dropWhile isBlank).isEmpty = allBlank t := by
    rw [Bool.eq_iff_iff, List.isEmpty_iff, List.dropWhile_eq_nil_iff, allBlank, List.all_eq_true]
    simp only [List.mem_reverse]
  rw [trimEnd, dropEnd, List.reverse_cons, List.dropWhile_append, hblank]
  cases hall : allBlank t with
  | true =>
    have hnil : trimEnd t = [] := by
      rw [hall, List.isEmpty_iff] at hblank
      rw [trimEnd, dropEnd, hblank, List.reverse_nil]
    cases hc : isBlank c <;> simp [allBlank_cons, hc, hall, hnil]
  | false => simp [trimEnd, dropEnd, allBlank_cons, hall]

theorem trimEnd_cons_of_not_isBlank (h : isBlank c = false) (t : Text) : trimEnd (c :: t) = c :: trimEnd t := by
  rw [trimEnd_cons, allBlank_cons, h]
  rfl

theorem trimEnd_eq_nil : trimEnd t = [] ↔ allBlank t := by
  cases t with
  | nil => exact iff_of_true rfl rfl
  | cons c t =>
    rw [trimEnd_cons]
    split
    · exact iff_of_true rfl ‹_›
    · exact iff_of_false (List.cons_ne_nil c _) ‹_›

theorem allBlank_of_subset (h : a ⊆ t) (ht : allBlank t) : allBlank a :=
  List.all_eq_true.mpr fun c hc => List.all_eq_true.mp ht c (h hc)

theorem trimEnd_isPrefix (t : Text) : trimEnd t <+: t := by
  obtain ⟨b, hb, -⟩ := exists_dropEnd isBlank t
  exact ⟨b, hb.symm⟩

/-- What is left of a text ends with no blank. -/
theorem getLast?_trimEnd (h : c ∈ (trimEnd t).getLast?) : isBlank c = false := by
  rw [trimEnd, dropEnd, List.getLast?_reverse] at h
  exact head?_dropStart h

@[simp] theorem trimEnd_trimEnd (t : Text) : trimEnd (trimEnd t) = trimEnd t :=
  dropEnd_of_getLast? fun _ => getLast?_trimEnd

@[simp] theorem allBlank_trimEnd (t : Text) : allBlank (trimEnd t) = allBlank t := by
  obtain ⟨b, hb, hblank⟩ := exists_dropEnd isBlank t
  have hend : allBlank b = true := List.all_eq_true.mpr hblank
  conv_rhs => rw [hb, allBlank_append, hend, Bool.and_true]
  rfl

@[simp] theorem trim_trimEnd (t : Text) : trim (trimEnd t) = trim t := trim_dropEnd (fun _ h => h) t

/-! ### Behind something -/

theorem trimEnd_append_of_allBlank (h : allBlank b) (a : Text) : trimEnd (a ++ b) = trimEnd a :=
  dropEnd_append_of_all (List.all_eq_true.mp h) a

theorem trimEnd_append_of_not_allBlank (h : allBlank b = false) (a : Text) :
    trimEnd (a ++ b) = a ++ trimEnd b := by
  induction a with
  | nil => rfl
  | cons c a ih =>
    rw [List.cons_append, trimEnd_cons, ← List.cons_append, allBlank_append, h, Bool.and_false, ih]
    rfl

theorem trimEnd_append (h : ∀ c ∈ a.getLast?, isBlank c = false) (b : Text) :
    trimEnd (a ++ b) = a ++ trimEnd b := by
  cases hb : allBlank b with
  | true =>
    rw [trimEnd_append_of_allBlank hb, trimEnd_eq_nil.mpr hb, List.append_nil]
    exact dropEnd_of_getLast? h
  | false => exact trimEnd_append_of_not_allBlank hb a

/-- A text that ends as a pattern does, and so not with a blank. -/
theorem trimEnd_eq_self_of_suffix (hpat : ∃ c ∈ pat.getLast?, isBlank c = false) (h : pat <:+ t) : trimEnd t = t := by
  obtain ⟨front, rfl⟩ := h
  obtain ⟨c, hc, hblank⟩ := hpat
  have hne : pat ≠ [] := fun h => by simp [h] at hc
  refine dropEnd_of_getLast? fun d hd => ?_
  rw [List.getLast?_append_of_ne_nil front hne] at hd
  rwa [← Option.mem_unique hc hd]

/-- A pattern in front of a trimmed text is in front of the text. -/
theorem exists_of_after?_trimEnd (h : after? pat (trimEnd t) = some a) :
    ∃ b, after? pat t = some (a ++ b) := by
  obtain ⟨b, hb, -⟩ := exists_dropEnd isBlank t
  refine ⟨b, after?_eq_some.mpr ?_⟩
  rw [← List.append_assoc, after?_eq_some.mp h]
  exact hb.symm

/-- **A pattern that ends with no blank** is found alike. -/
theorem after?_trimEnd (hpat : pat.getLast?.all (!isBlank ·)) (t : Text) :
    after? pat (trimEnd t) = (after? pat t).map trimEnd := by
  have hlast : ∀ c ∈ pat.getLast?, isBlank c = false := fun c hc => by
    rwa [Option.mem_def.mp hc, Option.all_some, Bool.not_eq_true'] at hpat
  cases h : after? pat t with
  | some rest =>
    rw [← after?_eq_some.mp h, trimEnd_append hlast, after?_append]
    rfl
  | none =>
    rw [Option.map_none, Option.eq_none_iff_forall_ne_some]
    intro a ha
    obtain ⟨b, hb⟩ := exists_of_after?_trimEnd ha
    rw [h] at hb
    cases hb

/-- **A pattern that ends with a blank** is lost if nothing but blanks follows. -/
theorem after?_trimEnd_of_blank (hpat : ∃ c ∈ pat.getLast?, isBlank c) (t : Text) :
    after? pat (trimEnd t) = ((after? pat t).filter fun rest => !allBlank rest).map trimEnd := by
  cases h : after? pat t with
  | some rest =>
    rw [← after?_eq_some.mp h, Option.filter_some]
    cases hrest : allBlank rest with
    | true =>
      -- the text ends before the pattern does
      refine after?_eq_none.mpr fun hbegins => ?_
      obtain ⟨c, hc, hblank⟩ := hpat
      rw [trimEnd_append_of_allBlank hrest] at hbegins
      rw [hbegins.eq_of_length_le (trimEnd_isPrefix pat).length_le] at hc
      exact absurd (getLast?_trimEnd hc) (by simp [hblank])
    | false =>
      rw [trimEnd_append_of_not_allBlank hrest, after?_append]
      rfl
  | none =>
    refine Option.eq_none_iff_forall_ne_some.mpr fun a ha => ?_
    obtain ⟨b, hb⟩ := exists_of_after?_trimEnd ha
    rw [h] at hb
    cases hb

/-! ### Behind a run of characters -/

/-- **What is left behind a run** is trimmed before or after. -/
theorem dropWhile_trimEnd (p : Char → Bool) (t : Text) :
    (trimEnd t).dropWhile p = trimEnd (t.dropWhile p) := by
  induction t with
  | nil => rfl
  | cons c t ih =>
    rw [trimEnd_cons]
    split
    · -- nothing but blanks: all of them are dropped, on one side or the other
      rename_i hall
      exact (trimEnd_eq_nil.mpr (allBlank_of_subset (List.dropWhile_suffix p).subset hall)).symm
    · rename_i hsome
      cases hc : p c with
      | true => rw [List.dropWhile_cons_of_pos hc, List.dropWhile_cons_of_pos hc, ih]
      | false =>
        rw [List.dropWhile_cons_of_neg (by simp [hc]), List.dropWhile_cons_of_neg (by simp [hc]), trimEnd_cons,
          if_neg hsome]

/-- **A run of characters** is as long as before, if something is left behind it. -/
theorem takeWhile_trimEnd_of_left (h : allBlank (t.dropWhile p) = false) :
    (trimEnd t).takeWhile p = t.takeWhile p := by
  induction t with
  | nil => rfl
  | cons c t ih =>
    rw [trimEnd_cons]
    split
    · rename_i hall
      have hleft := allBlank_of_subset (List.dropWhile_suffix p).subset hall
      rw [h] at hleft
      cases hleft
    · cases hc : p c with
      | true =>
        rw [List.dropWhile_cons_of_pos hc] at h
        rw [List.takeWhile_cons_of_pos hc, List.takeWhile_cons_of_pos hc, ih h]
      | false => rw [List.takeWhile_cons_of_neg (by simp [hc]), List.takeWhile_cons_of_neg (by simp [hc])]

/-- **Up to a character** that is no blank, a text is read alike; either it is found or it is not. -/
theorem until_trimEnd {stop : Char} (h : isBlank stop = false) (t : Text) :
    (t.dropWhile (· ≠ stop) = [] ∧ (trimEnd t).dropWhile (· ≠ stop) = []) ∨
    ∃ rest, t.dropWhile (· ≠ stop) = stop :: rest ∧ (trimEnd t).dropWhile (· ≠ stop) = stop :: trimEnd rest ∧
      (trimEnd t).takeWhile (· ≠ stop) = t.takeWhile (· ≠ stop) := by
  have htrim := dropWhile_trimEnd (· ≠ stop) t
  cases hleft : t.dropWhile (· ≠ stop) with
  | nil =>
    rw [hleft] at htrim
    exact Or.inl ⟨rfl, htrim⟩
  | cons c rest =>
    obtain rfl : c = stop := by
      have hhead := List.head?_dropWhile_not (· ≠ stop) t
      rw [hleft] at hhead
      simpa using hhead
    have hsome : allBlank (t.dropWhile (· ≠ c)) = false := by
      rw [hleft, allBlank_cons, h]
      rfl
    rw [hleft, trimEnd_cons_of_not_isBlank h] at htrim
    exact Or.inr ⟨rest, rfl, htrim, takeWhile_trimEnd_of_left hsome⟩

/-- A run without blanks is as long as before. -/
theorem takeWhile_trimEnd (hp : ∀ c, p c → isBlank c = false) (t : Text) :
    (trimEnd t).takeWhile p = t.takeWhile p := by
  induction t with
  | nil => rfl
  | cons c t ih =>
    rw [trimEnd_cons]
    cases hc : p c with
    | true =>
      rw [allBlank_cons, hp c hc, Bool.false_and, if_neg Bool.false_ne_true, List.takeWhile_cons_of_pos hc,
        List.takeWhile_cons_of_pos hc, ih]
    | false =>
      have hend (u : Text) : (c :: u).takeWhile p = [] := List.takeWhile_cons_of_neg (by simp [hc])
      split
      · rw [hend, List.takeWhile_nil]
      · rw [hend, hend]

/-- A run that must not be empty and holds no blank. -/
theorem afterSome?_trimEnd (hp : ∀ c, p c → isBlank c = false) (t : Text) :
    afterSome? p (trimEnd t) = (afterSome? p t).map trimEnd := by
  cases t with
  | nil => rfl
  | cons c t =>
    rw [trimEnd_cons]
    cases hc : p c with
    | true => simp [allBlank_cons, hp c hc, afterSome?, hc, dropWhile_trimEnd]
    | false => split <;> simp [afterSome?, hc]

/-- Blanks of which there must be one are found alike, if something follows them. -/
theorem afterSome?_isBlank_trimEnd (t : Text) :
    afterSome? isBlank (trimEnd t) = ((afterSome? isBlank t).filter (· ≠ [])).map trimEnd := by
  cases t with
  | nil => rfl
  | cons c t =>
    rw [trimEnd_cons]
    cases hc : isBlank c with
    | true =>
      have hleft : t.dropWhile isBlank = [] ↔ allBlank t := by
        rw [List.dropWhile_eq_nil_iff, allBlank, List.all_eq_true]
      cases hall : allBlank t with
      | true => simp [allBlank_cons, afterSome?, hc, hall, hleft.mpr hall, Option.filter_some]
      | false =>
        have hne : t.dropWhile isBlank ≠ [] := fun hnil => by simp [hleft.mp hnil] at hall
        simp [allBlank_cons, afterSome?, hc, hall, hne, dropWhile_trimEnd, Option.filter_some]
    | false => simp [allBlank_cons, afterSome?, hc]

/-! ### Both ends -/

/-- The two ends of a text are trimmed in either order. -/
theorem trimStart_trimEnd (t : Text) : trimStart (trimEnd t) = trimEnd (trimStart t) := dropWhile_trimEnd isBlank t

theorem trimStart_cons_of_not_isBlank (h : isBlank c = false) (t : Text) : trimStart (c :: t) = c :: t :=
  List.dropWhile_cons_of_neg (by simp [h])

theorem head?_trim (h : c ∈ (trim t).head?) : isBlank c = false := by
  rw [trim, ← trimStart_trimEnd] at h
  exact head?_dropStart h

theorem getLast?_trim (h : c ∈ (trim t).getLast?) : isBlank c = false := getLast?_trimEnd h

theorem trim_of_head? (h : ∀ c ∈ t.head?, isBlank c = false) : trim t = trimEnd t := by
  rw [trim, trimStart, dropStart_of_head? h]

theorem trim_append (ha : allBlank a = false) (hb : allBlank b = false) :
    trim (a ++ b) = trimStart a ++ trimEnd b := by
  have hne : (a.dropWhile isBlank).isEmpty = false := by
    rw [Bool.eq_false_iff, ne_eq, List.isEmpty_iff, List.dropWhile_eq_nil_iff]
    exact fun hall => by simp [allBlank, List.all_eq_true.mpr hall] at ha
  rw [trim, ← trimStart_trimEnd, trimEnd_append_of_not_allBlank hb, trimStart, dropStart, List.dropWhile_append,
    hne]
  rfl

/-- A text is longer with something behind it that is not blank. -/
theorem length_trim_lt (ha : allBlank a = false) (hb : allBlank b = false) :
    (trim a).length < (trim (a ++ b)).length := by
  have hle : (trim a).length ≤ (trimStart a).length := (trimEnd_isPrefix _).length_le
  have hpos : 0 < (trimEnd b).length := List.length_pos_of_ne_nil fun h => by
    rw [trimEnd_eq_nil.mp h] at hb
    cases hb
  rw [trim_append ha hb, List.length_append]
  omega

end BuildMender.Text
