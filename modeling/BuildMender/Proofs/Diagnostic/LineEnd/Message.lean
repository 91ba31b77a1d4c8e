import BuildMender.Proofs.Diagnostic.LineEnd.Reader
import BuildMender.Proofs.Text.Cut

/-!
# Messages and the blanks at the end of a line

A message is the end of its line, so the blanks at the end of the line come to stand at the end of the message,
where showing it drops them. Two messages are put together from more than one part, and there blanks can make a
difference:

* the project file behind what a compiler or linker of Visual C++ says is taken off if the line ends with it,
  and with blanks behind it the line does not;
* the context of what CMake says is put behind the message, and the blanks stay between the two.

Both times the message is longer for the blanks.
-/

namespace BuildMender.LinePattern

open Text

variable {t m message : Text} {p q : LinePattern}

/-! ### Messages that are put together -/

/-- **A message that is longer for the blanks at the end of its line.** -/
inductive Prolonged : Text → Text → Prop where
  /-- The project file behind the message is not taken for one. -/
  | project {message gap file : Text} (hsome : allBlank message = false) (hgap : allBlank gap)
      (hfile : "proj]".toList <:+ file) : Prolonged message (message ++ (gap ++ (" [".toList ++ file)))
  /-- The blanks come to stand between the message and its context. -/
  | context {message gap context : Text} (hsome : allBlank message = false) (hgap : allBlank gap) (hne : gap ≠ []) :
      Prolonged (message ++ (" (".toList ++ (context ++ ")".toList)))
        (message ++ (gap ++ (" (".toList ++ (context ++ ")".toList))))

/-- What is behind a bracket ends as the whole does, if no bracket is asked for. -/
theorem suffix_of_brackets {before file : Text} (h : "proj]".toList <:+ before ++ " [".toList ++ file) :
    "proj]".toList <:+ file := by
  rcases List.suffix_or_suffix_of_suffix h (List.suffix_append (before ++ " [".toList) file) with h' | ⟨x, hx⟩
  · exact h'
  · by_cases hne : x = []
    · exact ⟨[], by rw [← hx, hne, List.nil_append, List.nil_append]⟩
    · -- the bracket would be one of the characters in front
      rw [← hx, List.suffix_append_inj_of_length_eq rfl] at h
      obtain ⟨⟨y, hy⟩, -⟩ := h
      have hlast := congrArg List.getLast? hy
      have hopen : " [".toList ≠ [] := List.cons_ne_nil ' ' ['[']
      rw [List.getLast?_append_of_ne_nil y hne, List.getLast?_append_of_ne_nil before hopen] at hlast
      have hbracket : '[' ∈ x := List.mem_of_getLast? (hlast.trans rfl)
      have hmem : '[' ∈ "proj]".toList := hx ▸ List.mem_append_left file hbracket
      exact absurd hmem (by decide)

/-- **A message with a code**, with blanks at its end and without. -/
theorem coded_trimEnd (code : Text) (h : ∀ c ∈ m.head?, isBlank c = false) :
    coded code (trimEnd m) = coded code m ∨ Prolonged (coded code (trimEnd m)) (coded code m) := by
  by_cases hm : trimEnd m = m
  · exact Or.inl (congrArg (coded code) hm)
  -- with blanks at its end the message does not end as a project file does
  have hwhole : withoutProject m = m := withoutProject_of_not_suffix fun hends =>
    hm (trimEnd_eq_self_of_suffix ⟨']', rfl, rfl⟩ hends)
  by_cases hends : "proj]".toList <:+ trimEnd m
  · have hproject : endsWith "proj]" (trimEnd m) := List.isSuffixOf_iff_suffix.mpr hends
    rw [coded, coded, hwhole, withoutProject, if_pos hproject]
    cases hcut : cutLast " [" (trimEnd m) with
    | none => exact Or.inl (by rw [trim_trimEnd])
    | some r =>
      obtain ⟨before, file⟩ := r
      have heq := eq_of_cutLast hcut
      have hstart : ∀ c ∈ before.head?, isBlank c = false := fun c hc => by
        obtain ⟨b, hb⟩ := trimEnd_isPrefix m
        refine h c ?_
        rw [← hb, heq, List.append_assoc, List.append_assoc, List.head?_append, Option.mem_def.mp hc]
        rfl
      obtain ⟨gap, hgap, hblank⟩ := exists_dropEnd isBlank before
      have hlong : trim m = trim before ++ (gap ++ (" [".toList ++ file)) := by
        rw [trim_of_head? h, heq, trim_of_head? hstart]
        conv_lhs => rw [hgap]
        simp only [List.append_assoc]
        rfl
      rw [heq] at hends
      have hsome : allBlank (code ++ ": ".toList ++ trim before) = false := by
        rw [allBlank_append, allBlank_append, show allBlank ": ".toList = false from rfl, Bool.and_false,
          Bool.false_and]
      rw [hlong, ← List.append_assoc (code ++ ": ".toList)]
      exact Or.inr (.project hsome (List.all_eq_true.mpr hblank) (suffix_of_brackets hends))
  · rw [coded, coded, hwhole, withoutProject_of_not_suffix hends, trim_trimEnd]
    exact Or.inl rfl

/-- A message with a context, with blanks at its end and without. -/
theorem withContext_trimEnd (context : Option Text) (m : Text) :
    trim (withContext context (trimEnd m)) = trim (withContext context m) ∨
      Prolonged (withContext context (trimEnd m)) (withContext context m) := by
  rw [withContext.eq_def, withContext.eq_def, allBlank_trimEnd]
  cases hblank : allBlank m with
  | true => exact Or.inl rfl
  | false =>
    cases context with
    | none => exact Or.inl (trim_trimEnd m)
    | some c =>
      obtain ⟨gap, hgap, hall⟩ := exists_dropEnd isBlank m
      have hwhole : m = trimEnd m ++ gap := hgap
      have hlong : m ++ " (".toList ++ c ++ ")".toList =
          trimEnd m ++ (gap ++ (" (".toList ++ (c ++ ")".toList))) := by
        conv_lhs => rw [hwhole]
        simp only [List.append_assoc]
      have hshort : trimEnd m ++ " (".toList ++ c ++ ")".toList =
          trimEnd m ++ (" (".toList ++ (c ++ ")".toList)) := by
        simp only [List.append_assoc]
      simp only [Bool.false_eq_true, if_false, hlong, hshort]
      by_cases hne : gap = []
      · exact Or.inl (by rw [hne, List.nil_append])
      · exact Or.inr (.context ((allBlank_trimEnd m).trans hblank) (List.all_eq_true.mpr hall) hne)

/-! ### Readings -/

/-- **What is read of a line** and of the same line without the blanks at its end: the same, but for blanks at
the end of the message and what is prolonged by them. -/
def Alike (p q : LinePattern) : Prop :=
  ∃ message, q = { p with message := message } ∧
    (trim message = trim p.message ∨ Prolonged message p.message)

theorem alike_messageTrimmed (p : LinePattern) : Alike p (messageTrimmed p) :=
  ⟨trimEnd p.message, rfl, Or.inl (trim_trimEnd p.message)⟩

theorem rel_map_messageTrimmed (o : Option LinePattern) : Option.Rel Alike o (o.map messageTrimmed) := by
  cases o with
  | none => exact .none
  | some p => exact .some (alike_messageTrimmed p)

section Steps

variable {α β γ δ : Type} {r : β → β → Prop} {s : γ → δ → Prop} {o o' : Option β} {f : β → Option γ}
  {g : β → Option δ}

theorem rel_bind (h : Option.Rel r o o') (hstep : ∀ a b, r a b → Option.Rel s (f a) (g b)) :
    Option.Rel s (o.bind f) (o'.bind g) := by
  cases h with
  | none => exact .none
  | some hab => exact hstep _ _ hab

theorem rel_bind_map {e : β → β} (hstep : ∀ b, Option.Rel s (f b) (g (e b))) :
    Option.Rel s (o.bind f) ((o.map e).bind g) := by
  cases o with
  | none => exact .none
  | some b => exact hstep b

end Steps

/-- A verdict is read alike, with a message that the blanks may prolong. -/
theorem verdict?_trimEnd {words : List Text} {code : Text → Option (Text × Text)}
    (hwords : ∀ w ∈ words, w.getLast?.all (!isBlank ·))
    (hcode : ∀ t, code (trimEnd t) = (code t).map restTrimmed) (hnil : code [] = none) (t : Text) :
    Option.Rel (fun r r' => r'.1 = r.1 ∧ (r'.2 = r.2 ∨ Prolonged r'.2 r.2))
      (verdict? words code t) (verdict? words code (trimEnd t)) := by
  rw [verdict?, verdict?, word?_trimEnd hwords]
  refine rel_bind_map fun (severity, t₁) => ?_
  simp only [restTrimmed, afterSome?_isBlank_trimEnd]
  cases afterSome? isBlank t₁ with
  | none => exact .none
  | some t₂ =>
    simp only [Option.bind_eq_bind, Option.bind_some, Option.filter_some]
    by_cases hne : t₂ = []
    · -- no code follows the blanks, whether they are there or not
      subst hne
      rw [hnil]
      exact .none
    · simp only [ne_eq, hne, not_false_eq_true, decide_true, if_true, Option.map_some, Option.bind_some, hcode]
      refine rel_bind_map fun (c, t₃) => ?_
      simp only [restTrimmed, afterColon?_trimEnd]
      cases hcolon : afterColon? t₃ with
      | none => exact .none
      | some m =>
        have hstart : ∀ c ∈ m.head?, isBlank c = false := by
          obtain ⟨u, -, rfl⟩ := Option.map_eq_some_iff.mp hcolon
          exact fun c => head?_dropStart
        exact .some ⟨rfl, coded_trimEnd c hstart⟩

/-- A verdict in front of which the parts of a place were read. -/
theorem alike_of_verdict (parts : LinePattern) {severity message : Text} {v : Text × Text}
    (hseverity : v.1 = severity) (hmessage : v.2 = message ∨ Prolonged v.2 message) :
    Alike { parts with severity := severity, message := message } { parts with severity := v.1, message := v.2 } :=
  ⟨v.2, by rw [hseverity], hmessage.imp_left (congrArg trim)⟩

theorem msvc?_trimEnd (t : Text) : Option.Rel Alike (msvc? t) (msvc? (trimEnd t)) := by
  rw [msvc?, msvc?, trimStart_trimEnd, upTo?_trimEnd rfl]
  refine rel_bind_map fun (file, t₁) => ?_
  simp only [restTrimmed, msvcPlace?_trimEnd]
  refine rel_bind_map ?_
  rintro ⟨line, column, t₂⟩
  simp only [afterColon?_trimEnd]
  refine rel_bind_map fun t₃ => ?_
  refine rel_bind (verdict?_trimEnd (List.all_eq_true.mp rfl) code?_trimEnd rfl t₃) fun v v' hv => ?_
  exact .some (alike_of_verdict ⟨file, number line, column.bind number, [], []⟩ hv.1 hv.2)

theorem link?_trimEnd (t : Text) : Option.Rel Alike (link? t) (link? (trimEnd t)) := by
  rw [link?, link?, trimStart_trimEnd, upTo?_trimEnd rfl]
  refine rel_bind_map fun (file, t₁) => ?_
  simp only [restTrimmed, trimStart_trimEnd]
  refine rel_bind (verdict?_trimEnd (List.all_eq_true.mp rfl) linkCode?_trimEnd rfl (trimStart t₁)) fun v v' hv => ?_
  exact .some (alike_of_verdict ⟨trimEnd file, none, none, [], []⟩ hv.1 hv.2)

theorem cmakeContext_trimEnd (t : Text) : cmakeContext (trimEnd t) = restTrimmed (cmakeContext t) := by
  rw [cmakeContext, cmakeContext, after?_trimEnd rfl]
  cases after? " (" t with
  | none => rfl
  | some u =>
    simp only [Option.map_some]
    obtain ⟨hleft, htrim⟩ | ⟨rest, hleft, htrim, htake⟩ := until_trimEnd (show isBlank ')' = false from rfl) u
    · rw [hleft, htrim]
      rfl
    · rw [hleft, htrim, htake]
      rfl

theorem cmakeOpening_trimEnd (t : Text) :
    word? ["Error", "Warning"] ((after? "CMake " (trimEnd t)).getD (trimEnd t)) =
      (word? ["Error", "Warning"] ((after? "CMake " t).getD t)).map restTrimmed := by
  have hwords : ∀ w ∈ ["Error".toList, "Warning".toList], w.getLast?.all (!isBlank ·) := List.all_eq_true.mp rfl
  have hword := word?_trimEnd hwords
  rw [after?_trimEnd_of_blank ⟨' ', rfl, rfl⟩]
  cases h : after? "CMake " t with
  | none => exact hword t
  | some u =>
    rw [Option.filter_some, Option.getD_some]
    cases hu : allBlank u with
    | true =>
      -- nothing but blanks behind the name, which is no word for the severity itself
      have htrim : trimEnd t = trimEnd "CMake " := by
        rw [← after?_eq_some.mp h, trimEnd_append_of_allBlank hu]
      have hname : word? ["Error", "Warning"] (trimEnd "CMake ") = none := rfl
      have hblank : word? ["Error", "Warning"] u = none := by
        cases u with
        | nil => rfl
        | cons c u =>
          have hc : isBlank c := (Bool.and_eq_true_iff.mp hu).1
          have hne : c ≠ 'E' ∧ c ≠ 'W' := by
            constructor <;> rintro rfl <;> cases hc
          rw [word?, List.findSome?_cons, after?_cons_of_ne (rfl : "Error".toList.head? = some 'E') hne.1,
            List.findSome?_cons, after?_cons_of_ne (rfl : "Warning".toList.head? = some 'W') hne.2]
          rfl
      rw [htrim, hblank]
      exact hname
    | false => exact hword u

theorem cmake?_trimEnd (t : Text) : Option.Rel Alike (cmake? t) (cmake? (trimEnd t)) := by
  rw [cmake?, cmake?]
  simp only [cmakeOpening_trimEnd]
  refine rel_bind_map fun (severity, t₁) => ?_
  have hdev := getD_after?_trimEnd (show " (dev)".toList.getLast?.all (!isBlank ·) from rfl)
  have hplace : ∃ c ∈ " at ".toList.getLast?, isBlank c := ⟨' ', rfl, rfl⟩
  simp only [restTrimmed, hdev, after?_trimEnd_of_blank hplace]
  cases after? " at " ((after? " (dev)" t₁).getD t₁) with
  | none => exact .none
  | some t₂ =>
    simp only [Option.bind_eq_bind, Option.bind_some, Option.filter_some]
    obtain ⟨hleft, htrim⟩ | ⟨rest, hleft, htrim, htake⟩ := until_trimEnd (show isBlank ':' = false from rfl) t₂
    · -- no colon ends the name of the file
      have hnone : after? ":" [] = none := rfl
      simp only [hleft, hnone, Option.bind_none]
      cases allBlank t₂ with
      | true => exact .none
      | false =>
        simp only [Bool.not_false, if_true, Option.map_some, Option.bind_some, htrim, hnone]
        exact .none
    · have hsome : allBlank t₂ = false := by
        have hmem : ':' ∈ t₂ := (List.dropWhile_suffix _).subset (hleft ▸ List.mem_cons_self)
        exact List.all_eq_false.mpr ⟨':', hmem, by decide⟩
      have hcolon (t : Text) : after? ":" (':' :: t) = some t := after?_append ":" t
      simp only [hsome, Bool.not_false, if_true, Option.map_some, Option.bind_some, hleft, htrim, htake, hcolon]
      split
      · exact .none
      · rw [digits?_trimEnd]
        refine rel_bind_map fun (line, t₃) => ?_
        simp only [restTrimmed, cmakeContext_trimEnd, trimStart_trimEnd,
          getD_after?_trimEnd (show ":".toList.getLast?.all (!isBlank ·) from rfl)]
        exact .some ⟨_, rfl, withContext_trimEnd _ _⟩

/-! ### The table -/

/-- A line that a reader of some dialect takes, with the blanks at its end and without. -/
def LineAlike (r r' : Dialect × LinePattern) : Prop := r'.1 = r.1 ∧ Alike r.2 r'.2

/-- The readers that are asked before those for linkers. -/
def beforeLinkers (line : Text) : Option (Dialect × LinePattern) :=
  ((gcc? line).map (.gcc, ·)).or (((msvc? line).map (.msvc, ·)).or ((cmake? line).map (.cmake, ·)))

theorem ofLine?_eq (line : Text) : ofLine? line =
    (beforeLinkers line).or (((linker? line).map (.linker, ·)).or ((link? line).map (.linker, ·))) := by
  simp only [ofLine?, table, beforeLinkers, List.findSome?_cons, List.findSome?_nil]
  cases gcc? line <;> cases msvc? line <;> cases cmake? line <;> cases linker? line <;> cases link? line <;> rfl

/-- The first reader that takes something settles how it compares. -/
theorem rel_or {β : Type} {r : β → β → Prop} {o₁ o₁' : Option β} (h : Option.Rel r o₁ o₁') :
    (o₁ = none ∧ o₁' = none) ∨ ∀ o₂ o₂', Option.Rel r (o₁.or o₂) (o₁'.or o₂') := by
  cases h with
  | none => exact Or.inl ⟨rfl, rfl⟩
  | some hab => exact Or.inr fun _ _ => .some hab

theorem rel_or_of_rel {β : Type} {r : β → β → Prop} {o₁ o₁' o₂ o₂' : Option β} (h₁ : Option.Rel r o₁ o₁')
    (h₂ : Option.Rel r o₂ o₂') : Option.Rel r (o₁.or o₂) (o₁'.or o₂') := by
  rcases rel_or h₁ with ⟨rfl, rfl⟩ | hrel
  · exact h₂
  · exact hrel _ _

theorem rel_dialect (dialect : Dialect) {o o' : Option LinePattern} (h : Option.Rel Alike o o') :
    Option.Rel LineAlike (o.map (dialect, ·)) (o'.map (dialect, ·)) := by
  cases h with
  | none => exact .none
  | some h => exact .some ⟨rfl, h⟩

theorem beforeLinkers_trimEnd (line : Text) :
    Option.Rel LineAlike (beforeLinkers line) (beforeLinkers (trimEnd line)) := by
  have hgcc : Option.Rel Alike (gcc? line) (gcc? (trimEnd line)) := by
    rw [gcc?_trimEnd]
    exact rel_map_messageTrimmed _
  exact rel_or_of_rel (rel_dialect .gcc hgcc)
    (rel_or_of_rel (rel_dialect .msvc (msvc?_trimEnd line)) (rel_dialect .cmake (cmake?_trimEnd line)))

/-- **A line is read alike** without the blanks at its end, unless a linker names nothing but blanks there. -/
theorem ofLine?_trimEnd (line : Text) : (∃ p, ofLine? line = some (.linker, p) ∧ Unnamed p) ∨
    Option.Rel LineAlike (ofLine? line) (ofLine? (trimEnd line)) := by
  rw [ofLine?_eq, ofLine?_eq]
  rcases rel_or (beforeLinkers_trimEnd line) with ⟨hnone, hnone'⟩ | hrel
  · rw [hnone, hnone', Option.none_or, Option.none_or]
    rcases linker?_trimEnd line with ⟨p, hp, hunnamed⟩ | hlinker
    · rw [hp]
      exact Or.inl ⟨p, rfl, hunnamed⟩
    · rw [hlinker]
      exact Or.inr (rel_or_of_rel (rel_dialect .linker (rel_map_messageTrimmed _))
        (rel_dialect .linker (link?_trimEnd line)))
  · exact Or.inr (hrel _ _)

end BuildMender.LinePattern
