import BuildMender.Proofs.Diagnostic.Reader
import BuildMender.Proofs.Text.Class
import BuildMender.Proofs.Text.EndBlanks

/-!
# Blanks at the end of a line

A reader goes from left to right and ends each part at a character that is no blank. So blanks at the end of a
line come out at the end of what every step leaves, and they are in nobody's way before that.
-/

namespace BuildMender.LinePattern

open Text

variable {α : Type} {t rest : Text} {p : LinePattern}

/-! ### Steps -/

/-- What is read, and the rest without the blanks at its end. -/
def restTrimmed (r : α × Text) : α × Text := (r.1, trimEnd r.2)

/-- A step goes before what is done to its result, if each step behind it does so. -/
theorem bind_map_comm {β γ : Type} {o : Option β} {f : β → β} {read : β → Option γ} {e : γ → γ}
    (h : ∀ b, read (f b) = (read b).map e) : (o.map f).bind read = (o.bind read).map e := by
  cases o with
  | none => rfl
  | some b => exact h b

theorem digits?_trimEnd (t : Text) : digits? (trimEnd t) = (digits? t).map restTrimmed := by
  simp only [digits?, takeWhile_trimEnd fun c => not_isBlank_of_isDigit, dropWhile_trimEnd]
  split <;> rfl

theorem word?_trimEnd {words : List Text} (h : ∀ w ∈ words, w.getLast?.all (!isBlank ·)) (t : Text) :
    word? words (trimEnd t) = (word? words t).map restTrimmed := by
  rw [word?, word?]
  induction words with
  | nil => rfl
  | cons w words ih =>
    obtain ⟨hw, hwords⟩ := List.forall_mem_cons.mp h
    rw [List.findSome?_cons, List.findSome?_cons, after?_trimEnd hw, ih hwords]
    cases after? w t <;> rfl

theorem afterDrive_trimEnd (t : Text) : afterDrive (trimEnd t) = (afterDrive t).map restTrimmed := by
  have hplain {t : Text} (h : ∀ c rest, t ≠ c :: ':' :: rest) : afterDrive t = [([], t)] := by
    rw [afterDrive.eq_def]
    split
    · exact absurd rfl (h _ _)
    · rfl
  by_cases hcolon : ∃ c rest, t = c :: ':' :: rest
  · obtain ⟨c, rest, rfl⟩ := hcolon
    have htrim : trimEnd (c :: ':' :: rest) = c :: ':' :: trimEnd rest :=
      trimEnd_append (a := [c, ':']) (fun d hd => by cases hd; rfl) rest
    rw [htrim, afterDrive, afterDrive]
    split
    · exact congrArg (fun u => [([c, ':'], trimEnd rest), ([], u)]) htrim.symm
    · exact congrArg (fun u => [([], u)]) htrim.symm
  · have hcolon (c : Char) (rest : Text) : t ≠ c :: ':' :: rest := fun h => hcolon ⟨c, rest, h⟩
    have htrim (c : Char) (rest : Text) : trimEnd t ≠ c :: ':' :: rest := fun h => by
      obtain ⟨b, hb⟩ := trimEnd_isPrefix t
      rw [h] at hb
      exact hcolon c (rest ++ b) hb.symm
    rw [hplain hcolon, hplain htrim]
    rfl

theorem upTo?_trimEnd {stop : Char} (h : isBlank stop = false) (t : Text) :
    upTo? stop (trimEnd t) = (upTo? stop t).map restTrimmed := by
  cases t with
  | nil => rfl
  | cons c t =>
    cases hc : decide (c = stop) || isBlank c with
    | true =>
      have hnone (u : Text) : upTo? stop (c :: u) = none := if_pos hc
      rw [hnone, trimEnd_cons]
      split
      · rfl
      · exact hnone _
    | false =>
      have hblank : isBlank c = false := (Bool.or_eq_false_iff.mp hc).2
      have hread : ¬(decide (c = stop) || isBlank c) = true := by simp [hc]
      rw [trimEnd_cons_of_not_isBlank hblank, upTo?, upTo?, if_neg hread, if_neg hread,
        ← trimEnd_cons_of_not_isBlank hblank]
      obtain ⟨hleft, htrim⟩ | ⟨rest, hleft, htrim, htake⟩ := until_trimEnd h (c :: t)
      · rw [hleft, htrim]
        rfl
      · rw [hleft, htrim, htake]
        rfl

/-! ### Compilers in the style of GCC -/

/-- A message without the blanks at its end. -/
def messageTrimmed (p : LinePattern) : LinePattern := { p with message := trimEnd p.message }

theorem gccColumn_trimEnd (t : Text) : gccColumn (trimEnd t) = restTrimmed (gccColumn t) := by
  rw [gccColumn, gccColumn, digits?_trimEnd]
  cases digits? t with
  | none => rfl
  | some r =>
    obtain ⟨digits, rest⟩ := r
    simp only [Option.map_some, restTrimmed,
      after?_trimEnd (show ":".toList.getLast?.all (!isBlank ·) from rfl)]
    cases after? ":" rest <;> rfl

theorem gccTail?_trimEnd (file t : Text) :
    gccTail? file (trimEnd t) = (gccTail? file t).map messageTrimmed := by
  have hcolon : ":".toList.getLast?.all (!isBlank ·) := rfl
  have hwords : ∀ w ∈ gccWords, w.getLast?.all (!isBlank ·) := List.all_eq_true.mp rfl
  rw [gccTail?, gccTail?, digits?_trimEnd]
  refine bind_map_comm fun (line, t₁) => ?_
  simp only [restTrimmed, after?_trimEnd hcolon]
  refine bind_map_comm fun t₂ => ?_
  simp only [gccColumn_trimEnd, restTrimmed, trimStart_trimEnd, word?_trimEnd hwords]
  refine bind_map_comm fun (severity, t₃) => ?_
  simp only [restTrimmed, after?_trimEnd hcolon]
  refine bind_map_comm fun t₄ => ?_
  rw [trimStart_trimEnd]
  rfl

/-- Readings of a list of texts, the first that succeeds. -/
theorem findSome?_map_comm {β γ : Type} {read : β → Option γ} {f : β → β} {e : γ → γ}
    (h : ∀ b, read (f b) = (read b).map e) (bs : List β) :
    (bs.map f).findSome? read = (bs.findSome? read).map e := by
  induction bs with
  | nil => rfl
  | cons b bs ih =>
    rw [List.map_cons, List.findSome?_cons, List.findSome?_cons, h b, ih]
    cases read b <;> rfl

theorem gcc?_trimEnd (t : Text) : gcc? (trimEnd t) = (gcc? t).map messageTrimmed := by
  rw [gcc?, gcc?, afterDrive_trimEnd]
  refine findSome?_map_comm (fun (drive, rest) => ?_) _
  simp only [restTrimmed, upTo?_trimEnd (show isBlank ':' = false from rfl)]
  exact bind_map_comm fun (name, tail) => gccTail?_trimEnd _ tail

/-! ### Compilers and linkers in the style of Visual C++ -/

theorem code?_trimEnd (t : Text) : code? (trimEnd t) = (code? t).map restTrimmed := by
  have hcapital (c : Char) (hc : isAsciiCapital c) : isBlank c = false :=
    not_isBlank_of_isAsciiLetter (isAsciiLetter_of_isAsciiCapital hc)
  simp only [code?, takeWhile_trimEnd hcapital, dropWhile_trimEnd, digits?_trimEnd]
  split
  · rfl
  · cases digits? (t.dropWhile isAsciiCapital) <;> rfl

theorem linkCode?_trimEnd (t : Text) : linkCode? (trimEnd t) = (linkCode? t).map restTrimmed := by
  rw [linkCode?, linkCode?, after?_trimEnd rfl]
  refine bind_map_comm fun t₁ => ?_
  rw [digits?_trimEnd]
  cases digits? t₁ <;> rfl

theorem afterColon?_trimEnd (t : Text) : afterColon? (trimEnd t) = (afterColon? t).map trimEnd := by
  rw [afterColon?, afterColon?, trimStart_trimEnd, after?_trimEnd rfl]
  cases after? ":" (trimStart t) with
  | none => rfl
  | some rest => exact congrArg some (trimStart_trimEnd rest)

theorem msvcPlace?_trimEnd (t : Text) : msvcPlace? (trimEnd t) =
    (msvcPlace? t).map fun (line, column, rest) => (line, column, trimEnd rest) := by
  have hparen : ")".toList.getLast?.all (!isBlank ·) := rfl
  rw [msvcPlace?, msvcPlace?, digits?_trimEnd]
  refine bind_map_comm (e := fun r => (r.1, r.2.1, trimEnd r.2.2)) fun (line, t₁) => ?_
  simp only [restTrimmed, after?_trimEnd (show ",".toList.getLast?.all (!isBlank ·) from rfl)]
  cases after? "," t₁ with
  | none =>
    simp only [Option.map_none, after?_trimEnd hparen]
    exact bind_map_comm fun t₂ => rfl
  | some t₂ =>
    simp only [Option.map_some, digits?_trimEnd]
    refine bind_map_comm fun (column, t₃) => ?_
    simp only [restTrimmed, after?_trimEnd hparen]
    exact bind_map_comm fun t₄ => rfl

/-! ### Linkers -/

theorem getD_after?_trimEnd {pat : Text} (hpat : pat.getLast?.all (!isBlank ·)) (t : Text) :
    (after? pat (trimEnd t)).getD (trimEnd t) = trimEnd ((after? pat t).getD t) := by
  rw [after?_trimEnd hpat]
  cases after? pat t <;> rfl

theorem afterParens?_trimEnd (t : Text) : afterParens? (trimEnd t) = (afterParens? t).map trimEnd := by
  rw [afterParens?, afterParens?, after?_trimEnd rfl]
  refine bind_map_comm fun u => ?_
  rw [dropWhile_trimEnd, after?_trimEnd rfl]

/-- The text after `.exe`, if it is there, a colon and blanks. -/
def afterExe? (t : Text) : Option Text := (after? ":" ((after? ".exe" t).getD t)).bind (afterSome? isBlank)

theorem afterExe?_trimEnd (t : Text) : afterExe? (trimEnd t) = ((afterExe? t).filter (· ≠ [])).map trimEnd := by
  rw [afterExe?, afterExe?, getD_after?_trimEnd rfl, after?_trimEnd rfl]
  cases after? ":" ((after? ".exe" t).getD t) with
  | none => rfl
  | some u => exact afterSome?_isBlank_trimEnd u

theorem afterLinkerName?_of_ne (h : ∀ rest, t ≠ '.' :: rest) : afterLinkerName? t = afterExe? t := by
  rw [afterExe?]
  delta afterLinkerName?
  dsimp only
  split
  · exact absurd rfl (h _)
  · rfl

/-- Behind the name of a linker there must be a blank, and something behind that. -/
theorem afterLinkerName?_trimEnd (t : Text) : afterLinkerName? (trimEnd t) =
    ((afterLinkerName? t).filter (· ≠ [])).map trimEnd := by
  have hdot (rest : Text) : afterLinkerName? ('.' :: rest) =
      afterExe? ((afterSome? isWordChar rest).getD ('.' :: rest)) := rfl
  by_cases h : ∃ rest, t = '.' :: rest
  · obtain ⟨rest, rfl⟩ := h
    have htrim : trimEnd ('.' :: rest) = '.' :: trimEnd rest := trimEnd_cons_of_not_isBlank rfl rest
    rw [htrim, hdot, hdot, afterSome?_trimEnd fun c => not_isBlank_of_isWordChar, ← htrim, ← afterExe?_trimEnd]
    cases afterSome? isWordChar rest <;> rfl
  · have hne (rest : Text) : t ≠ '.' :: rest := fun heq => h ⟨rest, heq⟩
    have htrim (rest : Text) : trimEnd t ≠ '.' :: rest := fun heq => by
      obtain ⟨b, hb⟩ := trimEnd_isPrefix t
      rw [heq] at hb
      exact hne (rest ++ b) hb.symm
    rw [afterLinkerName?_of_ne hne, afterLinkerName?_of_ne htrim, afterExe?_trimEnd]

/-- What follows the name of a linker is looked for in the same places, unless nothing follows it. -/
theorem afterLinker_trimEnd (previous : Option Char) (t : Text) : afterLinker previous (trimEnd t) =
    ((afterLinker previous t).filter (· ≠ [])).map trimEnd := by
  induction t generalizing previous with
  | nil => rfl
  | cons c t ih =>
    have hhere : (after? "ld" (trimEnd (c :: t))).bind afterLinkerName? =
        (((after? "ld" (c :: t)).bind afterLinkerName?).filter (· ≠ [])).map trimEnd := by
      rw [after?_trimEnd rfl]
      cases after? "ld" (c :: t) with
      | none => rfl
      | some u => exact afterLinkerName?_trimEnd u
    cases hblank : isBlank c with
    | true =>
      -- no linker's name begins with a blank, and none is looked for behind one
      have hnone (u : Text) : afterLinker previous (c :: u) = [] := by
        have hl : c ≠ 'l' := by
          rintro rfl
          cases hblank
        rw [afterLinker, after?_cons_of_ne (show "ld".toList.head? = some 'l' from rfl) hl, hblank]
        simp
      rw [hnone, trimEnd_cons]
      split
      · rfl
      · exact hnone _
    | false =>
      have hboundary (u : Text) : boundary previous (c :: u) = boundary previous [c] := rfl
      rw [trimEnd_cons_of_not_isBlank hblank] at hhere ⊢
      rw [afterLinker, afterLinker, hhere, hboundary, hboundary t, ih, hblank]
      split
      · cases (after? "ld" (c :: t)).bind afterLinkerName? with
        | none => simp
        | some u => by_cases hu : u = [] <;> simp [hu, Option.filter_some]
      · simp

theorem afterObjectExtension?_trimEnd (t : Text) :
    afterObjectExtension? (trimEnd t) = (afterObjectExtension? t).map trimEnd := by
  have hcolon : ":".toList.getLast?.all (!isBlank ·) := rfl
  have hextensions : ∀ e ∈ objectExtensions, e.getLast?.all (!isBlank ·) := List.all_eq_true.mp rfl
  rw [afterObjectExtension?, afterObjectExtension?]
  generalize objectExtensions = extensions at hextensions
  induction extensions with
  | nil => rfl
  | cons e more ih =>
    obtain ⟨he, hmore⟩ := List.forall_mem_cons.mp hextensions
    have hhere : ((after? e (trimEnd t)).bind fun u =>
        ((afterParens? u).bind (after? ":")).orElse fun _ => after? ":" u) =
        ((after? e t).bind fun u =>
          ((afterParens? u).bind (after? ":")).orElse fun _ => after? ":" u).map trimEnd := by
      rw [after?_trimEnd he]
      refine bind_map_comm fun u => ?_
      rw [afterParens?_trimEnd, bind_map_comm (after?_trimEnd hcolon), after?_trimEnd hcolon]
      cases (afterParens? u).bind (after? ":") <;> rfl
    rw [List.findSome?_cons, List.findSome?_cons, hhere, ih hmore]
    cases (after? e t).bind fun u => ((afterParens? u).bind (after? ":")).orElse fun _ => after? ":" u <;> rfl

theorem afterObjectFrom_trimEnd (t : Text) :
    afterObjectFrom (trimEnd t) = (afterObjectFrom t).map trimEnd := by
  induction t with
  | nil => rfl
  | cons c t ih =>
    cases hc : decide (c = ':') || isBlank c with
    | true =>
      have hnone (u : Text) : afterObjectFrom (c :: u) = [] := by
        rw [afterObjectFrom, if_pos (by simpa using hc)]
      rw [hnone, trimEnd_cons]
      split
      · rfl
      · exact hnone _
    | false =>
      have hblank : isBlank c = false := (Bool.or_eq_false_iff.mp hc).2
      have hread (u : Text) : afterObjectFrom (c :: u) =
          afterObjectFrom u ++ (afterObjectExtension? u).toList := by
        rw [afterObjectFrom, if_neg (by simpa using hc)]
      rw [trimEnd_cons_of_not_isBlank hblank, hread, hread, ih, afterObjectExtension?_trimEnd, List.map_append]
      cases afterObjectExtension? t <;> rfl

theorem afterObject_trimEnd (t : Text) : afterObject (trimEnd t) = (afterObject t).map trimEnd := by
  rw [afterObject, afterObject, afterDrive_trimEnd, List.flatMap_map, List.map_flatMap]
  refine congrArg (List.flatMap · (afterDrive t)) (funext fun (drive, rest) => ?_)
  exact afterObjectFrom_trimEnd rest

theorem compactName?_trimEnd (t : Text) : compactName? (trimEnd t) = (compactName? t).map restTrimmed := by
  have hname (c : Char) (hc : (decide (c ≠ ':') && !isBlank c) = true) : isBlank c = false := by
    simpa using (Bool.and_eq_true_iff.mp hc).2
  have hcolon (u : Text) : startsWith ":" (trimEnd u) = startsWith ":" u := by
    cases u with
    | nil => rfl
    | cons c u =>
      rw [trimEnd_cons]
      split
      · rename_i hall
        have hc : ':' ≠ c := by
          rintro rfl
          cases hall
        simp [startsWith, List.isPrefixOf, hc]
      · rfl
  simp only [compactName?, takeWhile_trimEnd hname, dropWhile_trimEnd, hcolon]
  split <;> rfl

theorem linkerLine_trimEnd (t : Text) : linkerLine (trimEnd t) = restTrimmed (linkerLine t) := by
  rw [linkerLine, linkerLine, after?_trimEnd rfl, bind_map_comm digits?_trimEnd]
  cases (after? ":" t).bind digits? <;> rfl

/-! ### Names that are blank -/

/-- The message of a linker that names nothing but blanks. -/
def unnamedReference : Text := "undefined reference to"

/-- A message from which dropping the blanks at its end takes the name. -/
def Unnamed (p : LinePattern) : Prop := trimEnd p.message = unnamedReference

/-- **What a linker's reader makes of a text and of the text without the blanks at its end**: the same, but for
the blanks at the end of the message, unless they are the name. -/
def ReadsAlike (o trimmed : Option LinePattern) : Prop :=
  (∃ p, o = some p ∧ Unnamed p) ∨ trimmed = o.map messageTrimmed

theorem ReadsAlike.findSome? {β : Type} {read read' : β → Option LinePattern}
    (h : ∀ b, ReadsAlike (read b) (read' b)) (bs : List β) :
    ReadsAlike (bs.findSome? read) (bs.findSome? read') := by
  induction bs with
  | nil => exact Or.inr rfl
  | cons b bs ih =>
    rw [List.findSome?_cons, List.findSome?_cons]
    rcases h b with ⟨p, hp, hunnamed⟩ | hb
    · rw [hp]
      exact Or.inl ⟨p, rfl, hunnamed⟩
    · rw [hb]
      cases read b with
      | none => exact ih
      | some p => exact Or.inr rfl

/-- A text that is left empty is in nobody's way. -/
theorem findSome?_filter_trimEnd {read : Text → Option LinePattern} (hread : read [] = none) (ts : List Text) :
    ((ts.filter (· ≠ [])).map trimEnd).findSome? read = ts.findSome? fun t => read (trimEnd t) := by
  induction ts with
  | nil => rfl
  | cons t ts ih =>
    by_cases ht : t = []
    · subst ht
      simp only [List.findSome?_cons, trimEnd_nil, hread, ← ih]
      simp
    · have hkeep : (t :: ts).filter (· ≠ []) = t :: ts.filter (· ≠ []) :=
        List.filter_cons_of_pos (by simpa using ht)
      rw [hkeep, List.map_cons, List.findSome?_cons, List.findSome?_cons, ih]

theorem linkerTail?_trimEnd (file t : Text) : ReadsAlike (linkerTail? file t) (linkerTail? file (trimEnd t)) := by
  have hcolon : ":".toList.getLast?.all (!isBlank ·) := rfl
  have hsection (t : Text) : ((after? ":" (trimEnd t)).bind afterParens?).getD (trimEnd t) =
      trimEnd (((after? ":" t).bind afterParens?).getD t) := by
    rw [after?_trimEnd hcolon, bind_map_comm afterParens?_trimEnd]
    cases (after? ":" t).bind afterParens? <;> rfl
  simp only [linkerTail?, linkerLine_trimEnd, restTrimmed, hsection]
  rw [after?_trimEnd hcolon]
  cases after? ":" (((after? ":" (linkerLine t).2).bind afterParens?).getD (linkerLine t).2) with
  | none => exact Or.inr rfl
  | some u =>
    have hblank : ∃ c ∈ undefinedReference.getLast?, isBlank c := ⟨' ', rfl, rfl⟩
    have hreference := after?_trimEnd_of_blank hblank (trimStart u)
    simp only [Option.map_some, Option.bind_eq_bind, Option.bind_some, trimStart_trimEnd, hreference]
    cases h : after? undefinedReference (trimStart u) with
    | none => exact Or.inr rfl
    | some name =>
      simp only [Option.bind_some, Option.filter_some]
      cases hname : allBlank name with
      | true =>
        cases name with
        | nil => exact Or.inr rfl
        | cons c name =>
          -- the pattern is found with blanks behind it, and it is lost without
          refine Or.inl ⟨_, rfl, ?_⟩
          have hmessage := after?_eq_some.mp h
          have htrim : trimEnd undefinedReference = unnamedReference := rfl
          rw [Unnamed, ← hmessage, trimEnd_append_of_allBlank hname, htrim]
      | false =>
        have hne : name ≠ [] := by
          rintro rfl
          cases hname
        have htrim : trimEnd name ≠ [] := fun h => by simp [trimEnd_eq_nil.mp h] at hname
        refine Or.inr ?_
        simp [hne, htrim, messageTrimmed]

theorem linkerFile?_trimEnd (t : Text) : ReadsAlike (linkerFile? t) (linkerFile? (trimEnd t)) := by
  rw [linkerFile?, linkerFile?, afterDrive_trimEnd, List.findSome?_map]
  refine ReadsAlike.findSome? (fun (drive, rest) => ?_) _
  simp only [Function.comp_apply, restTrimmed, compactName?_trimEnd]
  cases compactName? rest with
  | none => exact Or.inr rfl
  | some r => exact linkerTail?_trimEnd _ _

/-- **The reader for linkers.** -/
theorem linker?_trimEnd (t : Text) : ReadsAlike (linker? t) (linker? (trimEnd t)) := by
  have hobject (u : Text) : ReadsAlike ((afterObject u ++ [u]).findSome? linkerFile?)
      ((afterObject (trimEnd u) ++ [trimEnd u]).findSome? linkerFile?) := by
    have hmap : afterObject (trimEnd u) ++ [trimEnd u] = (afterObject u ++ [u]).map trimEnd := by
      rw [afterObject_trimEnd, List.map_append]
      rfl
    rw [hmap, List.findSome?_map]
    exact ReadsAlike.findSome? linkerFile?_trimEnd _
  have hlinker : (afterLinker none (trimEnd t) ++ [trimEnd t]).findSome?
        (fun u => (afterObject u ++ [u]).findSome? linkerFile?) =
      (afterLinker none t ++ [t]).findSome? fun u =>
        (afterObject (trimEnd u) ++ [trimEnd u]).findSome? linkerFile? := by
    rw [List.findSome?_append, List.findSome?_append, afterLinker_trimEnd, findSome?_filter_trimEnd rfl]
    rfl
  rw [linker?, linker?, hlinker]
  exact ReadsAlike.findSome? hobject _

end BuildMender.LinePattern
