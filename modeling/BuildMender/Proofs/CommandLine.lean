import BuildMender.CommandLine
import BuildMender.Proofs.Text.Line

/-!
# Commands read back

A command that is written on one line is read back from it word by word, so all that matters is what
becomes of one word with any text behind it. Two of the three ways to write a word are safe: in double
quotes, where `CommandLine.escape` leaves nothing that could close them
(`BuildMender.CommandLine.wordsFrom_quote`), and as it is, if it holds no quote and no blank.

The third is the one to know about. A word that holds a double quote, but no blank and no single quote,
is written as it is, and there the double quote opens quotes. It is never read back: a quote that opens
gives no character, so up to the end of the word fewer characters are read than it has, and what the
quotes take beyond that begins with a blank (`BuildMender.CommandLine.head?_wordsFrom_ne`). Hence a command
is read back exactly when it holds no such word (`BuildMender.CommandLine.parse_display_iff`).
-/

namespace BuildMender.CommandLine

open Text

variable {quotes : Quotes} {word : Option Text} {c : Char} {t v w rest : Text} {command : CommandLine}

/-! ### One character inside double quotes -/

/-- A character is taken as it is unless it closes the quotes or escapes the next one. -/
theorem wordsFrom_double_plain (hc : c ≠ '"') (word : Option Text)
    (h : c = '\\' → ∀ d ∈ rest.head?, d ≠ '"' ∧ d ≠ '\\') :
    wordsFrom .double word (c :: rest) = wordsFrom .double (some (word.getD [] ++ [c])) rest := by
  cases rest with
  | nil => simp [wordsFrom, hc]
  | cons d rest =>
    have hescape : ¬(c = '\\' ∧ (d = '"' ∨ d = '\\')) := by
      rintro ⟨hc, hd⟩
      exact hd.elim (h hc d rfl).1 (h hc d rfl).2
    rw [wordsFrom, if_neg hc, if_neg (by simpa using hescape)]

/-! ### Words that are safe -/

/-- Escaped text is read back inside double quotes, up to the quote that closes them. -/
theorem wordsFrom_escape (v w rest : Text) : wordsFrom .double (some v) (escape w ++ '"' :: rest) =
    wordsFrom .outside (some (v ++ w)) rest := by
  induction w generalizing v with
  | nil => rw [List.append_nil, ← wordsFrom_double_close]; rfl
  | cons c w ih =>
    have happend : v ++ c :: w = (v ++ [c]) ++ w := List.append_cons v c w
    rw [escape, List.flatMap_cons, ← escape, List.append_assoc, happend, ← ih]
    by_cases hc : c = '\\' ∨ c = '"'
    · rw [if_pos (by simpa using hc)]
      exact wordsFrom_double_escaped hc _ _
    · rw [not_or] at hc
      rw [if_neg (by simpa using hc)]
      exact wordsFrom_double_plain hc.2 _ fun h => absurd h hc.1

/-- Text without quotes and blanks is read as it is. -/
theorem wordsFrom_plain (hw : ∀ c ∈ w, c ≠ '"' ∧ c ≠ '\x27' ∧ isBlank c = false) (v rest : Text) :
    wordsFrom .outside (some v) (w ++ rest) = wordsFrom .outside (some (v ++ w)) rest := by
  induction w generalizing v with
  | nil => rw [List.append_nil]; rfl
  | cons c w ih =>
    obtain ⟨⟨hdouble, hsingle, hblank⟩, hw⟩ := List.forall_mem_cons.mp hw
    rw [List.cons_append, wordsFrom, if_neg hdouble, if_neg hsingle, if_neg (by simp [hblank]), ih hw]
    simp

/-- A word begun without a character is one that has not been begun, if a character follows. -/
theorem wordsFrom_none (hw : ∀ c ∈ w, isBlank c = false) (hne : w ≠ []) (rest : Text) :
    wordsFrom .outside none (w ++ rest) = wordsFrom .outside (some []) (w ++ rest) := by
  obtain ⟨c, w, rfl⟩ := List.exists_cons_of_ne_nil hne
  have hc : isBlank c = false := hw c List.mem_cons_self
  simp [wordsFrom, hc]

/-- **A word that is written in quotes**: an empty one, or one with a blank or a single quote. -/
def IsQuoted (w : Text) : Prop := w = [] ∨ ∃ c ∈ w, isBlank c ∨ c = '\x27'

theorem quote_of_isQuoted (h : IsQuoted w) : quote w = '"' :: (escape w ++ ['"']) := by
  rw [quote, if_pos]
  · rfl
  · simpa [IsQuoted] using h

theorem quote_of_not_isQuoted (h : ¬IsQuoted w) : quote w = w := by
  rw [quote, if_neg]
  simpa [IsQuoted] using h

theorem not_isQuoted_iff : ¬IsQuoted w ↔ w ≠ [] ∧ ∀ c ∈ w, isBlank c = false ∧ c ≠ '\x27' := by
  simp [IsQuoted]

/-- **A word is safe** if it is written in quotes or needs none. -/
def IsSafe (w : Text) : Prop := '"' ∈ w → IsQuoted w

/-- **A safe word** is read back, whatever follows it. -/
theorem wordsFrom_quote (hw : IsSafe w) (rest : Text) :
    wordsFrom .outside none (quote w ++ rest) = wordsFrom .outside (some w) rest := by
  by_cases hq : IsQuoted w
  · rw [quote_of_isQuoted hq, List.cons_append, List.append_assoc, wordsFrom, if_pos rfl]
    exact wordsFrom_escape [] w rest
  · obtain ⟨hne, hplain⟩ := not_isQuoted_iff.mp hq
    have hdouble : '"' ∉ w := fun h => hq (hw h)
    rw [quote_of_not_isQuoted hq, wordsFrom_none (fun c hc => (hplain c hc).1) hne,
      wordsFrom_plain fun c hc => ⟨fun h => hdouble (h ▸ hc), (hplain c hc).2, (hplain c hc).1⟩]
    rfl

/-! ### Words that are not -/

/-- A character that is no blank and no single quote, outside quotes. -/
theorem wordsFrom_outside (hc : isBlank c = false ∧ c ≠ '\x27') (v rest : Text) :
    wordsFrom .outside (some v) (c :: rest) =
      if c = '"' then wordsFrom .double (some v) rest else wordsFrom .outside (some (v ++ [c])) rest := by
  simp [wordsFrom, hc]

/-- What has been read of a word is the beginning of the first one. -/
theorem exists_wordsFrom {u : Text} (quotes : Quotes) (hu : v <+: u) (t : Text) :
    ∃ first more, wordsFrom quotes (some u) t = first :: more ∧ v <+: first := by
  have hadd {u : Text} (hu : v <+: u) (c : Char) : v <+: u ++ [c] := hu.trans (List.prefix_append _ _)
  generalize hword : some u = word
  fun_induction wordsFrom quotes word t generalizing u with subst hword
  | case1 => exact ⟨u, [], rfl, hu⟩
  | case2 _ _ ih => exact ih hu rfl
  | case3 _ _ _ ih => exact ih hu rfl
  | case4 => exact ⟨u, _, rfl, hu⟩
  | case5 _ c _ _ _ _ ih => exact ih (hadd hu c) rfl
  | case6 _ _ ih => exact ih hu rfl
  | case7 _ c _ _ ih => exact ih (hadd hu c) rfl
  | case8 => exact ⟨u, [], rfl, hu⟩
  | case9 _ c => exact ⟨u ++ [c], [], rfl, hadd hu c⟩
  | case10 _ _ _ ih => exact ih hu rfl
  | case11 _ _ d _ _ _ ih => exact ih (hadd hu d) rfl
  | case12 _ c _ _ _ _ ih => exact ih (hadd hu c) rfl

/-- What stands behind a word on a line: nothing, or a space and more. -/
def IsTail (rest : Text) : Prop := ∀ c ∈ rest.head?, c = ' '

/-- Reading the characters of a word gives at most as many. -/
theorem exists_wordsFrom_append (hrest : IsTail rest) (ht : ∀ c ∈ t, isBlank c = false ∧ c ≠ '\x27')
    (hquotes : quotes ≠ .single) (v : Text) : ∃ quotes' v', quotes' ≠ .single ∧
      wordsFrom quotes (some v) (t ++ rest) = wordsFrom quotes' (some v') rest ∧
      v'.length ≤ v.length + t.length := by
  induction hlen : t.length using Nat.strong_induction_on generalizing t v quotes with
  | _ n ih =>
  subst hlen
  -- one character read, or two of which the first escapes the second
  have hgo {quotes' : Quotes} {v' t' : Text}
      (heq : wordsFrom quotes (some v) (t ++ rest) = wordsFrom quotes' (some v') (t' ++ rest))
      (hquotes' : quotes' ≠ .single) (hsub : t' ⊆ t) (hlen : t'.length < t.length)
      (hv : v'.length + t'.length ≤ v.length + t.length) : ∃ quotes' v', quotes' ≠ .single ∧
        wordsFrom quotes (some v) (t ++ rest) = wordsFrom quotes' (some v') rest ∧
        v'.length ≤ v.length + t.length := by
    obtain ⟨quotes'', v'', hquotes'', hread, hle⟩ :=
      ih t'.length hlen (fun c hc => ht c (hsub hc)) hquotes' v' rfl
    exact ⟨quotes'', v'', hquotes'', heq.trans hread, hle.trans hv⟩
  cases t with
  | nil => exact ⟨quotes, v, hquotes, rfl, Nat.le_refl _⟩
  | cons c t =>
    have hsub : t ⊆ c :: t := List.subset_cons_self c t
    cases quotes with
    | single => exact absurd rfl hquotes
    | outside =>
      have hread := wordsFrom_outside (ht c List.mem_cons_self) v (t ++ rest)
      by_cases hc : c = '"'
      · rw [if_pos hc] at hread
        exact hgo hread (by decide) hsub (by simp) (by simp)
      · rw [if_neg hc] at hread
        exact hgo hread (by decide) hsub (by simp) (by simp; omega)
    | double =>
      by_cases hc : c = '"'
      · subst hc
        exact hgo (wordsFrom_double_close _ _) (by decide) hsub (by simp) (by simp)
      by_cases hescape : c = '\\' ∧ ∃ d ∈ t.head?, d = '\\' ∨ d = '"'
      · obtain ⟨rfl, d, hd, hd'⟩ := hescape
        obtain ⟨t', rfl⟩ : ∃ t', t = d :: t' := List.head?_eq_some_iff.mp hd
        exact hgo (wordsFrom_double_escaped hd' _ _) (by decide) (fun _ h => hsub (List.mem_cons_of_mem _ h))
          (by simp only [List.length_cons]; omega)
          (by simp only [Option.getD_some, List.length_append, List.length_cons, List.length_nil]; omega)
      · refine hgo (wordsFrom_double_plain hc _ fun hc d hd => ?_) (by decide) hsub (by simp)
          (by simp; omega)
        cases t with
        | nil => exact hrest d hd ▸ by decide
        | cons d' t =>
          obtain rfl : d' = d := by simpa using hd
          have hd : ¬(d' = '\\' ∨ d' = '"') := fun h => hescape ⟨hc, d', rfl, h⟩
          exact ⟨fun h => hd (Or.inr h), fun h => hd (Or.inl h)⟩

/-- **A word that is not safe is not read back**, whatever stands behind it. -/
theorem head?_wordsFrom_ne (hw : ¬IsSafe w) (hrest : IsTail rest) :
    (wordsFrom .outside none (quote w ++ rest)).head? ≠ some w := by
  obtain ⟨hdouble, hquoted⟩ : '"' ∈ w ∧ ¬IsQuoted w := by simpa [IsSafe] using hw
  obtain ⟨hne, hplain⟩ := not_isQuoted_iff.mp hquoted
  obtain ⟨u, t, rfl, hu⟩ : ∃ u t, w = u ++ '"' :: t ∧ '"' ∉ u :=
    List.eq_append_cons_of_mem hdouble
  obtain ⟨hu', ht⟩ := List.forall_mem_append.mp hplain
  have ht := (List.forall_mem_cons.mp ht).2
  have hdouble' : Quotes.double ≠ .single := by decide
  obtain ⟨quotes, v, hquotes, hread, hle⟩ := exists_wordsFrom_append hrest ht hdouble' u
  have hopen : wordsFrom .outside none (quote (u ++ '"' :: t) ++ rest) = wordsFrom quotes (some v) rest := by
    rw [quote_of_not_isQuoted hquoted, wordsFrom_none (fun c hc => (hplain c hc).1) hne, List.append_assoc,
      wordsFrom_plain fun c hc => ⟨fun h => hu (h ▸ hc), (hu' c hc).2, (hu' c hc).1⟩, ← hread]
    simp [wordsFrom]
  rw [hopen]
  -- all that has been read up to the end of the word is too short
  have hshort : v ≠ u ++ '"' :: t := by
    rintro rfl
    rw [List.length_append, List.length_cons] at hle
    omega
  cases rest with
  | nil => simpa [wordsFrom] using hshort
  | cons c rest =>
    obtain rfl := hrest c rfl
    cases quotes with
    | single => exact absurd rfl hquotes
    | outside => simpa [wordsFrom, isBlank] using hshort
    | double =>
      -- the quotes are still open, so the word goes on with a blank
      obtain ⟨first, more, hfirst, x, rfl⟩ := exists_wordsFrom .double List.prefix_rfl rest (v := v ++ [' '])
      rw [wordsFrom_double_plain (by decide) _ fun h => absurd h (by decide), Option.getD_some, hfirst,
        List.head?_cons]
      intro hw
      have hblank : ' ' ∈ u ++ '"' :: t := by
        rw [← Option.some.inj hw]
        simp
      exact absurd (hplain _ hblank).1 (by decide)

/-! ### Commands -/

theorem parse_eq_some {line : Text} :
    parse line = some command ↔ words line = command.program :: command.arguments := by
  obtain ⟨program, arguments⟩ := command
  rw [parse]
  split <;> simp_all

/-- What stands on a line behind a word with more words to come. -/
def tail (ws : List Text) : Text := ws.flatMap fun w => ' ' :: quote w

theorem isTail_tail (ws : List Text) : IsTail (tail ws) := by
  cases ws <;> simp [IsTail, tail]

theorem join_map_quote (w : Text) (ws : List Text) : join " " ((w :: ws).map quote) = quote w ++ tail ws := by
  induction ws generalizing w with
  | nil => exact (List.append_nil _).symm
  | cons u ws ih =>
    rw [List.map_cons, join_cons _ _ (by simp), ih]
    simp [tail]

/-- Words are read back if all of them are safe, and only then. -/
theorem wordsFrom_quote_tail (w : Text) (ws : List Text) :
    wordsFrom .outside none (quote w ++ tail ws) = w :: ws ↔ ∀ x ∈ w :: ws, IsSafe x := by
  induction ws generalizing w with
  | nil =>
    by_cases hw : IsSafe w
    · rw [wordsFrom_quote hw]
      exact iff_of_true rfl (by simpa using hw)
    · exact iff_of_false (fun h => head?_wordsFrom_ne hw (isTail_tail []) (by rw [h]; rfl))
        fun h => hw (h w List.mem_cons_self)
  | cons u ws ih =>
    by_cases hw : IsSafe w
    · have hspace : wordsFrom .outside (some w) (tail (u :: ws)) =
          w :: wordsFrom .outside none (quote u ++ tail ws) := by
        rw [tail, List.flatMap_cons, List.cons_append, wordsFrom, if_neg (by decide), if_neg (by decide),
          if_pos (by decide)]
        rfl
      rw [wordsFrom_quote hw, hspace, List.cons_inj_right, ih, List.forall_mem_cons (a := w), and_iff_right hw]
    · exact iff_of_false (fun h => head?_wordsFrom_ne hw (isTail_tail (u :: ws)) (by rw [h]; rfl))
        fun h => hw (h w List.mem_cons_self)

/-- **A command is read back** from the line it is written on exactly when each of its words that holds a
double quote also holds a blank or a single quote. -/
theorem parse_display_iff (command : CommandLine) : parse command.display = some command ↔
    ∀ w ∈ command.program :: command.arguments, '"' ∈ w → ∃ c ∈ w, isBlank c ∨ c = '\x27' := by
  rw [parse_eq_some, words, display, join_map_quote, wordsFrom_quote_tail]
  refine forall₂_congr fun w _ => ?_
  -- a word with a quote in it is not empty
  refine imp_congr_right fun hw => ?_
  rw [IsQuoted, or_iff_right (List.ne_nil_of_mem hw)]

/-- A double quote inside a word without blanks is lost. -/
theorem bareQuote_not_read_back :
    parse (display ⟨"echo", ["a\"b"]⟩) = some ⟨"echo", ["ab"]⟩ ∧
    parse (display ⟨"echo", ["a\"b"]⟩) ≠ some ⟨"echo", ["a\"b"]⟩ := by
  decide +kernel

end BuildMender.CommandLine
