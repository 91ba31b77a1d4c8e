import BuildMender.Proofs.Text.Line
import BuildMender.Text.Case
import BuildMender.Text.Class
import BuildMender.Text.Word

/-!
# Characters and numerals

The classes of characters come from tables of the Unicode standard. No digit and no character of a word is a
blank: in ASCII one sees it, and beyond it no range of one table meets a range of the other.

The lower case of a text is found in tables too. What lies beyond ASCII has no small ASCII letter for its lower
case, except that the Kelvin sign has `k` and the capital I with a dot has `i` with a dot behind it. So a lower
case of other ASCII letters comes from ASCII letters alone (`BuildMender.Text.lowercase_eq_map`).

A decimal numeral is read back as its number (`BuildMender.Text.unsigned?_decimal`): it is made of ASCII
digits, at least one of them and no sign in front, and they count for what they were made from.
-/

namespace BuildMender.Text

variable {c : Char} {n : Nat} {ranges others : List (Nat × Nat)}

/-! ### No blanks -/

theorem exists_of_inRanges (h : inRanges n ranges) : ∃ r ∈ ranges, r.1 ≤ n ∧ n ≤ r.2 := by
  induction ranges with
  | nil => cases h
  | cons r more ih =>
    rw [inRanges] at h
    split at h
    · cases h
    · rename_i hlow
      rcases Bool.or_eq_true_iff.mp h with h | h
      · exact ⟨r, List.mem_cons_self, Nat.not_lt.mp hlow, of_decide_eq_true h⟩
      · obtain ⟨r', hr', hbounds⟩ := ih h
        exact ⟨r', List.mem_cons_of_mem r hr', hbounds⟩

/-- A number lies in one of two tables at most, if no two of their ranges meet. -/
theorem not_inRanges (hapart : ∀ r ∈ ranges, ∀ s ∈ others, r.2 < s.1 ∨ s.2 < r.1) (h : inRanges n ranges) :
    inRanges n others = false := by
  rw [Bool.eq_false_iff]
  intro hother
  obtain ⟨r, hr, hlow, hhigh⟩ := exists_of_inRanges h
  obtain ⟨s, hs, hlow', hhigh'⟩ := exists_of_inRanges hother
  have := hapart r hr s hs
  omega

/-- The ASCII blanks lie below the digits and letters. -/
theorem not_isBlank_of_ascii (h : c.toNat < 128) (hlow : 33 ≤ c.toNat) : isBlank c = false := by
  have hspace : c ≠ ' ' := by
    rintro rfl
    exact absurd hlow (by decide)
  rw [isBlank, if_pos h, Bool.or_eq_false_iff, decide_eq_false_iff_not, Bool.and_eq_false_iff]
  exact ⟨hspace, Or.inr (decide_eq_false (by omega))⟩

theorem bounds_of_isAsciiLetter (h : isAsciiLetter c) : 65 ≤ c.toNat ∧ c.toNat < 128 := by
  have hbounds : ('a' ≤ c ∧ c ≤ 'z') ∨ ('A' ≤ c ∧ c ≤ 'Z') := by simpa [isAsciiLetter] using h
  rcases hbounds with ⟨hlow, hhigh⟩ | ⟨hlow, hhigh⟩
  · exact ⟨Nat.le_trans (by decide) (show 'a'.toNat ≤ c.toNat from hlow),
      Nat.lt_of_le_of_lt (show c.toNat ≤ 'z'.toNat from hhigh) (by decide)⟩
  · exact ⟨Nat.le_trans (by decide) (show 'A'.toNat ≤ c.toNat from hlow),
      Nat.lt_of_le_of_lt (show c.toNat ≤ 'Z'.toNat from hhigh) (by decide)⟩

/-- **A letter is no blank.** -/
theorem not_isBlank_of_isAsciiLetter (h : isAsciiLetter c) : isBlank c = false := by
  obtain ⟨hlow, hhigh⟩ := bounds_of_isAsciiLetter h
  exact not_isBlank_of_ascii hhigh (by omega)

theorem not_isAsciiDigit_of_isAsciiLetter (h : isAsciiLetter c) : isAsciiDigit c = false := by
  obtain ⟨hlow, -⟩ := bounds_of_isAsciiLetter h
  rw [isAsciiDigit, Bool.and_eq_false_iff]
  refine Or.inr (decide_eq_false fun hc => ?_)
  exact absurd (Nat.le_trans hlow (show c.toNat ≤ '9'.toNat from hc)) (by decide)

theorem isAsciiLetter_of_isAsciiCapital (h : isAsciiCapital c) : isAsciiLetter c := by
  rw [isAsciiLetter, Bool.or_eq_true]
  exact Or.inr h

/-- **A digit is no blank.** -/
theorem not_isBlank_of_isDigit (h : isDigit c) : isBlank c = false := by
  rw [isDigit] at h
  split at h
  · rename_i hascii
    rw [Bool.and_eq_true, decide_eq_true_eq] at h
    exact not_isBlank_of_ascii hascii (Nat.le_trans (by decide) (show '0'.toNat ≤ c.toNat from h.1))
  · rename_i hascii
    rw [isBlank, if_neg hascii]
    exact not_inRanges (by decide) h

/-- **A character of a word is no blank.** -/
theorem not_isBlank_of_isWordChar (h : isWordChar c) : isBlank c = false := by
  rw [isWordChar] at h
  split at h
  · simp only [isAsciiDigit, Bool.or_eq_true, Bool.and_eq_true, decide_eq_true_eq] at h
    rename_i hascii
    rcases h with (h | h) | rfl
    · exact not_isBlank_of_isAsciiLetter h
    · exact not_isBlank_of_ascii hascii (Nat.le_trans (by decide) (show '0'.toNat ≤ c.toNat from h.1))
    · decide
  · rename_i hascii
    rw [isBlank, if_neg hascii]
    exact not_inRanges (by decide +kernel) h

/-! ### Letter case -/

/-- The Kelvin sign. -/
def kelvin : Nat := 0x212a

theorem smallLetter_beyond {runs : List (Nat × Nat × Nat × Int)}
    (hruns : ∀ r ∈ runs, 128 ≤ r.1 + r.2.2.2 ∨ r.1 = kelvin ∧ r.2.1 = kelvin) (hn : 128 ≤ n) :
    128 ≤ smallLetter n runs ∨ n = kelvin := by
  induction runs with
  | nil => exact Or.inl hn
  | cons r more ih =>
    obtain ⟨hr, hmore⟩ := List.forall_mem_cons.mp hruns
    obtain ⟨lo, hi, step, offset⟩ := r
    rw [smallLetter]
    split
    · dsimp only at hr
      rcases hr with hr | hr
      · exact Or.inl (by omega)
      · exact Or.inr (by omega)
    · exact ih hmore

/-- A number stands for the character of that number, or for none. -/
theorem toNat_ofNat (n : Nat) : (Char.ofNat n).toNat = n ∨ (Char.ofNat n).toNat = 0 := by
  by_cases h : n.isValidChar
  · refine Or.inl ?_
    rw [Char.ofNat, dif_pos h]
    rfl
  · refine Or.inr ?_
    rw [Char.ofNat, dif_neg h]
    rfl

/-- **A small ASCII letter is the lower case of ASCII letters** only, `k` apart. -/
theorem ascii_of_lowerChar (h : ∀ x ∈ lowerChar c, isAsciiLetter x ∧ x ≠ 'k') : c.toNat < 128 := by
  have hruns : ∀ r ∈ capitalRuns, 128 ≤ (r.1 : Int) + r.2.2.2 ∨ r.1 = kelvin ∧ r.2.1 = kelvin := by
    decide +kernel
  by_contra hbeyond
  rw [lowerChar, if_neg hbeyond] at h
  split at h
  · exact absurd (h (Char.ofNat 0x307) (by simp)).1 (by decide)
  · obtain ⟨hletter, hk⟩ := h _ (List.mem_singleton_self _)
    rcases smallLetter_beyond hruns (Nat.not_lt.mp hbeyond) with hsmall | hkelvin
    · have hbounds := bounds_of_isAsciiLetter hletter
      rcases toNat_ofNat (smallLetter c.toNat capitalRuns) with heq | heq <;> omega
    · rw [hkelvin] at hk
      exact hk (by decide +kernel)

theorem lowerFrom_eq_map {before : Text} {t : Text}
    (h : ∀ x ∈ lowerFrom before t, isAsciiLetter x ∧ x ≠ 'k') : lowerFrom before t = t.map asciiLower := by
  induction t generalizing before with
  | nil => rfl
  | cons c rest ih =>
    rw [lowerFrom] at h ⊢
    rw [List.forall_mem_append] at h
    obtain ⟨hc, hrest⟩ := h
    have hsigma : c.toNat ≠ 0x3a3 := by
      intro heq
      rw [if_pos heq] at hc
      refine absurd (hc _ (List.mem_singleton_self _)).1 ?_
      split <;> decide
    rw [if_neg hsigma] at hc
    rw [if_neg hsigma, ih hrest, lowerChar, if_pos (ascii_of_lowerChar hc)]
    rfl

/-- **A lower case of ASCII letters** other than `k` is that of ASCII letters. -/
theorem lowercase_eq_map {t : Text} (h : ∀ x ∈ lowercase t, isAsciiLetter x ∧ x ≠ 'k') :
    lowercase t = t.map asciiLower := lowerFrom_eq_map h

/-! ### Digits -/

variable {bound : Nat} {t : Text}

theorem isAsciiDigit_iff : isAsciiDigit c ↔ '0' ≤ c ∧ c ≤ '9' := by
  rw [isAsciiDigit, Bool.and_eq_true, decide_eq_true_eq, decide_eq_true_eq]

/-- The ASCII digits are digits. -/
theorem isDigit_of_isAsciiDigit (h : isAsciiDigit c) : isDigit c := by
  have hascii : c.toNat < 128 := by
    have hle : c.toNat ≤ '9'.toNat := (isAsciiDigit_iff.mp h).2
    exact Nat.lt_of_le_of_lt hle (by decide)
  rw [isDigit, if_pos hascii]
  exact h

theorem isAsciiDigit_of_mem_decimal (h : c ∈ decimal n) : isAsciiDigit c := by
  have hdigit : c.isDigit := Nat.isDigit_of_mem_toDigits (by decide) (by decide) h
  rw [Char.isDigit, Bool.and_eq_true, decide_eq_true_eq, decide_eq_true_eq] at hdigit
  exact isAsciiDigit_iff.mpr hdigit

theorem decimal_ne_nil (n : Nat) : decimal n ≠ [] := Nat.toDigits_ne_nil

/-- A numeral holds nothing but digits. -/
theorem not_mem_decimal (hc : isAsciiDigit c = false) (n : Nat) : c ∉ decimal n := fun hmem => by
  simp [isAsciiDigit_of_mem_decimal hmem] at hc

/-! ### Numbers -/

/-- The value of some digits, read on from a number. -/
theorem digitsFrom_eq (h : ∀ c ∈ t, isAsciiDigit c) (acc : Nat) :
    digitsFrom acc t = some (Nat.ofDigitChars 10 t acc) := by
  induction t generalizing acc with
  | nil => rfl
  | cons c cs ih =>
    obtain ⟨hc, hcs⟩ := List.forall_mem_cons.mp h
    have hvalue : digitValue? c = some (c.toNat - '0'.toNat) := if_pos (isAsciiDigit_iff.mp hc)
    rw [digitsFrom, hvalue, Option.bind_some, ih hcs, Nat.ofDigitChars_cons]

/-- **A numeral is read back**, if its number is small enough. -/
theorem unsigned?_decimal (h : n < bound) : unsigned? bound (decimal n) = some n := by
  have hdigits : ∀ c ∈ decimal n, isAsciiDigit c := fun c => isAsciiDigit_of_mem_decimal
  have hplus : after? "+" (decimal n) = none := by
    rw [after?_eq_none]
    rintro ⟨rest, hrest⟩
    have hmem : '+' ∈ decimal n := hrest ▸ List.mem_append_left rest (by decide)
    exact absurd (hdigits '+' hmem) (by decide)
  have hne : (decimal n).isEmpty = false := by
    rw [List.isEmpty_eq_false_iff]
    exact decimal_ne_nil n
  rw [unsigned?, hplus, Option.getD_none, hne, digitsFrom_eq hdigits, decimal, Nat.ofDigitChars_ten_toDigits]
  simp [h]

end BuildMender.Text
