/-!
# Text as lists of characters

Everything this library reads and writes is text: build logs, source files, patches, prompts. Text
is handled as the list of its characters, so that each rule about it is a recursion on that list and
no byte offset ever appears. A literal in quotes may stand wherever text is expected.

This file holds the operations that ask nothing of a character but whether it equals another:
finding a pattern (`Text.cut`, `Text.cutLast`), splitting (`Text.split`), joining (`Text.join`),
replacing (`Text.replace`), and the decimal numerals. What pins the search down is `Text.eq_of_cut`:
nothing is lost. Splitting and joining undo each other (`Text.split_join`).
-/

namespace BuildMender

/-- Text is the list of its characters. -/
abbrev Text := List Char

/-- A quoted literal is the list of its characters. -/
instance : Coe String Text := ⟨String.toList⟩

namespace Text

/-! ### Finding a pattern -/

/-- **The first occurrence of a pattern**: the text before it and the text after it, or nothing when
the pattern does not occur. The empty pattern occurs at the start of every text. -/
def cut (pat : Text) : Text → Option (Text × Text)
  | [] => if pat.isEmpty then some ([], []) else none
  | c :: cs =>
    match pat.isPrefixOf? (c :: cs) with
    | some rest => some ([], rest)
    | none => (cut pat cs).map fun p => (c :: p.1, p.2)

/-- The last occurrence of a pattern: the text before it and the text after it. -/
def cutLast (pat t : Text) : Option (Text × Text) :=
  (cut pat.reverse t.reverse).map fun p => (p.2.reverse, p.1.reverse)

/-- Whether a pattern occurs somewhere in a text. -/
def occurs (pat : Text) : Text → Bool
  | [] => pat.isEmpty
  | c :: cs => pat.isPrefixOf (c :: cs) || occurs pat cs

/-- Whether a text begins with a pattern. -/
def startsWith (pat t : Text) : Bool := pat.isPrefixOf t

/-- Whether a text ends with a pattern. -/
def endsWith (pat t : Text) : Bool := pat.isSuffixOf t

/-- The text after a pattern that it begins with. -/
def after? (pat t : Text) : Option Text := pat.isPrefixOf? t

/-- The text before a pattern that it ends with. -/
def before? (pat t : Text) : Option Text := (pat.reverse.isPrefixOf? t.reverse).map List.reverse

theorem eq_of_isPrefixOf? {pat t rest : Text} (h : pat.isPrefixOf? t = some rest) :
    t = pat ++ rest := by
  induction pat generalizing t with
  | nil => exact Option.some.inj h
  | cons c cs ih =>
    cases t with
    | nil => cases h
    | cons d ds =>
      change (if c == d then cs.isPrefixOf? ds else none) = some rest at h
      split at h
      · rename_i hcd
        rw [ih h, ← eq_of_beq hcd]; rfl
      · cases h

/-- Nothing is lost at a cut: the parts with the pattern between them are the text. -/
theorem eq_of_cut {pat t before after : Text} (h : cut pat t = some (before, after)) :
    t = before ++ pat ++ after := by
  induction t generalizing before with
  | nil =>
    rw [cut] at h
    split at h
    · rename_i hp
      cases h
      simp [List.isEmpty_iff.1 hp]
    · cases h
  | cons c cs ih =>
    rw [cut] at h
    split at h
    · rename_i rest hr
      cases h
      simpa using eq_of_isPrefixOf? hr
    · cases hc : cut pat cs with
      | none => simp [hc] at h
      | some p =>
        obtain ⟨b, a⟩ := p
        simp only [hc, Option.map_some, Option.some.injEq, Prod.mk.injEq] at h
        obtain ⟨rfl, rfl⟩ := h
        rw [ih hc]
        simp

/-! ### Splitting, joining, replacing -/

/-- The pieces of a text between the characters that satisfy `p`; there is always at least one. -/
def split (p : Char → Bool) : Text → List Text
  | [] => [[]]
  | c :: cs =>
    if p c then [] :: split p cs
    else match split p cs with
      | [] => [[c]]
      | piece :: more => (c :: piece) :: more

theorem split_ne_nil (p : Char → Bool) (t : Text) : split p t ≠ [] := by
  cases t with
  | nil => simp [split]
  | cons c cs =>
    rw [split]
    split
    · simp
    · split <;> simp

/-- A separator between two texts separates their pieces. -/
theorem split_append_cons {p : Char → Bool} {c : Char} (hc : p c) (a b : Text) :
    split p (a ++ c :: b) = split p a ++ split p b := by
  induction a with
  | nil => simp [split, hc]
  | cons d ds ih =>
    rw [List.cons_append, split, split, ih]
    split
    · rfl
    · cases hds : split p ds with
      | nil => exact absurd hds (split_ne_nil p ds)
      | cons piece more => rfl

/-- No piece holds a separator. -/
theorem not_mem_of_mem_split {p : Char → Bool} {t piece : Text} (h : piece ∈ split p t) :
    ∀ c ∈ piece, ¬ p c := by
  induction t generalizing piece with
  | nil =>
    obtain rfl := List.mem_singleton.mp h
    simp
  | cons d ds ih =>
    rw [split] at h
    split at h
    · rcases List.mem_cons.mp h with rfl | h
      · simp
      · exact ih h
    · rename_i hd
      cases hds : split p ds with
      | nil => exact absurd hds (split_ne_nil p ds)
      | cons first more =>
        rw [hds] at h
        rcases List.mem_cons.mp h with rfl | h
        · intro c hc
          rcases List.mem_cons.mp hc with rfl | hc
          · exact hd
          · exact ih (hds ▸ List.mem_cons_self) c hc
        · exact ih (hds ▸ List.mem_cons_of_mem _ h)

/-- A text without separators is one piece. -/
theorem split_of_none {p : Char → Bool} {t : Text} (h : ∀ c ∈ t, ¬ p c) : split p t = [t] := by
  induction t with
  | nil => rfl
  | cons d ds ih =>
    have hd : ¬ p d := h d List.mem_cons_self
    rw [split, if_neg hd, ih fun c hc => h c (List.mem_cons_of_mem _ hc)]

/-- The pieces with a separator between each two. -/
def join (sep : Text) : List Text → Text
  | [] => []
  | [t] => t
  | t :: more => t ++ sep ++ join sep more

theorem join_cons (sep t : Text) {ps : List Text} (h : ps ≠ []) : join sep (t :: ps) = t ++ sep ++ join sep ps := by
  obtain ⟨u, more, rfl⟩ := List.exists_cons_of_ne_nil h
  rfl

/-- The pieces of a text, joined by the separator, are the text. -/
theorem join_split (c : Char) (t : Text) : join [c] (split (· = c) t) = t := by
  induction t with
  | nil => rfl
  | cons d ds ih =>
    rw [split]
    split
    · rename_i hd
      rw [join_cons _ _ (split_ne_nil _ _), ih, ← of_decide_eq_true hd]
      rfl
    · cases h : split (· = c) ds with
      | nil => exact absurd h (split_ne_nil _ _)
      | cons piece more =>
        rw [h] at ih
        rw [← ih]
        cases more <;> rfl

theorem join_append (sep : Text) {ps qs : List Text} (hp : ps ≠ []) (hq : qs ≠ []) :
    join sep (ps ++ qs) = join sep ps ++ sep ++ join sep qs := by
  induction ps with
  | nil => exact absurd rfl hp
  | cons t ps ih =>
    by_cases hps : ps = []
    · rw [hps, List.singleton_append, join_cons sep t hq]
      rfl
    · rw [List.cons_append, join_cons sep t (by simp [hps]), ih hps, join_cons sep t hps]
      simp

/-- Pieces without separators, joined by one, are the pieces of what comes out. -/
theorem split_join {p : Char → Bool} {c : Char} (hc : p c) {ps : List Text} (hne : ps ≠ [])
    (h : ∀ t ∈ ps, ∀ x ∈ t, ¬ p x) : split p (join [c] ps) = ps := by
  induction ps with
  | nil => exact absurd rfl hne
  | cons t more ih =>
    have ht : split p t = [t] := split_of_none (h t List.mem_cons_self)
    cases more with
    | nil => exact ht
    | cons u more =>
      have hu := ih (List.cons_ne_nil u more) fun t ht => h t (List.mem_cons_of_mem _ ht)
      have : join [c] (t :: u :: more) = t ++ c :: join [c] (u :: more) := by simp [join]
      rw [this, split_append_cons hc, ht, hu]
      rfl

/-- Every occurrence of one character turned into another. -/
def replace (old new : Char) (t : Text) : Text := t.map fun c => if c = old then new else c

/-- The text without the leading characters that satisfy `p`. -/
def dropStart (p : Char → Bool) (t : Text) : Text := t.dropWhile p

/-- The text without the trailing characters that satisfy `p`. -/
def dropEnd (p : Char → Bool) (t : Text) : Text := (t.reverse.dropWhile p).reverse

/-- A text repeated `n` times. -/
def repeated (n : Nat) (t : Text) : Text := (List.replicate n t).flatten

/-! ### Numerals -/

/-- The decimal numeral of a number. -/
def decimal (n : Nat) : Text := Nat.toDigits 10 n

/-- The decimal numeral of an integer, a minus sign before a negative one. -/
def integer : Int → Text
  | .ofNat n => decimal n
  | .negSucc n => '-' :: decimal (n + 1)

/-- The value of an ASCII digit. -/
def digitValue? (c : Char) : Option Nat :=
  if '0' ≤ c ∧ c ≤ '9' then some (c.toNat - '0'.toNat) else none

/-- The value of a run of ASCII digits read on from `acc`. -/
def digitsFrom (acc : Nat) : Text → Option Nat
  | [] => some acc
  | c :: cs => (digitValue? c).bind fun d => digitsFrom (10 * acc + d) cs

/-- **An unsigned numeral**: one or more ASCII digits, with at most one plus sign before them, whose
value is below `bound`. Blanks, minus signs and digit separators are refused. -/
def unsigned? (bound : Nat) (t : Text) : Option Nat :=
  let digits := (after? "+" t).getD t
  if digits.isEmpty then none
  else (digitsFrom 0 digits).filter (· < bound)

/-- The number of values a word of 32 bits can take. -/
def bound32 : Nat := 4294967296

/-- The number of values a word of 64 bits can take. -/
def bound64 : Nat := 18446744073709551616

end Text

end BuildMender
