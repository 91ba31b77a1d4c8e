import BuildMender.Text.Basic

/-!
# Blank, digit and word characters

Three classes of characters decide how a line of a build log is read: the blanks that are trimmed
away, the digits of a line number, and the characters a word is made of. All three are properties of
the Unicode standard, so a full-width digit counts as a digit and an ideographic space is a blank.
Each class answers ASCII directly and looks everything else up in a table of inclusive ranges.

The word class is that of regular-expression practice: letters, marks, decimal digits, connector
punctuation and the two joiners.
-/

namespace BuildMender.Text

/-- Whether a number lies in one of the ranges, which are given in increasing order. -/
def inRanges (n : Nat) : List (Nat × Nat) → Bool
  | [] => false
  | (lo, hi) :: more => if n < lo then false else n ≤ hi || inRanges n more

/-- The ranges of the property `White_Space`. -/
def blankRanges : List (Nat × Nat) :=
  [(0x9, 0xd), (0x20, 0x20), (0x85, 0x85), (0xa0, 0xa0), (0x1680, 0x1680), (0x2000, 0x200a),
   (0x2028, 0x2029), (0x202f, 0x202f), (0x205f, 0x205f), (0x3000, 0x3000)]

/-- The ranges of the decimal digits. -/
def digitRanges : List (Nat × Nat) :=
  [(0x30, 0x39), (0x660, 0x669), (0x6f0, 0x6f9), (0x7c0, 0x7c9), (0x966, 0x96f), (0x9e6, 0x9ef),
   (0xa66, 0xa6f), (0xae6, 0xaef), (0xb66, 0xb6f), (0xbe6, 0xbef), (0xc66, 0xc6f), (0xce6, 0xcef),
   (0xd66, 0xd6f), (0xde6, 0xdef), (0xe50, 0xe59), (0xed0, 0xed9), (0xf20, 0xf29), (0x1040, 0x1049),
   (0x1090, 0x1099), (0x17e0, 0x17e9), (0x1810, 0x1819), (0x1946, 0x194f), (0x19d0, 0x19d9),
   (0x1a80, 0x1a89), (0x1a90, 0x1a99), (0x1b50, 0x1b59), (0x1bb0, 0x1bb9), (0x1c40, 0x1c49),
   (0x1c50, 0x1c59), (0xa620, 0xa629), (0xa8d0, 0xa8d9), (0xa900, 0xa909), (0xa9d0, 0xa9d9),
   (0xa9f0, 0xa9f9), (0xaa50, 0xaa59), (0xabf0, 0xabf9), (0xff10, 0xff19), (0x104a0, 0x104a9),
   (0x10d30, 0x10d39), (0x10d40, 0x10d49), (0x11066, 0x1106f), (0x110f0, 0x110f9), (0x11136, 0x1113f),
   (0x111d0, 0x111d9), (0x112f0, 0x112f9), (0x11450, 0x11459), (0x114d0, 0x114d9), (0x11650, 0x11659),
   (0x116c0, 0x116c9), (0x116d0, 0x116e3), (0x11730, 0x11739), (0x118e0, 0x118e9), (0x11950, 0x11959),
   (0x11bf0, 0x11bf9), (0x11c50, 0x11c59), (0x11d50, 0x11d59), (0x11da0, 0x11da9), (0x11f50, 0x11f59),
   (0x16130, 0x16139), (0x16a60, 0x16a69), (0x16ac0, 0x16ac9), (0x16b50, 0x16b59), (0x16d70, 0x16d79),
   (0x1ccf0, 0x1ccf9), (0x1d7ce, 0x1d7ff), (0x1e140, 0x1e149), (0x1e2f0, 0x1e2f9), (0x1e4f0, 0x1e4f9),
   (0x1e5f1, 0x1e5fa), (0x1e950, 0x1e959), (0x1fbf0, 0x1fbf9)]

/-- Blank characters, those with the property `White_Space`. -/
def isBlank (c : Char) : Bool :=
  if c.toNat < 128 then c = ' ' || (9 ≤ c.toNat && c.toNat ≤ 13)
  else inRanges c.toNat blankRanges

/-- Decimal digits of any script. -/
def isDigit (c : Char) : Bool :=
  if c.toNat < 128 then '0' ≤ c && c ≤ '9' else inRanges c.toNat digitRanges

/-- The ASCII letters. -/
def isAsciiLetter (c : Char) : Bool := ('a' ≤ c && c ≤ 'z') || ('A' ≤ c && c ≤ 'Z')

/-- The ASCII digits. -/
def isAsciiDigit (c : Char) : Bool := '0' ≤ c && c ≤ '9'

/-- The ASCII capitals. -/
def isAsciiCapital (c : Char) : Bool := 'A' ≤ c && c ≤ 'Z'

/-! ### Trimming -/

/-- The text without leading blanks. -/
def trimStart (t : Text) : Text := dropStart isBlank t

/-- The text without trailing blanks. -/
def trimEnd (t : Text) : Text := dropEnd isBlank t

/-- The text without leading and trailing blanks. -/
def trim (t : Text) : Text := trimEnd (trimStart t)

theorem head?_dropStart {p : Char → Bool} {t : Text} {c : Char} (h : c ∈ (dropStart p t).head?) :
    p c = false := by
  have := List.head?_dropWhile_not p t
  rw [← dropStart, Option.mem_def.mp h] at this
  exact this

theorem dropStart_of_head? {p : Char → Bool} {t : Text} (h : ∀ c ∈ t.head?, p c = false) :
    dropStart p t = t := by
  cases t with
  | nil => rfl
  | cons c t => exact List.dropWhile_cons_of_neg (by simpa using h c rfl)

/-- What is trimmed has no blanks at its ends. -/
theorem trim_trim (t : Text) : trim (trim t) = trim t := by
  have hend : trimEnd (trim t) = trim t := by
    have hidle := dropStart_of_head? (t := (dropStart isBlank (trimStart t).reverse)) fun c =>
      head?_dropStart
    simp only [trim, trimEnd, dropEnd, List.reverse_reverse]
    exact congrArg List.reverse hidle
  have hstart : trimStart (trim t) = trim t := by
    refine dropStart_of_head? fun c hc => ?_
    obtain ⟨rest, hrest⟩ : trim t <+: trimStart t := by
      rw [trim, trimEnd, dropEnd, ← List.reverse_suffix, List.reverse_reverse]
      exact List.dropWhile_suffix _
    refine head?_dropStart (t := t) ?_
    rw [← trimStart, ← hrest, List.head?_append, Option.mem_def.mp hc]
    rfl
  rw [trim, hstart, hend]

/-- Whether a text holds nothing but blanks. -/
def allBlank (t : Text) : Bool := t.all isBlank

/-- The non-empty pieces of a text between blanks. -/
def fields (t : Text) : List Text := (split isBlank t).filter fun w => !w.isEmpty

end BuildMender.Text
