import BuildMender.Text.Basic

/-!
# Text as bytes

Files and streams hold bytes. Text is written in UTF-8, and bytes are read as text in two ways:
strictly, where one wrong byte refuses the whole (`Text.ofBytes?`), and leniently, where each stretch
of bytes that begins no character becomes a replacement character (`Text.ofBytes`).

A place in a text is a number of bytes, and not every number is one: a character takes up to four bytes,
and a text can only be cut where a character begins or the text ends (`Text.cutAtByte?`).
-/

namespace BuildMender.Text

/-- The bytes of a text. -/
def toBytes (t : Text) : ByteArray := (String.ofList t).toByteArray

/-- The text of some bytes, if they are well formed. -/
def ofBytes? (b : ByteArray) : Option Text := b.utf8Decode?.map Array.toList

@[simp] theorem ofBytes?_toBytes (t : Text) : ofBytes? (toBytes t) = some t := by
  simp [ofBytes?, toBytes]

/-- The character that stands for bytes that are none. -/
def replacement : Char := Char.ofNat 0xfffd

/-- What the first byte of a character says: how many bytes follow, its own share of the code point,
and between which values the second byte lies. -/
def leadByte? (b : UInt8) : Option (Nat × Nat × Nat × Nat) :=
  let n := b.toNat
  if n < 0x80 then some (0, n, 0, 0)
  else if n < 0xc2 then none
  else if n < 0xe0 then some (1, n - 0xc0, 0x80, 0xbf)
  else if n = 0xe0 then some (2, 0, 0xa0, 0xbf)
  else if n = 0xed then some (2, 0xd, 0x80, 0x9f)
  else if n < 0xf0 then some (2, n - 0xe0, 0x80, 0xbf)
  else if n = 0xf0 then some (3, 0, 0x90, 0xbf)
  else if n < 0xf4 then some (3, n - 0xf0, 0x80, 0xbf)
  else if n = 0xf4 then some (3, 4, 0x80, 0x8f)
  else none

/-- The bytes of a character after the first: the character, or nothing if it breaks off, and the
bytes after it. -/
def follow : Nat → Nat → Nat → Nat → List UInt8 → Option Char × List UInt8
  | 0, value, _, _, bs => (some (Char.ofNat value), bs)
  | _ + 1, _, _, _, [] => (none, [])
  | n + 1, value, lo, hi, b :: bs =>
    if lo ≤ b.toNat ∧ b.toNat ≤ hi then follow n (value * 64 + (b.toNat - 0x80)) 0x80 0xbf bs
    else (none, b :: bs)

theorem length_follow_le (n value lo hi : Nat) (bs : List UInt8) :
    (follow n value lo hi bs).2.length ≤ bs.length := by
  induction n generalizing value lo hi bs with
  | zero => simp [follow]
  | succ n ih =>
    cases bs with
    | nil => simp [follow]
    | cons b bs =>
      rw [follow]
      split
      · exact Nat.le_succ_of_le (ih ..)
      · simp

/-- The text of a list of bytes, with replacement characters for what is none. -/
def ofByteList : List UInt8 → Text
  | [] => []
  | b :: bs =>
    match leadByte? b with
    | none => replacement :: ofByteList bs
    | some (n, value, lo, hi) =>
      (follow n value lo hi bs).1.getD replacement :: ofByteList (follow n value lo hi bs).2
termination_by bs => bs.length
decreasing_by
  · simp
  · have := length_follow_le n value lo hi bs
    simp
    omega

/-- **The text of some bytes**, with replacement characters for what is none. -/
def ofBytes (b : ByteArray) : Text := (ofBytes? b).getD (ofByteList b.toList)

/-! ### Places -/

/-- The number of the byte with which each character begins, where the first one has the number `start`. -/
def offsetsFrom (start : Nat) : Text → List Nat
  | [] => []
  | c :: cs => start :: offsetsFrom (start + c.utf8Size) cs

/-- The number of the byte with which each character of a text begins. -/
def offsets (t : Text) : List Nat := offsetsFrom 0 t

/-- **A cut in front of a byte**: the text before it and the text from there on, or nothing if the byte lies
inside a character or beyond the end of the text. -/
def cutAtByte? (n : Nat) : Text → Option (Text × Text)
  | [] => if n = 0 then some ([], []) else none
  | c :: cs =>
    if n = 0 then some ([], c :: cs)
    else if c.utf8Size ≤ n then (cutAtByte? (n - c.utf8Size) cs).map fun p => (c :: p.1, p.2)
    else none

end BuildMender.Text
