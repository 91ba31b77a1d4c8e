import BuildMender.Path
import BuildMender.Text.Utf8
import Mathlib.Data.List.Basic
import Mathlib.Order.Defs.LinearOrder

/-!
# The order of texts and the order of their bytes

Names are sorted by the code points of their characters. This is the lexicographic order of the library,
written out (`BuildMender.Path.compareText_eq`), so it is total and transitive, and two texts that come
neither before nor after each other are one text (`BuildMender.Path.eq_of_compareText`).

Elsewhere texts are compared by their bytes, as they are kept in UTF-8. That is one order
(`BuildMender.Path.compareText_eq_lt`): the encoding of a character with a smaller code point is smaller at the
first byte where the two differ, and there is such a byte, because no encoding begins another one. So what
follows the characters never matters.
-/

namespace BuildMender

namespace Path

/-! ### Code points -/

theorem eq_of_compareLists {α : Type} {cmp : α → α → Ordering} (hcmp : ∀ a b, cmp a b = .eq → a = b)
    {as bs : List α} (h : compareLists cmp as bs = .eq) : as = bs := by
  induction as generalizing bs with
  | nil =>
    cases bs with
    | nil => rfl
    | cons b bs => simp [compareLists] at h
  | cons a as ih =>
    cases bs with
    | nil => simp [compareLists] at h
    | cons b bs =>
      rw [compareLists, Ordering.then_eq_eq] at h
      rw [hcmp a b h.1, ih h.2]

/-- Texts that come neither before nor after each other are one text. -/
theorem eq_of_compareText {a b : Text} (h : compareText a b = .eq) : a = b :=
  eq_of_compareLists (fun _ _ hc => Char.toNat_inj.mp (Nat.compare_eq_eq.mp hc)) h

theorem compareLists_eq_compareLex {α : Type} (cmp : α → α → Ordering) (as bs : List α) :
    compareLists cmp as bs = List.compareLex cmp as bs := by
  induction as generalizing bs with
  | nil => cases bs <;> rfl
  | cons a as ih =>
    cases bs with
    | nil => rfl
    | cons b bs => rw [compareLists, ih, List.compareLex_cons_cons]

theorem compareText_eq : compareText = List.compareLex (compareOn Char.toNat) := by
  funext a b
  exact compareLists_eq_compareLex _ a b

instance : Std.TransCmp compareText := by
  rw [compareText_eq]
  infer_instance

end Path

namespace Text

/-- The bytes of a text, one after the other. -/
def byteList (t : Text) : List UInt8 := (toBytes t).data.toList

theorem byteList_eq (t : Text) : byteList t = t.flatMap String.utf8EncodeChar := by
  rw [byteList, toBytes, String.toByteArray_ofList, List.utf8Encode, List.toList_data_toByteArray]

/-! ### The encoding of a character -/

/-- The first of two bytes that differ decides. -/
theorem ofNat_cons_lt {m n : Nat} (hm : m < 256) (hn : n < 256) (r s : List UInt8) :
    UInt8.ofNat m :: r < UInt8.ofNat n :: s ↔ m < n ∨ m = n ∧ r < s := by
  rw [List.cons_lt_cons_iff, UInt8.lt_iff_toNat_lt, ← UInt8.toNat_inj, UInt8.toNat_ofNat', UInt8.toNat_ofNat',
    Nat.mod_eq_of_lt hm, Nat.mod_eq_of_lt hn]

/-- A code point is put together from the shares that its bytes have of it. -/
theorem eq_of_shares (n : Nat) :
    n = 64 * (64 * (64 * (n / 262144) + n / 4096 % 64) + n / 64 % 64) + n % 64 := by
  omega

/-- **A smaller character has the smaller encoding**, whatever follows. -/
theorem encode_append_lt {c d : Char} (h : c.toNat < d.toNat) (r s : List UInt8) :
    String.utf8EncodeChar c ++ r < String.utf8EncodeChar d ++ s := by
  have hd : d.val.toNat < 0x110000 := by
    have := d.valid
    simp only [UInt32.isValidChar, Nat.isValidChar] at this
    omega
  change c.val.toNat < d.val.toNat at h
  rw [String.utf8EncodeChar, String.utf8EncodeChar]
  generalize c.val.toNat = m at *
  generalize d.val.toNat = n at *
  have hm := eq_of_shares m
  have hn := eq_of_shares n
  -- encodings of different lengths differ in the first byte, those of one length in some share
  split_ifs <;>
    simp (disch := omega) only [List.cons_append, List.nil_append, ofNat_cons_lt,
      Nat.mod_eq_of_lt (b := 8)] <;>
    omega

end Text

namespace Path

open Text

theorem byteList_lt_of_compareText {a b : Text} (h : compareText a b = .lt) : byteList a < byteList b := by
  rw [byteList_eq, byteList_eq]
  induction a generalizing b with
  | nil =>
    cases b with
    | nil => cases h
    | cons d b =>
      rw [List.flatMap_nil, List.flatMap_cons]
      cases he : String.utf8EncodeChar d with
      | nil => exact absurd he String.utf8EncodeChar_ne_nil
      | cons => exact List.nil_lt_cons ..
  | cons c a ih =>
    cases b with
    | nil => cases h
    | cons d b =>
      rw [List.flatMap_cons, List.flatMap_cons]
      rcases Ordering.then_eq_lt.mp h with hlt | ⟨heq, hlt⟩
      · exact encode_append_lt (Nat.compare_eq_lt.mp hlt) _ _
      · obtain rfl := Char.toNat_inj.mp (Nat.compare_eq_eq.mp heq)
        exact List.append_left_lt (ih hlt)

/-- **The order of texts is the order of their bytes.** -/
theorem compareText_eq_lt {a b : Text} : compareText a b = .lt ↔ byteList a < byteList b := by
  refine ⟨byteList_lt_of_compareText, fun h => ?_⟩
  cases hab : compareText a b with
  | lt => rfl
  | eq => exact absurd (eq_of_compareText hab ▸ h) (List.lt_irrefl _)
  | gt =>
    have hba := byteList_lt_of_compareText (Std.OrientedCmp.lt_of_gt hab)
    exact absurd hba (List.lt_asymm h)

end Path

end BuildMender
