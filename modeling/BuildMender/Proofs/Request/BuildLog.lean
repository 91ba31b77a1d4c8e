import BuildMender.Proofs.Text.Line
import BuildMender.Request.Assemble
import Mathlib.Data.List.Basic

/-!
# The end of a build log

Only the end of a build log is sent along, and of another file only the beginning: so many characters, whatever
bytes they take. The place to cut is found as a number of bytes, and a text can be cut only where a character
begins.

The one thing to know is which numbers those are. A text is cut in front of a byte exactly if some of its first
characters take as many bytes as stand before it (`BuildMender.Text.cutAtByte?_eq_some`), and the byte with which
a character begins is the number of bytes that the characters before it take
(`BuildMender.Text.getElem?_offsets`). So the cut is always there, and counting bytes comes to counting characters
(`BuildMender.Assembler.truncate?_eq`, `BuildMender.Assembler.tail?_eq`).
-/

namespace BuildMender

namespace Text

variable {a b t : Text} {n : Nat}

/-! ### The bytes of a text -/

theorem size_toBytes_append (a b : Text) : (toBytes (a ++ b)).size = (toBytes a).size + (toBytes b).size := by
  simp [toBytes]

theorem size_toBytes_cons (c : Char) (t : Text) : (toBytes (c :: t)).size = c.utf8Size + (toBytes t).size := by
  have hchar : (toBytes [c]).size = c.utf8Size := by simp [toBytes, List.utf8Encode]
  rw [← List.singleton_append, size_toBytes_append, hchar]

/-- **The byte with which a character begins** has the number of bytes before it. -/
theorem getElem?_offsetsFrom (start k : Nat) (t : Text) : (offsetsFrom start t)[k]? =
    if k < t.length then some (start + (toBytes (t.take k)).size) else none := by
  induction t generalizing start k with
  | nil => rfl
  | cons c t ih =>
    cases k with
    | zero => simp [offsetsFrom, toBytes]
    | succ k =>
      rw [offsetsFrom, List.getElem?_cons_succ, ih, List.take_succ_cons, size_toBytes_cons, List.length_cons]
      simp [Nat.add_assoc]

theorem getElem?_offsets (k : Nat) (t : Text) :
    (offsets t)[k]? = if k < t.length then some (toBytes (t.take k)).size else none := by
  rw [offsets, getElem?_offsetsFrom, Nat.zero_add]

/-! ### Where a text can be cut -/

theorem cutAtByte?_size (a b : Text) : cutAtByte? (toBytes a).size (a ++ b) = some (a, b) := by
  induction a with
  | nil => cases b <;> rfl
  | cons c a ih =>
    have hpos := c.utf8Size_pos
    rw [size_toBytes_cons, List.cons_append, cutAtByte?, if_neg (by omega), if_pos (Nat.le_add_right _ _),
      Nat.add_sub_cancel_left, ih]
    rfl

/-- **A text is cut in front of a byte** if and only if some of its first characters take all bytes before it. -/
theorem cutAtByte?_eq_some : cutAtByte? n t = some (a, b) ↔ t = a ++ b ∧ n = (toBytes a).size := by
  constructor
  · intro h
    induction t generalizing n a with
    | nil =>
      rw [cutAtByte?] at h
      split at h
      · cases h
        exact ⟨rfl, ‹_›⟩
      · cases h
    | cons c t ih =>
      rw [cutAtByte?] at h
      split at h
      · cases h
        exact ⟨rfl, ‹_›⟩
      · split at h
        · rename_i hle
          obtain ⟨⟨first, last⟩, hcut, heq⟩ := Option.map_eq_some_iff.mp h
          cases heq
          obtain ⟨rfl, hsize⟩ := ih hcut
          refine ⟨rfl, ?_⟩
          rw [size_toBytes_cons, ← hsize]
          omega
        · cases h
  · rintro ⟨rfl, rfl⟩
    exact cutAtByte?_size a b

end Text

namespace Assembler

open Text

variable {a : Assembler} {r : Request}

/-- **The first characters**, and whether there are more. -/
theorem truncate?_eq (k : Nat) (t : Text) : truncate? k t = some (t.take k, decide (k < t.length)) := by
  rw [truncate?, getElem?_offsets]
  by_cases hk : k < t.length
  · have hcut : cutAtByte? (toBytes (t.take k)).size t = some (t.take k, t.drop k) :=
      cutAtByte?_eq_some.mpr ⟨(List.take_append_drop k t).symm, rfl⟩
    simp [hk, hcut]
  · simp [hk, List.take_of_length_le (Nat.not_lt.mp hk)]

/-- **The last characters.** -/
theorem tail?_eq (k : Nat) (t : Text) : tail? k t = some (t.drop (t.length - k)) := by
  rw [tail?, getElem?_offsets]
  by_cases hk : t.length ≤ k
  · rw [if_pos hk, Nat.sub_eq_zero_of_le hk, List.drop_zero]
  · rw [if_neg hk]
    have hcut : cutAtByte? (toBytes (t.take (t.length - k))).size t =
        some (t.take (t.length - k), t.drop (t.length - k)) :=
      cutAtByte?_eq_some.mpr ⟨(List.take_append_drop _ t).symm, rfl⟩
    -- nothing begins behind the last character, and there none of the characters are left
    by_cases hzero : k = 0
    · simp [hzero]
    · have hlt : t.length - k < t.length := by omega
      simp [hlt, hcut]

/-- **A cut by characters**: a text is cut where a character begins, its beginning and its end have as many
characters as asked for, or all there are, and a beginning and an end that have all characters between them are
the text. -/
structure CutsByCharacters (k : Nat) (t : Text) : Prop where
  truncate_cut : truncate? k t = some (truncate k t)
  tail_cut : tail? k t = some (tail k t)
  truncate_isPrefix : (truncate k t).1 <+: t
  length_truncate : (truncate k t).1.length = min k t.length
  truncated_iff : (truncate k t).2 = true ↔ k < t.length
  tail_isSuffix : tail k t <:+ t
  length_tail : (tail k t).length = min k t.length
  together : k ≤ t.length → (truncate k t).1 ++ tail (t.length - k) t = t

theorem cutsByCharacters (k : Nat) (t : Text) : CutsByCharacters k t := by
  have htruncate : truncate k t = (t.take k, decide (k < t.length)) := by rw [truncate, truncate?_eq]; rfl
  have htail (k : Nat) : tail k t = t.drop (t.length - k) := by rw [tail, tail?_eq]; rfl
  constructor
  case truncate_cut => rw [truncate?_eq, htruncate]
  case tail_cut => rw [tail?_eq, htail]
  case truncate_isPrefix => rw [htruncate]; exact List.take_prefix k t
  case length_truncate => rw [htruncate]; exact List.length_take
  case truncated_iff => rw [htruncate]; exact decide_eq_true_iff
  case tail_isSuffix => rw [htail]; exact List.drop_suffix _ t
  case length_tail => rw [htail, List.length_drop]; omega
  case together =>
    intro hk
    rw [htruncate, htail, Nat.sub_sub_self hk, List.take_append_drop]

/-- **An envelope holds the end of a build log**: there is one if the log that was given is not blank, and it is
a last part of it, not longer than the limit and shorter only if all of it is there. -/
structure HoldsLogEnd (a : Assembler) (r : Request) : Prop where
  isSome_iff : (a.assemble r).buildLog.isSome ↔ ∃ given ∈ r.buildLog, trim given ≠ []
  isSuffix : ∀ log ∈ (a.assemble r).buildLog, ∃ given ∈ r.buildLog, log <:+ given ∧
    log.length = min a.maxLogChars given.length

theorem holdsLogEnd (a : Assembler) (r : Request) : HoldsLogEnd a r := by
  constructor
  case isSome_iff =>
    have hblank (t : Text) : trim t ≠ [] ↔ allBlank t = false := by
      rw [← isEmpty_trim, List.isEmpty_eq_false_iff]
    cases hlog : r.buildLog <;> simp [assemble, hlog, Option.isSome_filter, hblank]
  case isSuffix =>
    intro log hlog
    obtain ⟨given, hgiven, rfl⟩ := Option.map_eq_some_iff.mp hlog
    have hcut := cutsByCharacters a.maxLogChars given
    exact ⟨given, (Option.filter_eq_some_iff.mp hgiven).1, hcut.tail_isSuffix, hcut.length_tail⟩

/-- **Texts are cut by characters**, and so the build log of an envelope is the end of the one that was given. -/
theorem build_log_cut :
    (∀ (k : Nat) (t : Text), CutsByCharacters k t) ∧ ∀ (a : Assembler) (r : Request), HoldsLogEnd a r :=
  ⟨cutsByCharacters, holdsLogEnd⟩

end Assembler

end BuildMender
