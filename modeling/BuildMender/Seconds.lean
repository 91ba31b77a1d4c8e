import BuildMender.Text.Basic

/-!
# Seconds with one decimal

A duration is shown in seconds with one decimal. Before it is shown it becomes a binary number with 53
digits, in three steps: the whole seconds, the part below a second, and then the sum of the two. Each
step takes the nearest such number, and of two equally near ones the even one. The decimal is then
rounded in the same way. So 50 milliseconds, which come out a little above a twentieth, are shown as 0.1, and 299950
milliseconds, which come out a little below, as 299.9.
-/

namespace BuildMender.Seconds

/-- The quotient rounded to the nearest integer, of two the even one. -/
def roundEven (num den : Nat) : Nat :=
  let q := num / den
  let r := num % den
  if 2 * r < den then q
  else if den < 2 * r then q + 1
  else if q % 2 = 0 then q else q + 1

/-- Twice the distance to the quotient is at most one. -/
theorem roundEven_near (num den : Nat) (h : 0 < den) :
    2 * (roundEven num den * den) ≤ 2 * num + den ∧ 2 * num ≤ 2 * (roundEven num den * den) + den := by
  have hd := Nat.div_add_mod num den
  have hm := Nat.mod_lt num h
  have hc : num / den * den = den * (num / den) := Nat.mul_comm ..
  unfold roundEven
  simp only []
  split
  · omega
  · split
    · rw [Nat.add_mul]; omega
    · split
      · omega
      · rw [Nat.add_mul]; omega

/-- The places by which a positive quotient is shifted to have 53 binary digits before the point. -/
def shift (num den : Nat) : Int :=
  let s : Int := 52 - ((Nat.log2 num : Int) - Nat.log2 den)
  if num * Nat.pow 2 s.toNat < den * Nat.pow 2 (-s).toNat * Nat.pow 2 52 then s + 1 else s

/-- **The nearest number with 53 binary digits**, as a fraction. -/
def nearest (num den : Nat) : Nat × Nat :=
  if num = 0 then (0, 1)
  else
    let s := shift num den
    (roundEven (num * Nat.pow 2 s.toNat) (den * Nat.pow 2 (-s).toNat) * Nat.pow 2 (-s).toNat,
      Nat.pow 2 s.toNat)

/-- A duration in milliseconds as a number of seconds, as a fraction. -/
def ofMilliseconds (ms : Nat) : Nat × Nat :=
  let (n, d) := nearest (ms % 1000 * 1000000) 1000000000
  let (whole, one) := nearest (ms / 1000) 1
  nearest (whole * d + n * one) (one * d)

/-- **A duration in milliseconds shown in seconds**, with one decimal. -/
def display (ms : Nat) : Text :=
  let (n, d) := ofMilliseconds ms
  let tenths := roundEven (10 * n) d
  Text.decimal (tenths / 10) ++ "." ++ Text.decimal (tenths % 10)

end BuildMender.Seconds
