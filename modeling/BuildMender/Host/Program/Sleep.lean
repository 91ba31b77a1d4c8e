import BuildMender.Host.Job
import BuildMender.Host.Quotation
import BuildMender.Host.Real

/-!
# Sleep

`sleep` lets time pass. Each of its words is a number of seconds, or of minutes, hours or days with a
letter behind it, and the times add up. A number may have a point and an exponent, or be infinite.
-/

namespace BuildMender.Host.Sleep

/-- The options. -/
def table : OptionTable := .make [] [("help", .nothing, "help"), ("version", .nothing, "version")]

/-- The letters behind a number and the seconds they stand for. -/
def units : List (Char × Nat) := [('s', 1), ('m', 60), ('h', 3600), ('d', 86400)]

/-- A time: microseconds, or no end. -/
inductive Span where
  | finite (microseconds : Nat)
  | endless
deriving DecidableEq, Inhabited

/-- Two times one after the other. -/
def Span.plus : Span → Span → Span
  | .finite a, .finite b => .finite (a + b)
  | _, _ => .endless

/-- A number of seconds, unless it is negative or no number. -/
def ofSeconds? : Real → Option Span
  | .finite negative a b => if negative && a ≠ 0 then none else some (.finite (Real.quotient (a * 1000000) b))
  | .infinite negative => if negative then none else some .endless
  | .undefined _ => none

/-- A number of seconds, finite or not, and the text after it. -/
def number? (t : Raw) : Option (Span × Raw) :=
  (Real.read? t).bind fun (r, _, rest) => (ofSeconds? r).map fun s => (s, rest)

/-- The time of a word. -/
def span? (w : Raw) : Option Span :=
  match number? w with
  | some (s, []) => some s
  | some (s, [c]) =>
    match units.lookup c, s with
    | some n, .finite t => some (.finite (t * n))
    | some _, .endless => some .endless
    | none, _ => none
  | _ => none

/-- The longest time that is waited for in one go, which no run reaches. -/
def longest : Nat := 1000000000000000

/-- **The program.** -/
def image : Image := Job.task 1 fun words => do
  let (gs, operands) := table.read words
  Job.options gs fun _ _ => Job.stop 0
  if operands.isEmpty then
    Job.complain "missing operand"
    Job.refuse
  let bad := operands.filter fun w => (span? w).isNone
  for w in bad do
    Job.complain ("invalid time interval " ++ Quotation.single w)
  if !bad.isEmpty then Job.refuse
  match (operands.filterMap span?).foldl Span.plus (.finite 0) with
  | .finite t => Job.ask (.sleep t)
  | .endless => Job.ask (.sleep longest)

end BuildMender.Host.Sleep
