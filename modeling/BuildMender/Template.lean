import BuildMender.Text.Class

/-!
# Templates

A template is text with holes, each a name between double braces. It is first cut into its segments
(`Template.segments`) and then filled, all holes at once: a value put into a hole is never looked at
again, so a value that itself looks like a hole stays as it is. A hole whose name has no value stays
too, and so does everything from an opening pair of braces that is never closed.
-/

namespace BuildMender.Template

open Text

/-- The pair of braces that opens a hole. -/
def opening : Text := ['{', '{']

/-- The pair of braces that closes a hole. -/
def closing : Text := ['}', '}']

/-- A piece of a template. -/
inductive Segment where
  /-- Text that stands as it is. -/
  | literal (text : Text)
  /-- A hole, with what stands between its braces. -/
  | hole (inner : Text)
deriving DecidableEq

/-- A piece of a template as it is written. -/
def Segment.source : Segment → Text
  | .literal t => t
  | .hole inner => opening ++ inner ++ closing

theorem length_of_cut {pat t a b : Text} (h : cut pat t = some (a, b)) (hp : pat ≠ []) :
    b.length < t.length := by
  have := congrArg List.length (eq_of_cut h)
  have : 0 < pat.length := List.length_pos_iff.2 hp
  simp at *
  omega

/-- **The segments of a template**, from left to right. -/
def segments (t : Text) : List Segment :=
  match _ho : cut opening t with
  | none => [.literal t]
  | some (before, after) =>
    match _hc : cut closing after with
    | none => [.literal before, .literal (opening ++ after)]
    | some (inner, rest) => .literal before :: .hole inner :: segments rest
termination_by t.length
decreasing_by
  have h₁ := length_of_cut _ho (by decide)
  have h₂ := length_of_cut _hc (by decide)
  omega

/-- A segment with its value put in; the name of a hole is trimmed before it is looked up. -/
def Segment.fill (value : Text → Option Text) : Segment → Text
  | .literal t => t
  | .hole inner => (value (trim inner)).getD (Segment.hole inner).source

/-- **A template with its holes filled.** -/
def interpolate (value : Text → Option Text) (t : Text) : Text :=
  (segments t).flatMap (Segment.fill value)

/-- Looking a name up among pairs of a name and a value. -/
def ofPairs (pairs : List (Text × Text)) (name : Text) : Option Text := pairs.lookup name

end BuildMender.Template
