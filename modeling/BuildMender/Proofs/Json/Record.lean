import BuildMender.Json.Record
import BuildMender.Proofs.Json.Pretty
import Mathlib.Data.List.Basic
import Mathlib.Data.List.Nodup

/-!
# Records with fields left out

A record is written as an object, one field after another, and any of its fields may be left out
(`BuildMender.Json.without`). The parts that are then read are the values that were written, each in its
place, and nothing in the place of a field that was left out (`BuildMender.Json.parts?_without`). What
becomes of a part that is not there is up to whoever reads the record: a default takes its place, whatever
value was left out (`BuildMender.Json.defaulted?_of_some`).
-/

namespace BuildMender.Json

variable {name : Text} {names left : List Text} {values : List Json} {fields : Fields} {j : Json}

/-! ### Taking fields out of an object -/

/-- **An object without the fields of some names.** -/
def without (left : List Text) : Json → Json
  | .object fields => .object (fields.filter fun f => decide (f.1 ∉ left))
  | j => j

/-- What stands in a field that may have been left out: its default, or its value. -/
def orDefault {α : Type} (left : List Text) (name : Text) (default value : α) : α :=
  if name ∈ left then default else value

/-- An object with the value of one field changed. -/
def revised (name : Text) (f : Json → Json) : Json → Json
  | .object fields => .object (fields.map fun e => if e.1 = name then (e.1, f e.2) else e)
  | j => j

/-- An array with each item changed, according to its place. -/
def revisedItems (f : Nat → Json → Json) : Json → Json
  | .array items => .array (items.mapIdx f)
  | j => j

theorem without_nil (j : Json) : without [] j = j := by
  cases j <;> simp [without]

theorem IsReadable.without (h : j.IsReadable) (left : List Text) : (j.without left).IsReadable := by
  cases h with
  | object h => exact .object fun f hf => h f (List.mem_of_mem_filter hf)
  | _ => constructor <;> assumption

theorem IsReadable.revised {f : Json → Json} (h : j.IsReadable) (hf : ∀ v, v.IsReadable → (f v).IsReadable)
    (name : Text) : (j.revised name f).IsReadable := by
  cases h with
  | object h =>
    refine .object fun e he => ?_
    obtain ⟨e', he', rfl⟩ := List.mem_map.mp he
    split
    · exact hf _ (h e' he')
    · exact h e' he'
  | _ => constructor <;> assumption

theorem IsReadable.revisedItems {f : Nat → Json → Json} (h : j.IsReadable)
    (hf : ∀ i v, v.IsReadable → (f i v).IsReadable) : (j.revisedItems f).IsReadable := by
  cases h with
  | array h =>
    refine .array fun v hv => ?_
    obtain ⟨i, hi, rfl⟩ := List.mem_mapIdx.mp hv
    exact hf i _ (h _ (List.getElem_mem hi))
  | _ => constructor <;> assumption

/-- A record is readable if its values are. -/
theorem isReadable_zip (h : ∀ v ∈ values, v.IsReadable) : (Json.object (names.zip values)).IsReadable :=
  .object fun f hf => h f.2 (List.of_mem_zip (a := f.1) (b := f.2) hf).2

/-! ### The parts that are read -/

theorem valuesOf_eq_nil (h : name ∉ fields.map Prod.fst) : valuesOf name fields = [] := by
  have hnone : ∀ f ∈ fields, ¬f.1 == name := by
    intro f hf hname
    exact h (List.mem_map.mpr ⟨f, hf, eq_of_beq hname⟩)
  rw [valuesOf, List.filter_eq_nil_iff.mpr hnone, List.map_nil]

/-- In an object whose names differ, a field that is there comes once. -/
theorem single?_of_nodup (h : (fields.map Prod.fst).Nodup) :
    single? name fields = some (fields.lookup name) := by
  induction fields with
  | nil => rfl
  | cons f fields ih =>
    obtain ⟨hf, hfields⟩ := List.nodup_cons.mp h
    by_cases hname : f.1 = name
    · have hvalues : valuesOf name (f :: fields) = [f.2] := by
        rw [valuesOf, List.filter_cons_of_pos (by simpa using hname), List.map_cons, ← valuesOf,
          valuesOf_eq_nil (hname ▸ hf)]
      rw [single?, hvalues, List.lookup_cons, hname, beq_self_eq_true]
    · have hvalues : valuesOf name (f :: fields) = valuesOf name fields := by
        rw [valuesOf, List.filter_cons_of_neg (by simpa using hname), ← valuesOf]
      have hne : (name == f.1) = false := beq_false_of_ne (Ne.symm hname)
      rw [single?, hvalues, ← single?, ih hfields, List.lookup_cons, hne]

theorem lookup_filter (name : Text) (fields : Fields) :
    (fields.filter fun f => decide (f.1 ∉ left)).lookup name =
      if name ∈ left then none else fields.lookup name := by
  induction fields with
  | nil => simp
  | cons f fields ih =>
    by_cases hname : name = f.1
    · subst hname
      by_cases hleft : f.1 ∈ left
      · rw [List.filter_cons_of_neg (by simpa using hleft), ih, if_pos hleft, if_pos hleft]
      · rw [List.filter_cons_of_pos (by simpa using hleft), if_neg hleft, List.lookup_cons, List.lookup_cons]
        simp
    · have hne : (name == f.1) = false := beq_false_of_ne hname
      by_cases hleft : f.1 ∈ left
      · rw [List.filter_cons_of_neg (by simpa using hleft), ih, List.lookup_cons, hne]
      · rw [List.filter_cons_of_pos (by simpa using hleft), List.lookup_cons, hne, ih, List.lookup_cons, hne]

theorem map_lookup_zip {α : Type} (hnames : names.Nodup) (hlength : names.length = values.length)
    (g : Text → Option Json → α) : (names.map fun n => g n ((names.zip values).lookup n)) =
      List.zipWith (fun n v => g n (some v)) names values := by
  induction names generalizing values with
  | nil => rfl
  | cons n names ih =>
    -- the names behind the first are different from it, and are looked up behind it
    obtain ⟨v, values, rfl⟩ := List.exists_cons_of_length_eq_add_one hlength.symm
    obtain ⟨hn, hnames⟩ := List.nodup_cons.mp hnames
    have hrest : ∀ m ∈ names, (m == n) = false := fun m hm => beq_false_of_ne fun h => hn (h ▸ hm)
    rw [List.map_cons, List.zipWith_cons_cons, ← ih hnames (by simpa using hlength)]
    congr 1
    · simp
    · exact List.map_congr_left fun m hm => by rw [List.zip_cons_cons, List.lookup_cons, hrest m hm]

/-- **The parts of a record with fields left out**, each in its place. -/
theorem parts?_without (hnames : names.Nodup) (values : List Json) (hlength : names.length = values.length)
    (left : List Text) :
    parts? names (without left (.object (names.zip values))) =
      some (List.zipWith (fun n v => if n ∈ left then none else some v) names values) := by
  have hdistinct : (((names.zip values).filter fun f => decide (f.1 ∉ left)).map Prod.fst).Nodup := by
    refine List.Nodup.sublist (List.filter_sublist.map _) ?_
    rwa [List.map_fst_zip (Nat.le_of_eq hlength)]
  have hparts : ∀ n, single? n ((names.zip values).filter fun f => decide (f.1 ∉ left)) =
      some (if n ∈ left then none else (names.zip values).lookup n) := fun n => by
    rw [single?_of_nodup hdistinct, lookup_filter]
  rw [without, parts?, funext hparts, ← map_lookup_zip hnames hlength fun n v => if n ∈ left then none else v]
  exact List.mapM_pure

/-! ### Defaults -/

/-- A default takes the place of a value that was left out. -/
theorem defaulted?_of_some {α : Type} {read : Json → Option α} {a : α} (h : read j = some a) (left : List Text)
    (name : Text) (default : α) :
    defaulted? default read (if name ∈ left then none else some j) = some (orDefault left name default a) := by
  rw [orDefault]
  split
  · rfl
  · exact h

theorem defaulted?_text (t : Text) (left : List Text) (name default : Text) :
    defaulted? default text? (if name ∈ left then none else some (.string t)) =
      some (orDefault left name default t) :=
  defaulted?_of_some (show text? (.string t) = some t from rfl) left name default

theorem defaulted?_bool (b : Bool) (left : List Text) (name : Text) (default : Bool) :
    defaulted? default bool? (if name ∈ left then none else some (.bool b)) =
      some (orDefault left name default b) :=
  defaulted?_of_some (show bool? (.bool b) = some b from rfl) left name default

end BuildMender.Json
