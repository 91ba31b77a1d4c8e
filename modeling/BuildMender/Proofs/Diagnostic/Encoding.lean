import BuildMender.Proofs.Json.Record
import BuildMender.Report.Form

/-!
# Diagnostics read back

A list of diagnostics that is shown as JSON is read back as it was
(`BuildMender.Diagnostic.listing_read_back`), whatever a build wrote into its messages. The text itself is
read back because every value in it is readable (`BuildMender.Json.parse_pretty`); what is left is that each
field is read the way it was written.

Two things keep writer and reader together. The words for levels, dialects and conventions are told apart by
the tables they are looked up in. And a diagnostic without a violation is written without that field, which is
to leave out a field that could hold anything: nothing is read in its place, and that stands for no violation.
-/

namespace BuildMender

open Json

/-! ### Words and numbers -/

namespace Json

theorem word?_word (n : UInt32) : word? (word n) = some n := by
  have hbound : n.toNat < Text.bound32 := n.toNat_lt
  exact (if_pos hbound).trans (congrArg some UInt32.ofNat_toNat)

end Json

theorem Severity.ofLabel?_label (s : Severity) : ofLabel? s.label = some s := by
  cases s <;> decide

theorem Dialect.ofLabel?_label (d : Dialect) : ofLabel? d.label = some d := by
  cases d <;> decide

theorem Convention.ofLabel?_label (k : Convention) : ofLabel? k.label = some k := by
  cases k <;> decide

/-! ### Violations -/

namespace Violation

theorem nodup_fieldNames : fieldNames.Nodup := by decide

theorem isReadable_toJson (v : Violation) : v.toJson.IsReadable := by
  refine isReadable_zip fun j hj => ?_
  simp only [List.mem_cons, List.not_mem_nil, or_false] at hj
  rcases hj with rfl | rfl | rfl <;> constructor

theorem ofJson?_toJson (v : Violation) : ofJson? v.toJson = some v := by
  have hparts := parts?_without nodup_fieldNames [.string v.kind.label, .string v.suggestion,
    .bool v.autoFixable] rfl []
  rw [without_nil, ← toJson] at hparts
  rw [ofJson?, hparts]
  have hkind : required? text? (some (.string v.kind.label)) = some v.kind.label := rfl
  simp only [fieldNames, List.zipWith_cons_cons, List.zipWith_nil_left, List.not_mem_nil, if_false,
    Option.bind_eq_bind, Option.bind_some, hkind, Convention.ofLabel?_label]
  rfl

end Violation

/-! ### Diagnostics -/

namespace Diagnostic

theorem nodup_fieldNames : fieldNames.Nodup := by decide

/-- The fields that are left out of a diagnostic. -/
def leftOut (d : Diagnostic) : List Text :=
  match d.violation with
  | some _ => []
  | none => ["violation"]

/-- The values of all fields, in order. -/
def values (d : Diagnostic) : List Json :=
  [.string d.file, .word d.line, .word d.column, .string d.severity.label, .string d.message,
    .string d.raw, .string d.dialect.label, ofOption Violation.toJson d.violation]

/-- A diagnostic is written as a record of all fields, from which one may have been left out. -/
theorem toJson_eq (d : Diagnostic) : d.toJson = without d.leftOut (.object (fieldNames.zip d.values)) := by
  rw [toJson, leftOut, values]
  cases d.violation with
  | none => rfl
  | some v => rw [without_nil]; rfl

theorem isReadable_toJson (d : Diagnostic) : d.toJson.IsReadable := by
  rw [toJson_eq]
  refine IsReadable.without (isReadable_zip fun j hj => ?_) _
  simp only [values, List.mem_cons, List.not_mem_nil, or_false] at hj
  rcases hj with rfl | rfl | rfl | rfl | rfl | rfl | rfl | rfl
  case inr.inr.inr.inr.inr.inr.inr =>
    cases d.violation with
    | none => exact .null
    | some v => exact v.isReadable_toJson
  all_goals constructor

/-- What is read in the place of the violation, whether it was left out or not. -/
theorem defaulted?_violation (d : Diagnostic) :
    defaulted? none (nullable? Violation.ofJson?)
      (if ("violation" : Text) ∈ d.leftOut then none else some (ofOption Violation.toJson d.violation)) =
      some d.violation := by
  rw [leftOut.eq_def]
  cases d.violation with
  | none => rfl
  | some v =>
    have hread : (Violation.ofJson? v.toJson).map some = some (some v) := congrArg _ v.ofJson?_toJson
    exact hread

/-- All fields but the last are written. -/
theorem not_mem_leftOut (d : Diagnostic) : ∀ n ∈ fieldNames.dropLast, n ∉ d.leftOut := by
  have hother : ∀ n ∈ fieldNames.dropLast, n ∉ [("violation" : Text)] := by decide
  have hsub : d.leftOut ⊆ ["violation"] := by
    rw [leftOut.eq_def]
    cases d.violation <;> simp
  exact fun n hn hleft => hother n hn (hsub hleft)

theorem ofJson?_toJson (d : Diagnostic) : ofJson? d.toJson = some d := by
  have hparts := parts?_without nodup_fieldNames d.values rfl d.leftOut
  have hkept := d.not_mem_leftOut
  simp only [fieldNames, List.dropLast_cons_cons, List.dropLast_singleton, List.forall_mem_cons] at hkept
  obtain ⟨hfile, hline, hcolumn, hseverity, hmessage, hraw, hdialect, -⟩ := hkept
  rw [← toJson_eq] at hparts
  rw [ofJson?, hparts]
  simp only [fieldNames, values, List.zipWith_cons_cons, List.zipWith_nil_left, Option.bind_eq_bind,
    Option.bind_some, defaulted?_violation, if_neg hfile, if_neg hline, if_neg hcolumn, if_neg hseverity,
    if_neg hmessage, if_neg hraw, if_neg hdialect, required?, text?, word?_word, Severity.ofLabel?_label,
    Dialect.ofLabel?_label]
  rfl

/-! ### Lists -/

theorem isReadable_listToJson (ds : List Diagnostic) : (listToJson ds).IsReadable := by
  refine .array fun j hj => ?_
  obtain ⟨d, -, rfl⟩ := List.mem_map.mp hj
  exact d.isReadable_toJson

theorem list?_listToJson (ds : List Diagnostic) : list? ofJson? (listToJson ds) = some ds := by
  change (ds.map toJson).mapM ofJson? = some ds
  induction ds with
  | nil => rfl
  | cons d ds ih => rw [List.map_cons, List.mapM_cons, ofJson?_toJson, ih]; rfl

/-- **A list of diagnostics that is shown as JSON is read back.** -/
theorem listing_read_back (ds : List Diagnostic) :
    (parse ((Report.diagnostics ds).render .json)).bind (list? ofJson?) = some ds := by
  have hparse : parse ((Report.diagnostics ds).render .json) = some (listToJson ds) :=
    parse_pretty (isReadable_listToJson ds)
  rw [hparse, Option.bind_some, list?_listToJson]

end Diagnostic

end BuildMender
