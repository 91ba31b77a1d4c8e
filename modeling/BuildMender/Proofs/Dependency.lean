import BuildMender.Dependency
import Mathlib.Data.List.Basic

/-!
# Where two maps of the packages differ

Two maps of where the packages lie are compared package by package. Paths count by their components there, so
what a map comes to is what its paths come to (`BuildMender.Dependency.Roots.places`), and two maps that are
spelled differently may be one.

The comparison is the exact difference of the two (`BuildMender.Dependency.compare_exact`): nothing is recorded
on which they agree, what is recorded leads from one to the other, and turned round it is the comparison of the
other with the one. All of it rests on the recorded entries being no more and no less than what the comparison
says of each package, since every package is asked about (`BuildMender.Dependency.Comparison.mem_entries`).
-/

namespace BuildMender.Dependency

variable {r s : Roots} {c : Comparison} {k k' : Dependency} {p q : Option Path} {d : Difference}

/-! ### Maps -/

namespace Roots

@[simp] theorem set_self (r : Roots) (k : Dependency) (p : Option Path) : r.set k p k = p := if_pos rfl

theorem set_of_ne (h : k' ≠ k) (r : Roots) (p : Option Path) : r.set k p k' = r k' := if_neg h

/-- **Places set one after another**, as they are recorded for some of the packages. -/
theorem foldl_set {α : Type} (ks : List Dependency) (found : Dependency → Option α) (place : α → Option Path)
    (r : Roots) (k : Dependency) :
    (ks.filterMap fun k => (found k).map fun x => (k, x)).foldl (fun r e => r.set e.1 (place e.2)) r k =
      if k ∈ ks then ((found k).map place).getD (r k) else r k := by
  induction ks generalizing r with
  | nil => rfl
  | cons a ks ih =>
    cases ha : found a with
    | none =>
      rw [List.filterMap_cons_none (by simp [ha]), ih]
      by_cases hk : k = a
      · simp [hk, ha]
      · simp [hk]
    | some x =>
      rw [List.filterMap_cons_some (b := (a, x)) (by simp [ha]), List.foldl_cons, ih]
      by_cases hk : k = a
      · simp [hk, ha]
      · simp [hk, set_of_ne hk]

/-- A map is put together again from its entries. -/
theorem ofEntries_entries (r : Roots) : ofEntries r.entries = r := by
  funext k
  have hset := foldl_set all r some empty k
  rw [if_pos (mem_all k)] at hset
  refine hset.trans ?_
  cases r k <;> rfl

/-- Where the packages lie, by the components of the paths. -/
def places (r : Roots) (k : Dependency) : Option (List Path.Component) := (r k).map Path.components

end Roots

/-! ### Differences -/

theorem samePlace_iff : samePlace p q ↔ p.map Path.components = q.map Path.components := by
  cases p <;> cases q <;> simp [samePlace, Path.same]

theorem compare_eq_none : compare r s k = none ↔ r.places k = s.places k := by
  rw [compare, Roots.places, Roots.places, ← samePlace_iff]
  split <;> simp [*]

theorem compare_eq_some : compare r s k = some d ↔ r.places k ≠ s.places k ∧ d = ⟨r k, s k⟩ := by
  rw [compare, Roots.places, Roots.places, ne_eq, ← samePlace_iff]
  split <;> simp [*, eq_comm]

/-- A difference seen from the other side. -/
def Difference.turned (d : Difference) : Difference := ⟨d.cached, d.configured⟩

theorem compare_comm (r s : Roots) (k : Dependency) :
    compare s r k = (compare r s k).map Difference.turned := by
  cases h : compare r s k with
  | none =>
    rw [compare_eq_none] at h
    exact compare_eq_none.mpr h.symm
  | some d =>
    obtain ⟨hne, rfl⟩ := compare_eq_some.mp h
    exact compare_eq_some.mpr ⟨hne.symm, rfl⟩

namespace Comparison

/-- **What is recorded** is what the comparison says of each package. -/
theorem mem_entries : (k, d) ∈ c.entries ↔ c k = some d := by
  rw [entries, List.mem_filterMap]
  constructor
  · rintro ⟨a, -, h⟩
    obtain ⟨d', hd, heq⟩ := Option.map_eq_some_iff.mp h
    obtain ⟨rfl, rfl⟩ := Prod.mk.inj heq
    exact hd
  · intro h
    exact ⟨k, mem_all k, by rw [h]; rfl⟩

theorem hasChanges_eq_false : c.hasChanges = false ↔ ∀ k, c k = Option.none := by
  rw [hasChanges, Bool.not_eq_false', List.isEmpty_iff, List.eq_nil_iff_forall_not_mem]
  refine ⟨fun h k => Option.eq_none_iff_forall_ne_some.mpr fun d hd => h (k, d) (mem_entries.mpr hd), ?_⟩
  rintro h ⟨k, d⟩ hd
  rw [mem_entries, h] at hd
  cases hd

/-- A map with every recorded package put where the cache has it, or left out if the cache does not know it. -/
def settle (c : Comparison) (r : Roots) : Roots := c.entries.foldl (fun r e => r.set e.1 e.2.cached) r

theorem settle_eq (c : Comparison) (r : Roots) (k : Dependency) :
    c.settle r k = ((c k).map Difference.cached).getD (r k) :=
  (Roots.foldl_set all c Difference.cached r k).trans (if_pos (mem_all k))

end Comparison

/-- **The comparison of two maps is their exact difference.** Put where the other map has them, the recorded
packages make the one map equal to the other; only packages on which the two disagree are recorded, with both
places; there are no changes if and only if the maps are equal; and the other way round the same packages are
recorded, with the places exchanged. -/
theorem compare_exact (r s : Roots) :
    ((compare r s).settle r).places = s.places ∧
    (∀ e ∈ (compare r s).entries, r.places e.1 ≠ s.places e.1 ∧ e.2 = ⟨r e.1, s e.1⟩) ∧
    ((compare r s).hasChanges = false ↔ r.places = s.places) ∧
    (compare s r).entries = (compare r s).entries.map fun e => (e.1, e.2.turned) := by
  refine ⟨funext fun k => ?_, ?_, ?_, ?_⟩
  · rw [Roots.places, Comparison.settle_eq]
    cases h : compare r s k with
    | none => exact compare_eq_none.mp h
    | some d =>
      obtain ⟨-, rfl⟩ := compare_eq_some.mp h
      rfl
  · rintro ⟨k, d⟩ he
    exact compare_eq_some.mp (Comparison.mem_entries.mp he)
  · rw [Comparison.hasChanges_eq_false, funext_iff]
    exact forall_congr' fun k => compare_eq_none
  · rw [Comparison.entries, Comparison.entries, List.map_filterMap]
    refine List.filterMap_congr fun k _ => ?_
    rw [compare_comm, Option.map_map, Option.map_map]
    rfl

/-- Paths that only their spelling tells apart are no difference. -/
example : (compare (Roots.ofEntries [(.uiToolkit, "/qt/./lib")])
    (Roots.ofEntries [(.uiToolkit, "/qt//lib")])).hasChanges = false := by
  decide

end BuildMender.Dependency
