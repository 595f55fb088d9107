import Mathlib
import PageFlattening.Proofs.FitPermutations

/-! Removing outliers keeps a strict majority of the lines. One half of the distances from the
median curvature, and one more, are at most twice their median: with an odd number the median is
one of them, and with an even number the upper of the two middle ones is at most the sum of both.
The band of seven median distances holds all of these, so that of four lines three are left. -/
namespace PageFlattening

/-! ### Medians -/

theorem lt_countP_of_pairwise {xs : List Rat} (sorted : xs.Pairwise (· ≤ ·)) {n : Nat}
    (inside : n < xs.length) {bound : Rat} (below : xs[n] ≤ bound) :
    n < xs.countP fun x => decide (x ≤ bound) := by
  have before : ∀ x ∈ xs.take (n + 1), decide (x ≤ bound) = true := by
    intro x member
    obtain ⟨i, short, rfl⟩ := List.mem_take_iff_getElem.mp member
    refine decide_eq_true (le_trans ?_ below)
    rcases Nat.lt_or_ge i n with earlier | at_
    · exact List.pairwise_iff_getElem.mp sorted i n _ inside earlier
    · have same : i = n := by omega
      subst same
      exact le_rfl
  calc n < (xs.take (n + 1)).length := by
        rw [List.length_take]
        omega
    _ = (xs.take (n + 1)).countP _ := (List.countP_eq_length.mpr before).symm
    _ ≤ xs.countP _ := (List.take_sublist _ _).countP_le

theorem length_ascending (xs : List Rat) : (ascending xs).length = xs.length :=
  List.length_mergeSort xs

theorem median_eq {xs : List Rat} (filled : xs ≠ []) :
    median xs = if xs.length % 2 = 1 then (ascending xs).getD (xs.length / 2) 0
      else ((ascending xs).getD (xs.length / 2 - 1) 0 + (ascending xs).getD (xs.length / 2) 0) /
        2 := by
  have defined : xs.any isUndefined = false := List.any_eq_false.mpr fun _ _ => Bool.false_ne_true
  rw [median, List.isEmpty_eq_false_iff.mpr filled, defined]
  rfl

theorem getD_ascending_nonneg {xs : List Rat} (nonneg : ∀ x ∈ xs, 0 ≤ x) (i : Nat) :
    0 ≤ (ascending xs).getD i 0 := by
  rw [List.getD_eq_getElem?_getD]
  cases given : (ascending xs)[i]? with
  | none => exact le_rfl
  | some x => exact nonneg x ((List.mergeSort_perm xs _).mem_iff.mp (List.mem_of_getElem? given))

/-- The upper of the middle entries is at most twice the median. -/
theorem upper_le_two_median {xs : List Rat} (filled : xs ≠ []) (nonneg : ∀ x ∈ xs, 0 ≤ x) :
    (ascending xs).getD (xs.length / 2) 0 ≤ 2 * median xs := by
  have upper := getD_ascending_nonneg nonneg (xs.length / 2)
  have lower := getD_ascending_nonneg nonneg (xs.length / 2 - 1)
  rw [median_eq filled]
  split
  · linarith
  · linarith

theorem median_nonneg {xs : List Rat} (filled : xs ≠ []) (nonneg : ∀ x ∈ xs, 0 ≤ x) :
    0 ≤ median xs := by
  have upper := getD_ascending_nonneg nonneg (xs.length / 2)
  have twice := upper_le_two_median filled nonneg
  linarith

theorem half_lt_countP {xs : List Rat} (filled : xs ≠ []) (nonneg : ∀ x ∈ xs, 0 ≤ x) :
    xs.length / 2 < xs.countP fun x => decide (x ≤ 2 * median xs) := by
  have positive : 0 < xs.length := List.length_pos_iff.mpr filled
  have inside : xs.length / 2 < (ascending xs).length := by
    rw [length_ascending]
    omega
  have upper := upper_le_two_median filled nonneg
  rw [List.getD_eq_getElem _ _ inside] at upper
  rw [← (List.mergeSort_perm xs _).countP_eq]
  exact lt_countP_of_pairwise (pairwise_ascending xs) inside upper

/-! ### Curvatures -/

namespace LineFit

theorem isConsistent_eq (curvatures : List Rat) (c : Rat) : isConsistent curvatures c =
    decide (|c - (medianAndDeviation curvatures).1| ≤
      max (7 * (medianAndDeviation curvatures).2) (1 / 100000000)) := by
  rw [isConsistent, band, scalarAbs_eq, scalarMax_eq]
  rfl

/-- More than half of the curvatures are consistent with all of them. -/
theorem half_lt_countP_isConsistent {curvatures : List Rat} (filled : curvatures ≠ []) :
    curvatures.length / 2 < curvatures.countP (isConsistent curvatures) := by
  let centre := median curvatures
  let distances := curvatures.map fun c => |c - centre|
  have filled' : distances ≠ [] := List.map_eq_nil_iff.not.mpr filled
  have nonneg : ∀ d ∈ distances, 0 ≤ d := by
    intro d member
    obtain ⟨c, -, rfl⟩ := List.mem_map.mp member
    exact abs_nonneg _
  have deviation : (medianAndDeviation curvatures).2 = median distances := by
    change median _ = median _
    simp only [scalarAbs_eq]
    rfl
  have positive := median_nonneg filled' nonneg
  calc curvatures.length / 2
      = distances.length / 2 := by rw [List.length_map]
    _ < distances.countP fun d => decide (d ≤ 2 * median distances) :=
        half_lt_countP filled' nonneg
    _ = curvatures.countP fun c => decide (|c - centre| ≤ 2 * median distances) :=
        List.countP_map
    _ ≤ curvatures.countP (isConsistent curvatures) := by
        refine List.countP_mono_left fun c _ near => ?_
        rw [isConsistent_eq, deviation]
        refine decide_eq_true ((of_decide_eq_true near).trans ?_)
        exact le_max_of_le_left (by linarith)

theorem half_lt_length_consistent {fits : List (LineFit Rat)} (filled : fits ≠ []) :
    fits.length / 2 < (consistent fits).length := by
  have majority := half_lt_countP_isConsistent (List.map_eq_nil_iff.not.mpr filled :
    fits.map curvature ≠ [])
  rwa [List.length_map, List.countP_map, List.countP_eq_length_filter] at majority

end LineFit

end PageFlattening
