import Mathlib
import PageFlattening.Proofs.BuildSteps
import PageFlattening.Proofs.RationalFits

/-! Statistics and fits do not depend on the order of what they are taken of. Sorted lists are
determined by their entries, extremes by membership and sums by addition. Which abscissa is found
first matters only where there are just two of them, and then the fit is the same from both ends. -/
namespace PageFlattening

/-! ### Order statistics -/

theorem pairwise_ascending (xs : List Rat) : (ascending xs).Pairwise (· ≤ ·) := by
  refine (List.pairwise_mergeSort (fun a b c ab bc => ?_) (fun a b => ?_) xs).imp
    fun le => of_decide_eq_true le
  · exact decide_eq_true ((of_decide_eq_true ab).trans (of_decide_eq_true bc))
  · simpa using le_total a b

theorem ascending_perm {xs ys : List Rat} (h : xs.Perm ys) : ascending xs = ascending ys := by
  have both : (ascending xs).Perm (ascending ys) :=
    (List.mergeSort_perm xs _).trans (h.trans (List.mergeSort_perm ys _).symm)
  exact both.eq_of_pairwise (fun a b _ _ ab ba => le_antisymm ab ba) (pairwise_ascending xs)
    (pairwise_ascending ys)

theorem median_perm {xs ys : List Rat} (h : xs.Perm ys) : median xs = median ys := by
  simp only [median, ascending_perm h, h.length_eq, h.any_eq, h.isEmpty_eq]

theorem medianAndDeviation_perm {xs ys : List Rat} (h : xs.Perm ys) :
    medianAndDeviation xs = medianAndDeviation ys := by
  simp only [medianAndDeviation, medianDistance, median_perm h, median_perm (h.map _)]

section Extremes

variable {α : Type} [LinearOrder α] {xs ys : List α}

theorem min?_perm (h : xs.Perm ys) : xs.min? = ys.min? := by
  refine Option.ext fun m => ?_
  simp only [List.min?_eq_some_iff, h.mem_iff]

theorem max?_perm (h : xs.Perm ys) : xs.max? = ys.max? := by
  refine Option.ext fun m => ?_
  simp only [List.max?_eq_some_iff, h.mem_iff]

end Extremes

theorem least?_perm {xs ys : List Rat} (h : xs.Perm ys) : least? xs = least? ys := by
  rw [least?_eq_min?, least?_eq_min?, min?_perm h]

theorem greatest?_perm {xs ys : List Rat} (h : xs.Perm ys) : greatest? xs = greatest? ys := by
  rw [greatest?_eq_max?, greatest?_eq_max?, max?_perm h]

namespace Points

/-! ### Sums over points -/

variable {points others : Points Rat}

theorem total_perm (h : points.Perm others) (term : Rat → Rat → Rat) :
    points.total term = others.total term := by
  rw [total_eq_sum, total_eq_sum]
  exact (h.map _).sum_eq

theorem count_perm (h : points.Perm others) : points.count = others.count := by
  rw [count, count, h.length_eq]

theorem mean_perm (h : points.Perm others) (term : Rat → Rat → Rat) :
    points.mean term = others.mean term := by
  rw [mean, mean, total_perm h, count_perm h]

theorem above_perm (h : points.Perm others) (x : Rat) :
    (points.above x).Perm (others.above x) := h.filter _

theorem parabola_perm (h : points.Perm others) : points.parabola = others.parabola := by
  simp only [parabola, mean_perm h, total_perm h, count_perm h]

theorem line_perm (h : points.Perm others) : points.line = others.line := by
  simp only [line, mean_perm h, total_perm h]

theorem flattestThroughTwo_perm (h : points.Perm others) (a b : Rat) :
    points.flattestThroughTwo a b = others.flattestThroughTwo a b := by
  simp only [flattestThroughTwo, mean_perm (above_perm h _), total_perm h, count_perm h]

theorem flattestThroughTwo_comm (points : Points Rat) {a b : Rat} (different : a ≠ b) :
    points.flattestThroughTwo a b = points.flattestThroughTwo b a := by
  have ahead : b - a ≠ 0 := sub_ne_zero.mpr different.symm
  have back : a - b ≠ 0 := sub_ne_zero.mpr different
  have slope : ∀ u v : Rat, (v - u) / (b - a) = (u - v) / (a - b) := by
    intro u v
    rw [div_eq_div_iff ahead back]
    ring
  have offset : ∀ u v : Rat, u - (u - v) / (a - b) * a = v - (u - v) / (a - b) * b := by
    intro u v
    field_simp
    ring
  simp only [flattestThroughTwo, slope, offset, add_comm a b, mul_comm a b]

/-! ### Different abscissae -/

def Supports (points : Points Rat) : Support Rat → Prop
  | .none => points = []
  | .one a => (∃ p ∈ points, p.1 = a) ∧ ∀ p ∈ points, p.1 = a
  | .two a b => a ≠ b ∧ (∃ p ∈ points, p.1 = a) ∧ (∃ p ∈ points, p.1 = b) ∧
      ∀ p ∈ points, p.1 = a ∨ p.1 = b
  | .many => points.Varied

theorem supports_support (points : Points Rat) : points.Supports points.support := by
  cases points with
  | nil => rfl
  | cons first rest =>
      obtain ⟨a, y⟩ := first
      obtain ⟨same, one⟩ | ⟨b, ⟨p, inRest, rfl⟩, other,
        ⟨⟨r, inRest', third⟩, many⟩ | ⟨pair, two⟩⟩ := support_cons a y rest
      · rw [one]
        exact ⟨⟨_, List.mem_cons_self, rfl⟩, List.forall_mem_cons.mpr ⟨rfl, same⟩⟩
      · rw [many]
        exact ⟨(a, y), List.mem_cons_self, p, List.mem_cons_of_mem _ inRest, r,
          List.mem_cons_of_mem _ inRest', other.symm, third.1.symm, third.2.symm⟩
      · rw [two]
        exact ⟨other.symm, ⟨_, List.mem_cons_self, rfl⟩, ⟨p, List.mem_cons_of_mem _ inRest, rfl⟩,
          List.forall_mem_cons.mpr ⟨.inl rfl, pair⟩⟩

theorem Supports.perm {s : Support Rat} (h : points.Perm others) (held : points.Supports s) :
    others.Supports s := by
  cases s with
  | none => exact List.perm_nil.mp (h.symm.trans (held ▸ .refl _))
  | one a => simpa only [Supports, h.mem_iff] using held
  | two a b => simpa only [Supports, h.mem_iff] using held
  | many => simpa only [Supports, Varied, h.mem_iff] using held

theorem Supports.unique {s t : Support Rat} (h : points.Supports s) (h' : points.Supports t) :
    s = t ∨ ∃ a b, a ≠ b ∧ s = .two a b ∧ t = .two b a := by
  -- The number of different abscissae tells the kinds apart, and each kind its entries.
  cases s <;> cases t <;> simp only [Supports, Varied] at h h' <;> grind

/-- Points in another order have the same abscissae, of which two may be found the other way
round. -/
theorem support_perm (h : points.Perm others) : others.support = points.support ∨
    ∃ a b, a ≠ b ∧ points.support = .two a b ∧ others.support = .two b a := by
  obtain same | swapped := (points.supports_support.perm h).unique others.supports_support
  · exact .inl same.symm
  · exact .inr swapped

theorem fitParabola_perm (h : points.Perm others) : points.fitParabola = others.fitParabola := by
  rw [fitParabola, fitParabola]
  obtain same | ⟨a, b, different, two, two'⟩ := support_perm h
  · rw [same]
    cases points.support with
    | none => rfl
    | one a => simp only [mean_perm h]
    | two a b => exact congrArg Except.ok (flattestThroughTwo_perm h a b)
    | many => exact congrArg Except.ok (parabola_perm h)
  · rw [two, two']
    refine congrArg Except.ok ?_
    rw [flattestThroughTwo_perm h, flattestThroughTwo_comm _ different]

theorem fitLine_perm (h : points.Perm others) : points.fitLine = others.fitLine := by
  rw [fitLine, fitLine]
  obtain same | ⟨a, b, -, two, two'⟩ := support_perm h
  · rw [same]
    cases points.support with
    | none => rfl
    | one a => simp only [mean_perm h]
    | two a b => exact congrArg Except.ok (line_perm h)
    | many => exact congrArg Except.ok (line_perm h)
  · rw [two, two']
    exact congrArg Except.ok (line_perm h)

end Points

/-! ### Fits of two coordinates -/

section Coordinates

variable {α : Type} {items others : List α}

theorem fitQuadratic_perm (h : items.Perm others) (f g : α → Rat) :
    fitQuadratic (items.map f) (items.map g) = fitQuadratic (others.map f) (others.map g) := by
  rcases Nat.lt_or_ge items.length 3 with few | enough
  · have few' := h.length_eq ▸ few
    simp only [fitQuadratic, List.length_map, h.length_eq, few', if_true]
    rfl
  · rw [fitQuadratic_map enough, fitQuadratic_map (h.length_eq ▸ enough)]
    exact Points.fitParabola_perm (h.map _)

theorem fitLinear_perm (h : items.Perm others) (f g : α → Rat) :
    fitLinear (items.map f) (items.map g) = fitLinear (others.map f) (others.map g) := by
  rcases Nat.lt_or_ge items.length 2 with few | enough
  · have few' := h.length_eq ▸ few
    simp only [fitLinear, List.length_map, h.length_eq, few', if_true]
    rfl
  · rw [fitLinear_map enough, fitLinear_map (h.length_eq ▸ enough)]
    exact Points.fitLine_perm (h.map _)

end Coordinates

end PageFlattening
