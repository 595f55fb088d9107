import Mathlib
import PageFlattening.Fit.LeastSquares
import PageFlattening.Proofs.Outcome

/-! Statistics and fits over the rationals. Extremes are those of the list, and a list of equal
numbers has that number as its median. A fit fails only where all abscissae are zero. The parabola
is made of polynomials that are orthogonal on the abscissae, and so it finds the parabola again that
points lie on. -/
namespace PageFlattening

/-! ### Extremes and medians -/

theorem scalarMin_eq (a b : Rat) : Scalar.min a b = min a b := by
  change (if b < a then b else a) = min a b
  rw [min_def]
  split <;> split <;> grind

theorem scalarMax_eq (a b : Rat) : Scalar.max a b = max a b := by
  change (if a < b then b else a) = max a b
  rw [max_def]
  split <;> split <;> grind

theorem scalarAbs_eq (x : Rat) : Scalar.abs x = |x| := by
  change (if x < ((0 : Int) : Rat) then -x else x) = |x|
  rw [Int.cast_zero]
  split
  · rename_i negative
    exact (abs_of_neg negative).symm
  · rename_i positive
    exact (abs_of_nonneg (not_lt.mp positive)).symm

theorem scalarSum_eq (xs : List Rat) : Scalar.sum xs = xs.sum := by
  rw [List.sum_eq_foldl]
  rfl

theorem scalarOfNat_eq (n : Nat) : (Scalar.ofNat n : Rat) = n := Int.cast_natCast n

theorem least?_eq_min? (xs : List Rat) : least? xs = xs.min? := by
  cases xs with
  | nil => rfl
  | cons x rest =>
      have step : (Scalar.min : Rat → Rat → Rat) = min := funext₂ scalarMin_eq
      rw [least?, step, List.min?_cons']

theorem greatest?_eq_max? (xs : List Rat) : greatest? xs = xs.max? := by
  cases xs with
  | nil => rfl
  | cons x rest =>
      have step : (Scalar.max : Rat → Rat → Rat) = max := funext₂ scalarMax_eq
      rw [greatest?, step, List.max?_cons']

theorem median_of_forall_eq {xs : List Rat} {c : Rat} (filled : xs ≠ [])
    (same : ∀ x ∈ xs, x = c) : median xs = c := by
  have sorted : ∀ i < xs.length, (ascending xs).getD i (Scalar.ofInt 0) = c := by
    intro i inside
    have bound : i < (ascending xs).length := by
      rwa [ascending, List.length_mergeSort]
    rw [List.getD_eq_getElem _ _ bound]
    exact same _ (List.mem_mergeSort.mp (List.getElem_mem bound))
  have length : 0 < xs.length := List.length_pos_iff.mpr filled
  have defined : xs.any isUndefined = false := List.any_eq_false.mpr fun _ _ => Bool.false_ne_true
  have nonempty : xs.isEmpty = false := List.isEmpty_eq_false_iff.mpr filled
  simp only [median, defined, nonempty, Bool.or_self, Bool.false_eq_true, if_false]
  rw [sorted _ (by omega), sorted _ (by omega)]
  split
  · rfl
  · change (c + c) / (2 : Int) = c
    push_cast
    ring

/-! ### Different numbers -/

def Threefold (xs : List Rat) : Prop := ∃ a ∈ xs, ∃ b ∈ xs, ∃ c ∈ xs, a ≠ b ∧ a ≠ c ∧ b ≠ c

namespace Threefold

theorem length {xs : List Rat} (h : Threefold xs) : 3 ≤ xs.length := by
  obtain ⟨a, inA, b, inB, c, inC, ab, ac, bc⟩ := h
  have distinct : [a, b, c].Nodup := by
    simp [ab, ac, bc]
  have listed : [a, b, c] ⊆ xs := by
    simp [inA, inB, inC]
  exact (List.subperm_of_subset distinct listed).length_le

theorem subset {xs ys : List Rat} (h : Threefold xs) (listed : xs ⊆ ys) : Threefold ys := by
  obtain ⟨a, inA, b, inB, c, inC, apart⟩ := h
  exact ⟨a, listed inA, b, listed inB, c, listed inC, apart⟩

theorem map {xs : List Rat} (h : Threefold xs) {f : Rat → Rat} (injective : f.Injective) :
    Threefold (xs.map f) := by
  obtain ⟨a, inA, b, inB, c, inC, ab, ac, bc⟩ := h
  exact ⟨_, List.mem_map_of_mem inA, _, List.mem_map_of_mem inB, _, List.mem_map_of_mem inC,
    injective.ne ab, injective.ne ac, injective.ne bc⟩

theorem of_ascending {xs : List Rat} (ascending : xs.Pairwise (· < ·)) (enough : 3 ≤ xs.length) :
    Threefold xs := by
  match xs with
  | x :: y :: z :: rest =>
      simp only [List.pairwise_cons] at ascending
      have xy := ascending.1 y (by simp)
      have xz := ascending.1 z (by simp)
      have yz := ascending.2.1 z (by simp)
      exact ⟨x, by simp, y, by simp, z, by simp, xy.ne, xz.ne, yz.ne⟩

end Threefold

namespace Points

/-! ### Sums over points -/

theorem total_eq_sum (points : Points Rat) (term : Rat → Rat → Rat) :
    points.total term = (points.map fun p => term p.1 p.2).sum := by
  rw [total, List.sum_eq_foldl]
  rfl

theorem total_congr {points : Points Rat} {f g : Rat → Rat → Rat}
    (same : ∀ p ∈ points, f p.1 p.2 = g p.1 p.2) : points.total f = points.total g := by
  rw [total_eq_sum, total_eq_sum, List.map_congr_left same]

variable (points : Points Rat)

theorem total_add (f g : Rat → Rat → Rat) :
    points.total (fun x y => f x y + g x y) = points.total f + points.total g := by
  simp only [total_eq_sum]
  exact List.sum_map_add

theorem total_mul_left (c : Rat) (f : Rat → Rat → Rat) :
    points.total (fun x y => c * f x y) = c * points.total f := by
  simp only [total_eq_sum]
  exact List.sum_map_mul_left _ _ _

theorem total_sub (f g : Rat → Rat → Rat) :
    points.total (fun x y => f x y - g x y) = points.total f - points.total g := by
  have negated : (fun x y => f x y - g x y) = fun x y => f x y + -1 * g x y := by
    funext x y
    ring
  rw [negated, total_add, total_mul_left]
  ring

theorem total_const (c : Rat) : points.total (fun _ _ => c) = points.count * c := by
  rw [total_eq_sum, List.map_const', List.sum_replicate, nsmul_eq_mul]
  rfl

theorem total_square_pos (f : Rat → Rat → Rat) {p : Rat × Rat} (member : p ∈ points)
    (nonzero : f p.1 p.2 ≠ 0) : 0 < points.total fun x y => f x y * f x y := by
  rw [total_eq_sum]
  refine lt_of_lt_of_le (mul_self_pos.mpr nonzero)
    (List.single_le_sum ?_ _ (List.mem_map_of_mem member))
  intro term listed
  obtain ⟨r, -, rfl⟩ := List.mem_map.mp listed
  exact mul_self_nonneg _

/-! ### Orthogonal polynomials on the abscissae -/

def centre : Rat := points.mean fun x _ => x

def square : Rat := points.total fun x _ => (x - points.centre) * (x - points.centre)

def skew : Rat :=
  (points.total fun x _ => (x - points.centre) * (x - points.centre) * (x - points.centre)) /
    points.square

def spread : Rat := points.square / points.count

/-- The squared distance from the mean without the parts that a line explains. -/
def bend (x : Rat) : Rat :=
  (x - points.centre) * (x - points.centre) - points.skew * (x - points.centre) - points.spread

def level : Rat := points.mean fun _ y => y

def tilt : Rat :=
  (points.total fun x y => (y - points.level) * (x - points.centre)) / points.square

def curve : Rat :=
  (points.total fun x y => (y - points.level) * points.bend x) /
    points.total fun x _ => points.bend x * points.bend x

theorem parabola_eq : points.parabola =
    { c2 := points.curve
      c1 := points.tilt - points.curve * points.skew - 2 * points.curve * points.centre
      c0 := points.level - points.tilt * points.centre + points.curve *
        (points.centre * points.centre + points.skew * points.centre - points.spread) } := rfl

variable {points}

theorem total_offset (filled : points.count ≠ 0) :
    points.total (fun x _ => x - points.centre) = 0 := by
  have mean : points.count * points.centre = points.total fun x _ => x := mul_div_cancel₀ _ filled
  rw [total_sub, total_const, mean, sub_self]

theorem total_bend (filled : points.count ≠ 0) :
    points.total (fun x _ => points.bend x) = 0 := by
  have mean : points.count * points.spread = points.square := mul_div_cancel₀ _ filled
  simp only [bend]
  rw [total_sub, total_sub, total_mul_left, total_offset filled, total_const, mean]
  change points.square - points.skew * 0 - points.square = 0
  ring

theorem total_bend_offset (filled : points.count ≠ 0) (spreads : points.square ≠ 0) :
    points.total (fun x _ => points.bend x * (x - points.centre)) = 0 := by
  have cube : points.skew * points.square = points.total fun x _ =>
      (x - points.centre) * (x - points.centre) * (x - points.centre) := div_mul_cancel₀ _ spreads
  have parts : (fun x (_ : Rat) => points.bend x * (x - points.centre)) = fun x _ =>
      (x - points.centre) * (x - points.centre) * (x - points.centre) -
        points.skew * ((x - points.centre) * (x - points.centre)) -
        points.spread * (x - points.centre) := by
    funext x _
    rw [bend]
    ring
  rw [parts, total_sub, total_sub, total_mul_left, total_mul_left, total_offset filled, ← cube]
  change points.skew * points.square - points.skew * points.square - points.spread * 0 = 0
  ring

theorem eval_eq_bend (q : Quadratic Rat) (x : Rat) : q.eval x = q.c2 * points.bend x +
    (q.c2 * points.skew + 2 * q.c2 * points.centre + q.c1) * (x - points.centre) +
      (q.eval points.centre + q.c2 * points.spread) := by
  change (q.c2 * x + q.c1) * x + q.c0 = _ + ((q.c2 * _ + q.c1) * _ + q.c0 + _)
  rw [bend]
  ring

/-- The parts of points along the orthogonal polynomials are the coefficients of the fit. -/
theorem level_of_parts (filled : points.count ≠ 0) {a t l : Rat}
    (parts : ∀ p ∈ points, p.2 = a * points.bend p.1 + t * (p.1 - points.centre) + l) :
    points.level = l := by
  have sum : points.total (fun _ y => y) = points.count * l := by
    calc points.total (fun _ y => y)
        = points.total fun x _ => a * points.bend x + t * (x - points.centre) + l :=
          total_congr parts
      _ = points.count * l := by
          rw [total_add, total_add, total_mul_left, total_mul_left, total_bend filled,
            total_offset filled, total_const]
          ring
  change points.total (fun _ y => y) / points.count = l
  rw [sum]
  exact mul_div_cancel_left₀ l filled

theorem tilt_of_parts (filled : points.count ≠ 0) (spreads : points.square ≠ 0) {a t l : Rat}
    (parts : ∀ p ∈ points, p.2 = a * points.bend p.1 + t * (p.1 - points.centre) + l) :
    points.tilt = t := by
  have level := level_of_parts filled parts
  have sum : points.total (fun x y => (y - points.level) * (x - points.centre)) =
      t * points.square := by
    calc points.total (fun x y => (y - points.level) * (x - points.centre))
        = points.total fun x _ => a * (points.bend x * (x - points.centre)) +
            t * ((x - points.centre) * (x - points.centre)) := by
          refine total_congr fun p member => ?_
          rw [level, parts p member]
          ring
      _ = t * points.square := by
          rw [total_add, total_mul_left, total_mul_left, total_bend_offset filled spreads, mul_zero,
            zero_add]
          rfl
  rw [tilt, sum, mul_div_cancel_right₀ t spreads]

theorem curve_of_parts (filled : points.count ≠ 0) (spreads : points.square ≠ 0)
    (bends : points.total (fun x _ => points.bend x * points.bend x) ≠ 0) {a t l : Rat}
    (parts : ∀ p ∈ points, p.2 = a * points.bend p.1 + t * (p.1 - points.centre) + l) :
    points.curve = a := by
  have level := level_of_parts filled parts
  have sum : points.total (fun x y => (y - points.level) * points.bend x) =
      a * points.total fun x _ => points.bend x * points.bend x := by
    calc points.total (fun x y => (y - points.level) * points.bend x)
        = points.total fun x _ => a * (points.bend x * points.bend x) +
            t * (points.bend x * (x - points.centre)) := by
          refine total_congr fun p member => ?_
          rw [level, parts p member]
          ring
      _ = a * points.total fun x _ => points.bend x * points.bend x := by
          rw [total_add, total_mul_left, total_mul_left, total_bend_offset filled spreads, mul_zero,
            add_zero]
  rw [curve, sum, mul_div_cancel_right₀ a bends]

/-! ### Different abscissae -/

def Varied (points : Points Rat) : Prop :=
  ∃ p ∈ points, ∃ r ∈ points, ∃ s ∈ points, p.1 ≠ r.1 ∧ p.1 ≠ s.1 ∧ r.1 ≠ s.1

def Uneven (points : Points Rat) : Prop := ∃ p ∈ points, ∃ r ∈ points, p.1 ≠ r.1

theorem Uneven.square_ne_zero (uneven : points.Uneven) : points.square ≠ 0 := by
  obtain ⟨p, member, r, member', different⟩ := uneven
  -- Not both of two different numbers are the mean.
  by_cases off : p.1 - points.centre = 0
  · have off' : r.1 - points.centre ≠ 0 := fun zero =>
      different ((sub_eq_zero.mp off).trans (sub_eq_zero.mp zero).symm)
    exact (total_square_pos points (fun x _ => x - points.centre) member' off').ne'
  · exact (total_square_pos points (fun x _ => x - points.centre) member off).ne'

theorem count_ne_zero {p : Rat × Rat} (member : p ∈ points) : points.count ≠ 0 := by
  change ((points.length : Int) : Rat) ≠ 0
  exact_mod_cast (List.length_pos_of_mem member).ne'

theorem Varied.uneven (varied : points.Varied) : points.Uneven := by
  obtain ⟨p, member, r, member', -, -, different, -⟩ := varied
  exact ⟨p, member, r, member', different⟩

theorem Varied.bends (varied : points.Varied) :
    points.total (fun x _ => points.bend x * points.bend x) ≠ 0 := by
  obtain ⟨p, inP, r, inR, s, inS, pr, ps, rs⟩ := varied
  by_contra flat
  have zero : ∀ u ∈ points, points.bend u.1 = 0 := by
    intro u member
    by_contra nonzero
    exact (total_square_pos points (fun x _ => points.bend x) member nonzero).ne' flat
  have difference : ∀ u v : Rat, points.bend u - points.bend v =
      (u - v) * (u + v - 2 * points.centre - points.skew) := by
    intro u v
    rw [bend, bend]
    ring
  have sum : ∀ v ∈ points, p.1 ≠ v.1 → p.1 + v.1 - 2 * points.centre - points.skew = 0 := by
    intro v member different
    have product := difference p.1 v.1
    rw [zero p inP, zero v member, sub_self] at product
    exact (mul_eq_zero.mp product.symm).resolve_left (sub_ne_zero.mpr different)
  have first := sum r inR pr
  have second := sum s inS ps
  exact rs (by linarith)

theorem support_cons (a y : Rat) (rest : Points Rat) :
    (∀ p ∈ rest, p.1 = a) ∧ support ((a, y) :: rest) = .one a ∨
    ∃ b, (∃ p ∈ rest, p.1 = b) ∧ b ≠ a ∧
      ((∃ p ∈ rest, p.1 ≠ a ∧ p.1 ≠ b) ∧ support ((a, y) :: rest) = .many ∨
        (∀ p ∈ rest, p.1 = a ∨ p.1 = b) ∧ support ((a, y) :: rest) = .two a b) := by
  rw [support]
  cases found : rest.find? fun p => !(p.1 == a) with
  | none =>
      refine .inl ⟨fun p member => ?_, rfl⟩
      have same := List.find?_eq_none.mp found p member
      simpa using same
  | some p =>
      obtain ⟨b, z⟩ := p
      have other : b ≠ a := by simpa using List.find?_some found
      refine .inr ⟨b, ⟨_, List.mem_of_find?_eq_some found, rfl⟩, other, ?_⟩
      dsimp only
      split
      · rename_i third
        refine .inl ⟨?_, rfl⟩
        simpa using third
      · rename_i others
        refine .inr ⟨?_, rfl⟩
        simpa [or_iff_not_imp_left] using others

theorem Uneven.support (uneven : points.Uneven) :
    points.support = .many ∨ ∃ a b, points.support = .two a b := by
  obtain ⟨p, inP, r, inR, different⟩ := uneven
  cases points with
  | nil => cases inP
  | cons first rest =>
      obtain ⟨a, y⟩ := first
      obtain ⟨same, -⟩ | ⟨b, -, -, ⟨-, many⟩ | ⟨-, two⟩⟩ := support_cons a y rest
      · have all : ∀ u ∈ (a, y) :: rest, u.1 = a := by
          intro u member
          obtain rfl | member := List.mem_cons.mp member
          · rfl
          · exact same u member
        exact absurd ((all p inP).trans (all r inR).symm) different
      · exact .inl many
      · exact .inr ⟨a, b, two⟩

theorem Varied.support (varied : points.Varied) : points.support = .many := by
  obtain many | ⟨a, b, two⟩ := varied.uneven.support
  · exact many
  · obtain ⟨p, inP, r, inR, s, inS, pr, ps, rs⟩ := varied
    cases points with
    | nil => cases inP
    | cons first rest =>
        obtain ⟨c, y⟩ := first
        obtain ⟨-, one⟩ | ⟨d, -, -, ⟨-, many⟩ | ⟨pair, two'⟩⟩ := support_cons c y rest
        · rw [one] at two
          cases two
        · exact many
        · -- Three different numbers are not all one of two.
          have all : ∀ u ∈ (c, y) :: rest, u.1 = c ∨ u.1 = d := by
            intro u member
            obtain rfl | member := List.mem_cons.mp member
            · exact .inl rfl
            · exact pair u member
          have atP := all p inP
          have atR := all r inR
          have atS := all s inS
          grind

theorem Varied.fitParabola (varied : points.Varied) {q : Quadratic Rat}
    (onCurve : ∀ p ∈ points, p.2 = q.eval p.1) : points.fitParabola = .ok q := by
  have filled : points.count ≠ 0 := count_ne_zero varied.choose_spec.1
  have spreads := varied.uneven.square_ne_zero
  have parts : ∀ p ∈ points, p.2 = q.c2 * points.bend p.1 +
      (q.c2 * points.skew + 2 * q.c2 * points.centre + q.c1) * (p.1 - points.centre) +
        (q.eval points.centre + q.c2 * points.spread) := by
    intro p member
    rw [onCurve p member, ← eval_eq_bend]
  have same : points.parabola = q := by
    have middle : q.eval points.centre =
        (q.c2 * points.centre + q.c1) * points.centre + q.c0 := rfl
    rw [parabola_eq, level_of_parts filled parts, tilt_of_parts filled spreads parts,
      curve_of_parts filled spreads varied.bends parts, middle]
    congr 1 <;> ring
  rw [Points.fitParabola, varied.support]
  exact congrArg Except.ok same

def OffZero (points : Points Rat) : Prop := ∃ p ∈ points, p.1 ≠ 0

theorem Uneven.offZero (uneven : points.Uneven) : points.OffZero := by
  obtain ⟨p, inP, r, inR, different⟩ := uneven
  by_cases zero : p.1 = 0
  · exact ⟨r, inR, fun zero' => different (zero.trans zero'.symm)⟩
  · exact ⟨p, inP, zero⟩

theorem support_offZero (points : Points Rat) :
    points.support = .none ∧ ¬ points.OffZero ∨
    (∃ a, points.support = .one a ∧ (points.OffZero ↔ a ≠ 0)) ∨
    (∃ a b, points.support = .two a b) ∧ points.OffZero ∨
    points.support = .many ∧ points.OffZero := by
  cases points with
  | nil => exact .inl ⟨rfl, by rintro ⟨_, member, -⟩; cases member⟩
  | cons first rest =>
      obtain ⟨a, y⟩ := first
      have uneven : ∀ {b : Rat}, (∃ p ∈ rest, p.1 = b) → b ≠ a → OffZero ((a, y) :: rest) := by
        rintro b ⟨p, member, rfl⟩ other
        exact Uneven.offZero ⟨_, List.mem_cons_self, p, List.mem_cons_of_mem _ member, other.symm⟩
      obtain ⟨same, one⟩ | ⟨b, there, other, ⟨-, many⟩ | ⟨-, two⟩⟩ := support_cons a y rest
      · refine .inr (.inl ⟨a, one, ?_, fun nonzero => ⟨_, List.mem_cons_self, nonzero⟩⟩)
        rintro ⟨p, member, nonzero⟩
        rcases List.mem_cons.mp member with rfl | member
        · exact nonzero
        · rwa [same p member] at nonzero
      · exact .inr (.inr (.inr ⟨many, uneven there other⟩))
      · exact .inr (.inr (.inl ⟨⟨a, b, two⟩, uneven there other⟩))

theorem exists_unless_zero {α : Type} {a : Rat} {fault : Fault} {value : α} :
    (∃ v, (if a == Scalar.ofInt 0 then .error fault else .ok value : Except Fault α) = .ok v) ↔
      a ≠ 0 := by
  have decides : (a == (Scalar.ofInt 0 : Rat)) = true ↔ a = 0 := beq_iff_eq
  split
  · exact iff_of_false nofun (not_not.mpr (decides.mp ‹_›))
  · exact iff_of_true ⟨_, rfl⟩ (decides.not.mp ‹_›)

theorem exists_fitParabola_iff : (∃ q, points.fitParabola = .ok q) ↔ points.OffZero := by
  rw [Points.fitParabola]
  obtain ⟨none, flat⟩ | ⟨a, one, off⟩ | ⟨⟨a, b, two⟩, off⟩ | ⟨many, off⟩ := support_offZero points
  · rw [none]
    exact iff_of_false nofun flat
  · rw [one, off]
    exact exists_unless_zero
  · rw [two]
    exact iff_of_true ⟨_, rfl⟩ off
  · rw [many]
    exact iff_of_true ⟨_, rfl⟩ off

theorem exists_fitLine_iff : (∃ l, points.fitLine = .ok l) ↔ points.OffZero := by
  rw [Points.fitLine]
  obtain ⟨none, flat⟩ | ⟨a, one, off⟩ | ⟨⟨a, b, two⟩, off⟩ | ⟨many, off⟩ := support_offZero points
  · rw [none]
    exact iff_of_false nofun flat
  · rw [one, off]
    exact exists_unless_zero
  · rw [two]
    exact iff_of_true ⟨_, rfl⟩ off
  · rw [many]
    exact iff_of_true ⟨_, rfl⟩ off

end Points

theorem Threefold.varied {xs : List Rat} (h : Threefold xs) (f : Rat → Rat) :
    Points.Varied (xs.map fun x => (x, f x)) := by
  obtain ⟨a, inA, b, inB, c, inC, apart⟩ := h
  exact ⟨_, List.mem_map_of_mem inA, _, List.mem_map_of_mem inB, _, List.mem_map_of_mem inC, apart⟩

theorem scaled_eq (unit : Int) (x : Rat) :
    scaled unit x = .ok (Scalar.nearest (Scalar.ofInt unit * x)) := rfl

end PageFlattening
