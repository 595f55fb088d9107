import Mathlib
import PageFlattening.Proofs.EdgeFits
import PageFlattening.Proofs.FitPermutations
import PageFlattening.Proofs.Interpolation

/-! Fits are best in the sense of least squares. What a fit leaves of the ordinates is orthogonal to
every polynomial of its degree, so that any other polynomial leaves as much and the squares of its
distance from the fit besides. That distance is nothing only for the fit itself, as soon as there
are more different abscissae than the degree. The columns of a field are fitted one by one. -/
namespace PageFlattening

/-! ### Polynomials by their values -/

theorem Quadratic.eq_of_eval_eq {q r : Quadratic Rat} {a b c : Rat} (ab : a ≠ b) (ac : a ≠ c)
    (bc : b ≠ c) (atA : r.eval a = q.eval a) (atB : r.eval b = q.eval b)
    (atC : r.eval c = q.eval c) : r = q := by
  have value : ∀ (p : Quadratic Rat) (x : Rat), p.eval x = (p.c2 * x + p.c1) * x + p.c0 :=
    fun _ _ => rfl
  rw [value, value] at atA atB atC
  have chord : ∀ x : Rat, a ≠ x →
      (r.c2 * x + r.c1) * x + r.c0 = (q.c2 * x + q.c1) * x + q.c0 →
      (r.c2 - q.c2) * (a + x) + (r.c1 - q.c1) = 0 := by
    intro x apart atX
    have product : (a - x) * ((r.c2 - q.c2) * (a + x) + (r.c1 - q.c1)) = 0 := by
      linear_combination atA - atX
    exact (mul_eq_zero.mp product).resolve_left (sub_ne_zero.mpr apart)
  have first := chord b ab atB
  have second := chord c ac atC
  have bend : (b - c) * (r.c2 - q.c2) = 0 := by linear_combination first - second
  have c2 : r.c2 - q.c2 = 0 := (mul_eq_zero.mp bend).resolve_left (sub_ne_zero.mpr bc)
  have c1 : r.c1 - q.c1 = 0 := by linear_combination first - (a + b) * c2
  have c0 : r.c0 - q.c0 = 0 := by linear_combination atA - a * a * c2 - a * c1
  cases q
  cases r
  rw [sub_eq_zero] at c2 c1 c0
  congr

theorem Line.eq_of_eval_eq {q r : Line Rat} {a b : Rat} (ab : a ≠ b)
    (atA : r.eval a = q.eval a) (atB : r.eval b = q.eval b) : r = q := by
  have value : ∀ (p : Line Rat) (x : Rat), p.eval x = p.c1 * x + p.c0 := fun _ _ => rfl
  rw [value, value] at atA atB
  have slope : (a - b) * (r.c1 - q.c1) = 0 := by linear_combination atA - atB
  have c1 : r.c1 - q.c1 = 0 := (mul_eq_zero.mp slope).resolve_left (sub_ne_zero.mpr ab)
  have c0 : r.c0 - q.c0 = 0 := by linear_combination atA - a * c1
  cases q
  cases r
  rw [sub_eq_zero] at c1 c0
  congr

namespace Points

/-! ### Least squares -/

def squaredError (points : Points Rat) (curve : Rat → Rat) : Rat :=
  points.total fun x y => (curve x - y) ^ 2

/-- No curve of a family has a smaller squared error than this one, and no other an equal one. -/
def IsBest {F : Type} (points : Points Rat) (eval : F → Rat → Rat) (fit : F) : Prop :=
  ∀ other, points.squaredError (eval fit) ≤ points.squaredError (eval other) ∧
    (points.squaredError (eval other) = points.squaredError (eval fit) → other = fit)

variable {points : Points Rat}

theorem total_square_nonneg (f : Rat → Rat → Rat) : 0 ≤ points.total fun x y => f x y * f x y := by
  rw [total_eq_sum]
  refine List.sum_nonneg fun term listed => ?_
  obtain ⟨p, -, rfl⟩ := List.mem_map.mp listed
  exact mul_self_nonneg _

theorem squaredError_eq_add {fit other : Rat → Rat}
    (normal : points.total (fun x y => (other x - fit x) * (fit x - y)) = 0) :
    points.squaredError other = points.squaredError fit +
      points.total fun x _ => (other x - fit x) * (other x - fit x) := by
  have parts : (fun x y => (other x - y) ^ 2) = fun x y => (fit x - y) ^ 2 +
      2 * ((other x - fit x) * (fit x - y)) + (other x - fit x) * (other x - fit x) := by
    funext x y
    ring
  rw [squaredError, parts, total_add, total_add, total_mul_left, normal, mul_zero, add_zero]
  rfl

theorem isBest_of_normal {F : Type} {eval : F → Rat → Rat} {fit : F}
    (normal : ∀ other, points.total
      (fun x y => (eval other x - eval fit x) * (eval fit x - y)) = 0)
    (determined : ∀ other, (∀ p ∈ points, eval other p.1 = eval fit p.1) → other = fit) :
    points.IsBest eval fit := by
  intro other
  have sum := squaredError_eq_add (normal other)
  refine ⟨?_, fun equal => determined other fun p member => ?_⟩
  · rw [sum]
    exact le_add_of_nonneg_right (total_square_nonneg fun x _ => eval other x - eval fit x)
  · by_contra apart
    have positive := total_square_pos points (fun x _ => eval other x - eval fit x) member
      (sub_ne_zero.mpr apart)
    rw [equal] at sum
    linarith

/-! ### What the fits leave -/

theorem parabola_eval (x : Rat) : points.parabola.eval x =
    points.curve * points.bend x + points.tilt * (x - points.centre) + points.level := by
  rw [parabola_eq]
  change (points.curve * x +
    (points.tilt - points.curve * points.skew - 2 * points.curve * points.centre)) * x + _ = _
  rw [bend]
  ring

theorem line_eval (x : Rat) : points.line.eval x =
    points.tilt * (x - points.centre) + points.level := by
  change points.tilt * x + (points.level - points.tilt * points.centre) = _
  ring

theorem total_above_level (filled : points.count ≠ 0) :
    points.total (fun _ y => y - points.level) = 0 := by
  have mean : points.count * points.level = points.total fun _ y => y := mul_div_cancel₀ _ filled
  rw [total_sub, total_const, mean, sub_self]

theorem total_tilt (spreads : points.square ≠ 0) :
    points.total (fun x y => (y - points.level) * (x - points.centre)) =
      points.tilt * points.square := (div_mul_cancel₀ _ spreads).symm

theorem total_curve (bends : points.total (fun x _ => points.bend x * points.bend x) ≠ 0) :
    points.total (fun x y => (y - points.level) * points.bend x) =
      points.curve * points.total fun x _ => points.bend x * points.bend x :=
  (div_mul_cancel₀ _ bends).symm

theorem line_normal (filled : points.count ≠ 0) (spreads : points.square ≠ 0) (t l : Rat) :
    points.total (fun x y => (t * (x - points.centre) + l) * (points.line.eval x - y)) = 0 := by
  have parts : (fun x y => (t * (x - points.centre) + l) * (points.line.eval x - y)) =
      fun x y => t * points.tilt * ((x - points.centre) * (x - points.centre)) -
        t * ((y - points.level) * (x - points.centre)) +
        l * points.tilt * (x - points.centre) - l * (y - points.level) := by
    funext x y
    rw [line_eval]
    ring
  rw [parts, total_sub, total_add, total_sub, total_mul_left, total_mul_left, total_mul_left,
    total_mul_left, total_tilt spreads, total_offset filled, total_above_level filled]
  change t * points.tilt * points.square - t * (points.tilt * points.square) +
    l * points.tilt * 0 - l * 0 = 0
  ring

theorem parabola_normal (filled : points.count ≠ 0) (spreads : points.square ≠ 0)
    (bends : points.total (fun x _ => points.bend x * points.bend x) ≠ 0) (a t l : Rat) :
    points.total (fun x y => (a * points.bend x + t * (x - points.centre) + l) *
      (points.parabola.eval x - y)) = 0 := by
  have parts : (fun x y => (a * points.bend x + t * (x - points.centre) + l) *
      (points.parabola.eval x - y)) = fun x y =>
        (t * (x - points.centre) + l) * (points.line.eval x - y) +
        a * points.curve * (points.bend x * points.bend x) -
        a * ((y - points.level) * points.bend x) +
        (a * points.tilt + t * points.curve) * (points.bend x * (x - points.centre)) +
        l * points.curve * points.bend x := by
    funext x y
    rw [parabola_eval, line_eval]
    ring
  rw [parts, total_add, total_add, total_sub, total_add, line_normal filled spreads,
    total_mul_left, total_mul_left, total_mul_left, total_mul_left, total_curve bends,
    total_bend_offset filled spreads, total_bend filled]
  ring

theorem Varied.isBest_parabola (varied : points.Varied) :
    points.IsBest Quadratic.eval points.parabola := by
  obtain ⟨p, inP, r, inR, s, inS, pr, ps, rs⟩ := id varied
  refine isBest_of_normal (fun other => ?_) fun other same =>
    Quadratic.eq_of_eval_eq pr ps rs (same p inP) (same r inR) (same s inS)
  have normal := parabola_normal (count_ne_zero inP) varied.uneven.square_ne_zero varied.bends
    (other.c2 - points.curve)
    (other.c2 * points.skew + 2 * other.c2 * points.centre + other.c1 - points.tilt)
    (other.eval points.centre + other.c2 * points.spread - points.level)
  rw [← normal]
  refine total_congr fun u _ => ?_
  have parts : other.eval u.1 = other.c2 * points.bend u.1 +
      (other.c2 * points.skew + 2 * other.c2 * points.centre + other.c1) * (u.1 - points.centre) +
        (other.eval points.centre + other.c2 * points.spread) := eval_eq_bend other u.1
  rw [parts, parabola_eval]
  ring

theorem Uneven.isBest_line (uneven : points.Uneven) : points.IsBest Line.eval points.line := by
  obtain ⟨p, inP, r, inR, different⟩ := id uneven
  refine isBest_of_normal (fun other => ?_) fun other same =>
    Line.eq_of_eval_eq different (same p inP) (same r inR)
  have normal := line_normal (count_ne_zero inP) uneven.square_ne_zero (other.c1 - points.tilt)
    (other.eval points.centre - points.level)
  rw [← normal]
  refine total_congr fun u _ => ?_
  have value : ∀ x : Rat, other.eval x = other.c1 * x + other.c0 := fun _ => rfl
  rw [line_eval, value, value]
  ring

/-! ### Fits of lists of points -/

theorem Varied.length (varied : points.Varied) : 3 ≤ points.length := by
  obtain ⟨p, inP, r, inR, s, inS, apart⟩ := varied
  have three : Threefold (points.map (·.1)) := ⟨_, List.mem_map_of_mem inP, _,
    List.mem_map_of_mem inR, _, List.mem_map_of_mem inS, apart⟩
  simpa using three.length

theorem Uneven.length (uneven : points.Uneven) : 2 ≤ points.length := by
  obtain ⟨p, inP, r, inR, different⟩ := uneven
  match points with
  | [u] =>
      rw [List.mem_singleton] at inP inR
      exact absurd (by rw [inP, inR]) different
  | _ :: _ :: _ => simp

theorem Varied.fitQuadratic (varied : points.Varied) :
    fitQuadratic (points.map (·.1)) (points.map (·.2)) = .ok points.parabola := by
  rw [fitQuadratic_map varied.length, List.map_id', Points.fitParabola, varied.support]

theorem Uneven.fitLinear (uneven : points.Uneven) :
    fitLinear (points.map (·.1)) (points.map (·.2)) = .ok points.line := by
  rw [fitLinear_map uneven.length, List.map_id', Points.fitLine]
  obtain many | ⟨a, b, two⟩ := uneven.support
  · rw [many]
  · rw [two]

theorem IsBest.eq_of_onCurve {F : Type} {eval : F → Rat → Rat} {fit curve : F}
    (best : points.IsBest eval fit) (onCurve : ∀ p ∈ points, p.2 = eval curve p.1) :
    curve = fit := by
  have zero : points.squaredError (eval curve) = 0 := by
    have vanishing : points.squaredError (eval curve) = points.total fun _ _ => 0 :=
      total_congr fun p member => by rw [onCurve p member, sub_self, zero_pow two_ne_zero]
    rw [vanishing, total_const, mul_zero]
  have positive : 0 ≤ points.squaredError (eval fit) := by
    rw [squaredError]
    simp only [pow_two]
    exact total_square_nonneg fun x y => eval fit x - y
  exact (best curve).2 (le_antisymm (zero ▸ positive) (best curve).1)

theorem medianResidual_eq_zero (filled : points ≠ []) {curve : Rat → Rat}
    (onCurve : ∀ p ∈ points, p.2 = curve p.1) : points.medianResidual curve = 0 := by
  refine median_of_forall_eq (by simpa using filled) fun distance listed => ?_
  obtain ⟨p, member, rfl⟩ := List.mem_map.mp listed
  rw [onCurve p member, sub_self, scalarAbs_eq, abs_zero]

theorem medianResidual_perm {others : Points Rat} (h : points.Perm others) (curve : Rat → Rat) :
    points.medianResidual curve = others.medianResidual curve := median_perm (h.map _)

end Points

/-! ### Fits of columns -/

namespace Field

def columnPoints (heights : List Rat) (values : Grid Rat) (x : Nat) : Points Rat :=
  heights.zip ((List.range values.height).map fun y => values.value y x)

variable {heights : List Rat} {values : Grid Rat}

theorem varied_columnPoints (varied : Threefold heights) (rows : values.height = heights.length)
    (x : Nat) : (columnPoints heights values x).Varied := by
  have entry : ∀ a ∈ heights, ∃ p ∈ columnPoints heights values x, p.1 = a := by
    intro a member
    obtain ⟨i, inside, rfl⟩ := List.mem_iff_getElem.mp member
    refine ⟨(heights[i], values.value i x), List.mem_iff_getElem.mpr ⟨i, ?_, ?_⟩, rfl⟩
    · simpa [columnPoints, rows] using inside
    · simp [columnPoints]
  obtain ⟨a, inA, b, inB, c, inC, apart⟩ := varied
  obtain ⟨p, inP, rfl⟩ := entry a inA
  obtain ⟨r, inR, rfl⟩ := entry b inB
  obtain ⟨s, inS, rfl⟩ := entry c inC
  exact ⟨p, inP, r, inR, s, inS, apart⟩

theorem lineFits_ofGrid (varied : Threefold heights) (rows : values.height = heights.length) :
    lineFits heights (.ofGrid values) = .ok ((List.range values.width).map fun x =>
      (columnPoints heights values x).parabola) := by
  have enough : ¬ heights.length < 3 := Nat.not_lt.mpr varied.length
  have same : ¬ values.height ≠ heights.length := not_not.mpr rows
  have fitted : columnFits heights values = .ok ((List.range values.width).map fun x =>
      (columnPoints heights values x).parabola) := by
    refine mapM_eq_ok_iff.mpr (List.forall₂_map_right_iff.mpr (List.forall₂_same.mpr ?_))
    intro x _
    change (columnPoints heights values x).fitParabola = _
    rw [Points.fitParabola, (varied_columnPoints varied rows x).support]
  rw [lineFits, Shaped.grid?_ofGrid]
  simp only [if_neg same, if_neg enough]
  exact fitted

theorem readColumns_map (fit : Nat → Quadratic Rat) (columns rows : Nat) (stride : Rat) :
    readColumns ((List.range columns).map fit) rows stride =
      Grid.ofFn rows columns fun y x => (fit x).eval (y * stride) := by
  simp only [readColumns, List.size_toArray, List.length_map, List.length_range]
  refine Grid.ofFn_congr fun y _ x column => ?_
  have entry : (((List.range columns).map fit).toArray)[x]? = some (fit x) := by
    simp [column]
  simp only [entry]
  rfl

end Field

/-- Fits are best in the sense of least squares, and there is no second one as good: parabolas over
three different abscissae and lines over two. So points on such a curve give it back and have no
median distance from it, the order of the points makes no difference, and a field that is made from
lines shows in every sampled column the best parabola of that column alone. -/
theorem fits_least_squares :
    (∀ points : Points Rat, points.Varied →
      ∃ q, fitQuadratic (points.map (·.1)) (points.map (·.2)) = .ok q ∧
        points.IsBest Quadratic.eval q ∧
        ∀ r : Quadratic Rat, (∀ p ∈ points, p.2 = r.eval p.1) →
          q = r ∧ points.medianResidual q.eval = 0) ∧
    (∀ points : Points Rat, points.Uneven →
      ∃ l, fitLinear (points.map (·.1)) (points.map (·.2)) = .ok l ∧
        points.IsBest Line.eval l ∧
        ∀ r : Line Rat, (∀ p ∈ points, p.2 = r.eval p.1) →
          l = r ∧ points.medianResidual l.eval = 0) ∧
    (∀ points others : Points Rat, points.Perm others →
      fitQuadratic (points.map (·.1)) (points.map (·.2)) =
        fitQuadratic (others.map (·.1)) (others.map (·.2)) ∧
      fitLinear (points.map (·.1)) (points.map (·.2)) =
        fitLinear (others.map (·.1)) (others.map (·.2)) ∧
      ∀ curve : Rat → Rat, points.medianResidual curve = others.medianResidual curve) ∧
    ∀ (d : Direction) (heights : List Rat) (values : Grid Rat) (stride rows : Nat),
      Threefold heights → values.height = heights.length → 0 < values.width → 0 < stride →
      0 < rows →
      ∃ f, Field.ofLines (.ok d) heights (.ofGrid values) (.int stride) rows = .ok f ∧
        f.direction = d ∧ f.stride = stride ∧ f.rows = rows ∧ f.columns = values.width ∧
        ∀ x < values.width, ∃ q : Quadratic Rat,
          (Field.columnPoints heights values x).IsBest Quadratic.eval q ∧
          ∀ y < rows, f.sample y x = q.eval (y * stride) := by
  refine ⟨fun points varied => ?_, fun points uneven => ?_, fun points others h => ?_, ?_⟩
  · have best := varied.isBest_parabola
    refine ⟨_, varied.fitQuadratic, best, fun r onCurve => ?_⟩
    obtain rfl := best.eq_of_onCurve onCurve
    exact ⟨rfl, Points.medianResidual_eq_zero (List.ne_nil_of_mem varied.choose_spec.1) onCurve⟩
  · have best := uneven.isBest_line
    refine ⟨_, uneven.fitLinear, best, fun r onCurve => ?_⟩
    obtain rfl := best.eq_of_onCurve onCurve
    exact ⟨rfl, Points.medianResidual_eq_zero (List.ne_nil_of_mem uneven.choose_spec.1) onCurve⟩
  · exact ⟨fitQuadratic_perm h _ _, fitLinear_perm h _ _, Points.medianResidual_perm h⟩
  · intro d heights values stride rows varied lines wide positive tall
    let samples : Grid Rat := Grid.ofFn rows values.width fun y x =>
      (Field.columnPoints heights values x).parabola.eval (y * stride)
    have made := Field.make_int d (show 0 < samples.height from tall)
      (show 0 < samples.width from wide) positive
    refine ⟨⟨d, samples, stride, tall, wide, positive⟩, ?_, rfl, rfl, rfl, rfl, fun x column => ?_⟩
    · rw [Field.ofLines, Field.lineFits_ofGrid varied lines]
      change Field.make (.ok d) (.ofGrid (Field.readColumns _ (rows : Int).toNat _))
        (.int stride) = _
      rw [Int.toNat_natCast, Field.readColumns_map]
      exact made
    · exact ⟨_, (Field.varied_columnPoints varied lines x).isBest_parabola,
        fun y row => Grid.value_ofFn _ row column⟩

/-! Points on a parabola, two of them above one abscissa, and three lines with two columns. -/

namespace Bowl

def points : Points Rat := [(0, 1), (1, 2), (2, 5), (1, 2)]

def heights : List Rat := [0, 1, 2]

def values : Grid Rat := Grid.ofFn 3 2 fun y x => (y * y + x : Nat)

theorem bowl_fitted :
    (points.Varied ∧ fitQuadratic (points.map (·.1)) (points.map (·.2)) = .ok ⟨1, 0, 1⟩ ∧
      points.medianResidual (⟨1, 0, 1⟩ : Quadratic Rat).eval = 0) ∧
    (points.Uneven ∧ ∃ l, fitLinear (points.map (·.1)) (points.map (·.2)) = .ok l ∧
      points.IsBest Line.eval l) ∧
    fitQuadratic (points.reverse.map (·.1)) (points.reverse.map (·.2)) =
      fitQuadratic (points.map (·.1)) (points.map (·.2)) ∧
    Threefold heights ∧ values.height = heights.length ∧
      ∃ f, Field.ofLines (.ok .vertical) heights (.ofGrid values) (.int (10 : Nat)) (4 : Nat) =
        .ok f ∧ f.rows = 4 ∧ f.columns = 2 := by
  have varied : points.Varied := ⟨(0, 1), by decide, (1, 2), by decide, (2, 5), by decide,
    by decide, by decide, by decide⟩
  have three : Threefold heights := ⟨0, by decide, 1, by decide, 2, by decide, by decide,
    by decide, by decide⟩
  have onCurve : ∀ p ∈ points, p.2 = (⟨1, 0, 1⟩ : Quadratic Rat).eval p.1 := by
    have value : ∀ x : Rat, (⟨1, 0, 1⟩ : Quadratic Rat).eval x = (1 * x + 0) * x + 1 := fun _ => rfl
    simp only [value, points, List.forall_mem_cons]
    norm_num
  obtain ⟨q, fitted, -, found⟩ := fits_least_squares.1 points varied
  obtain ⟨rfl, distance⟩ := found _ onCurve
  obtain ⟨l, fitted', best, -⟩ := fits_least_squares.2.1 points varied.uneven
  have reversed := fits_least_squares.2.2.1 points.reverse points points.reverse_perm
  obtain ⟨f, made, -, -, rows, columns, -⟩ := fits_least_squares.2.2.2 .vertical heights values 10 4
    three rfl (by decide) (by decide) (by decide)
  exact ⟨⟨varied, fitted, distance⟩, ⟨varied.uneven, l, fitted', best⟩, reversed.1, three, rfl, f,
    made, rows, columns⟩

end Bowl

end PageFlattening
