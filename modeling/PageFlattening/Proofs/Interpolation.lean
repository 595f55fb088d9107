import Mathlib
import PageFlattening.Proofs.Evaluation
import PageFlattening.Proofs.Rendering

/-! What a field at full resolution shows. A row of samples is read at every pixel, from the two
samples around it and past the last sample from the last two. Reading the columns of a grid and then
its rows gives one bilinear patch for each cell, and the rows and columns that are added at the
border continue these readings, so that the whole expanded field has one formula. -/
namespace PageFlattening

/-! ### Readings along one axis -/

namespace Axis

def cell (samples factor pixel : Nat) : Nat := min (pixel / factor) (samples - 2)

def cellEnd (samples factor pixel : Nat) : Nat := min (cell samples factor pixel + 1) (samples - 1)

def cellPart (samples factor pixel : Nat) : Rat :=
  ((pixel : Rat) - factor * cell samples factor pixel) / factor

def extent (samples factor : Nat) : Nat := (samples - 1) * factor + 1

def reading (samples factor : Nat) (v : Nat → Rat) (pixel : Nat) : Rat :=
  (1 - cellPart samples factor pixel) * v (cell samples factor pixel) +
    cellPart samples factor pixel * v (cellEnd samples factor pixel)

/-- A sequence that goes on from its first `length` entries with the difference of the last two. -/
def Straight (length : Nat) (v : Nat → Rat) : Prop :=
  ∀ k : Nat, v (length - 1 + k) =
    v (length - 1) + (if length < 2 then 0 else v (length - 1) - v (length - 2)) * k

variable {samples factor : Nat}

theorem cell_of_extent_le (positive : 0 < factor) {pixel : Nat}
    (late : extent samples factor - 2 ≤ pixel) : cell samples factor pixel = samples - 2 := by
  refine Nat.min_eq_right ((Nat.le_div_iff_mul_le positive).mpr ?_)
  rcases Nat.lt_or_ge samples 2 with single | several
  · have start : samples - 2 = 0 := by omega
    rw [start, Nat.zero_mul]
    exact Nat.zero_le _
  · have unfolded : (samples - 1) * factor = (samples - 2) * factor + factor := by
      rw [← Nat.succ_mul]
      congr 1
      omega
    rw [extent, unfolded] at late
    omega

theorem reading_single (v : Nat → Rat) (pixel : Nat) : reading 1 factor v pixel = v 0 := by
  have start : cell 1 factor pixel = 0 := Nat.min_eq_right (Nat.zero_le _)
  have stop : cellEnd 1 factor pixel = 0 := Nat.min_eq_right (Nat.zero_le _)
  rw [reading, start, stop]
  ring

theorem reading_of_extent_le (positive : 0 < factor) (several : 2 ≤ samples) (v : Nat → Rat)
    {pixel : Nat} (late : extent samples factor - 2 ≤ pixel) :
    reading samples factor v pixel = v (samples - 2) +
      (v (samples - 1) - v (samples - 2)) * ((pixel : Rat) - factor * (samples - 2 : Nat)) /
        factor := by
  have start := cell_of_extent_le positive late
  have stop : cellEnd samples factor pixel = samples - 1 := by
    rw [cellEnd, start]
    omega
  rw [reading, cellPart, start, stop]
  ring

theorem reading_sample (positive : 0 < factor) (v : Nat → Rat) {i : Nat} (inside : i < samples) :
    reading samples factor v (factor * i) = v i := by
  have nonzero : (factor : Rat) ≠ 0 := Nat.cast_ne_zero.mpr positive.ne'
  have quotient : factor * i / factor = i := Nat.mul_div_cancel_left i positive
  rcases Nat.lt_or_ge (samples - 2) i with last | early
  · -- The last sample belongs to the cell before it, at whose end it stands.
    have start : cell samples factor (factor * i) = i - 1 := by
      rw [cell, quotient]
      omega
    have stop : cellEnd samples factor (factor * i) = i := by
      rw [cellEnd, start]
      omega
    have whole : cellPart samples factor (factor * i) = 1 := by
      rw [cellPart, start, Nat.cast_sub (by omega : 1 ≤ i), Nat.cast_mul]
      field_simp
      ring
    rw [reading, whole, stop]
    ring
  · have start : cell samples factor (factor * i) = i := by
      rw [cell, quotient]
      omega
    have nothing : cellPart samples factor (factor * i) = 0 := by
      rw [cellPart, start, Nat.cast_mul, sub_self, zero_div]
    rw [reading, nothing, start]
    ring

theorem extent_eq_self (filled : 0 < samples) (short : factor = 1 ∨ samples = 1) :
    extent samples factor = samples := by
  rcases short with rfl | rfl
  · rw [extent]
    omega
  · rw [extent, Nat.sub_self, Nat.zero_mul]

theorem extent_injective {others : Nat} (positive : 0 < factor) (filled : 0 < samples)
    (filled' : 0 < others) (same : extent samples factor = extent others factor) :
    samples = others := by
  have steps := Nat.eq_of_mul_eq_mul_right positive (Nat.add_right_cancel same)
  omega

theorem reading_eq_self (short : factor = 1 ∨ samples = 1) (v : Nat → Rat) {pixel : Nat}
    (inside : pixel < samples) : reading samples factor v pixel = v pixel := by
  rcases short with rfl | rfl
  · simpa using reading_sample Nat.one_pos v inside
  · rw [reading_single, Nat.lt_one_iff.mp inside]

theorem reading_straight (positive : 0 < factor) (filled : 0 < samples) (v : Nat → Rat) :
    Straight (extent samples factor) (reading samples factor v) := by
  intro k
  have nonzero : (factor : Rat) ≠ 0 := Nat.cast_ne_zero.mpr positive.ne'
  rcases Nat.lt_or_ge samples 2 with single | several
  · obtain rfl : samples = 1 := by omega
    simp only [reading_single, extent, Nat.sub_self, Nat.zero_mul, Nat.zero_add]
    norm_num
  · have room : factor ≤ (samples - 1) * factor := Nat.le_mul_of_pos_left factor (by omega)
    have long : ¬ extent samples factor < 2 := by
      rw [extent]
      omega
    have last : ((extent samples factor - 1 : Nat) : Rat) =
        ((extent samples factor - 2 : Nat) : Rat) + 1 := by
      exact_mod_cast (by omega : extent samples factor - 1 = extent samples factor - 2 + 1)
    rw [if_neg long, reading_of_extent_le positive several v (by omega),
      reading_of_extent_le positive several v (by omega),
      reading_of_extent_le positive several v le_rfl, Nat.cast_add, last]
    field_simp
    ring

theorem Straight.mul {length : Nat} {v : Nat → Rat} (straight : Straight length v) (m : Rat) :
    Straight length fun k => m * v k := by
  intro k
  simp only [straight k]
  split <;> ring

theorem reading_affine (positive : 0 < factor) (several : 2 ≤ samples) {v : Nat → Rat} {a b : Rat}
    (affine : ∀ i < samples, v i = a + b * (factor * i : Nat)) (pixel : Nat) :
    reading samples factor v pixel = a + b * pixel := by
  have nonzero : (factor : Rat) ≠ 0 := Nat.cast_ne_zero.mpr positive.ne'
  have start : cell samples factor pixel ≤ samples - 2 := Nat.min_le_right _ _
  have stop : cellEnd samples factor pixel = cell samples factor pixel + 1 := by
    rw [cellEnd]
    omega
  rw [reading, stop, affine _ (by omega), affine _ (by omega), cellPart]
  push_cast
  field_simp
  ring

theorem reading_congr {v w : Nat → Rat} (filled : 0 < samples) (same : ∀ i < samples, v i = w i)
    (pixel : Nat) : reading samples factor v pixel = reading samples factor w pixel := by
  have start : cell samples factor pixel < samples := by
    have bound : cell samples factor pixel ≤ samples - 2 := Nat.min_le_right _ _
    omega
  have stop : cellEnd samples factor pixel < samples := by
    have bound : cellEnd samples factor pixel ≤ samples - 1 := Nat.min_le_right _ _
    omega
  rw [reading, reading, same _ start, same _ stop]

theorem reading_comm {others : Nat} (v : Nat → Nat → Rat) (y x : Nat) :
    reading samples factor (fun i => reading others factor (v i) x) y =
      reading others factor (fun j => reading samples factor (fun i => v i j) y) x := by
  simp only [reading]
  ring

end Axis

namespace Grid

/-! ### Grids of readings -/

@[simp] theorem value_ofFn {height width y x : Nat} (f : Nat → Nat → Rat) (row : y < height)
    (column : x < width) : (ofFn height width f).value y x = f y x :=
  get_ofFn f _ row column

theorem ofFn_get {α : Type} (g : Grid α) (outside : α) :
    ofFn g.height g.width (g.get outside) = g := by
  have cells : (ofFn g.height g.width (g.get outside)).cells = g.cells := by
    refine Array.ext (by simp [ofFn, g.size_eq]) fun i inside bound => ?_
    have filled : 0 < g.width := by
      refine Nat.pos_of_ne_zero fun empty => ?_
      rw [g.size_eq, empty, Nat.mul_zero] at bound
      omega
    have position : i / g.width * g.width + i % g.width = i := Nat.div_add_mod' i g.width
    simp [ofFn, get, Nat.mod_lt _ filled, position, bound]
  cases g
  simp_all [ofFn]

theorem ofFn_value (g : Grid Rat) : ofFn g.height g.width g.value = g := ofFn_get g _

def transpose (g : Grid Rat) : Grid Rat := ofFn g.width g.height fun x y => g.value y x

theorem transpose_ofFn (height width : Nat) (f : Nat → Nat → Rat) :
    (ofFn height width f).transpose = ofFn width height fun x y => f y x :=
  ofFn_congr fun _ column _ row => value_ofFn f row column

theorem value_transpose (g : Grid Rat) (y x : Nat) : g.transpose.value x y = g.value y x := by
  by_cases inside : x < g.width ∧ y < g.height
  · exact value_ofFn _ inside.1 inside.2
  · rw [value, value, get_outside, get_outside]
    · omega
    · rw [transpose, height_ofFn, width_ofFn]
      omega

theorem between_eq (a b : Rat) (step factor : Nat) :
    between a b step factor = (1 - step / factor) * a + step / factor * b := by
  change a * (((1 : Int) : Rat) - ((step : Int) : Rat) / ((factor : Int) : Rat)) +
    b * (((step : Int) : Rat) / ((factor : Int) : Rat)) = _
  push_cast
  ring

theorem between_eq_reading {samples factor : Nat} (positive : 0 < factor) (several : 2 ≤ samples)
    (v : Nat → Rat) (pixel : Nat) :
    between (v (Axis.cell samples factor pixel)) (v (Axis.cell samples factor pixel + 1))
      (pixel - Axis.cell samples factor pixel * factor) factor =
        Axis.reading samples factor v pixel := by
  have bound : Axis.cell samples factor pixel ≤ samples - 2 := Nat.min_le_right _ _
  have stop : Axis.cellEnd samples factor pixel = Axis.cell samples factor pixel + 1 := by
    rw [Axis.cellEnd]
    omega
  have before : Axis.cell samples factor pixel * factor ≤ pixel :=
    (Nat.le_div_iff_mul_le positive).mp (Nat.min_le_left _ _)
  rw [between_eq, Axis.reading, Axis.cellPart, stop, Nat.cast_sub before, Nat.cast_mul,
    mul_comm (Axis.cell samples factor pixel : Rat)]

theorem stretchColumns_eq (g : Grid Rat) {factor : Nat} (positive : 0 < factor)
    (filled : 0 < g.width) : g.stretchColumns factor =
      ofFn g.height (Axis.extent g.width factor) fun y x =>
        Axis.reading g.width factor (g.value y) x := by
  rw [stretchColumns]
  split
  · rename_i short
    rw [Axis.extent_eq_self filled short]
    nth_rewrite 1 [← g.ofFn_value]
    exact ofFn_congr fun y _ x column => (Axis.reading_eq_self short (g.value y) column).symm
  · rename_i long
    refine ofFn_congr fun y _ x _ => ?_
    exact between_eq_reading positive (by omega) (g.value y) x

theorem stretchRows_eq_transpose (g : Grid Rat) (factor : Nat) :
    g.stretchRows factor = (g.transpose.stretchColumns factor).transpose := by
  rw [stretchRows, stretchColumns]
  change (if factor = 1 ∨ g.height = 1 then g else _) = transpose (if factor = 1 ∨ g.height = 1
    then g.transpose else ofFn g.width ((g.height - 1) * factor + 1) fun y x => _)
  split
  · rw [transpose]
    simp only [value_transpose]
    exact g.ofFn_value.symm
  · rw [transpose_ofFn]
    simp only [value_transpose]
    rfl

theorem stretchRows_eq (g : Grid Rat) {factor : Nat} (positive : 0 < factor)
    (filled : 0 < g.height) : g.stretchRows factor =
      ofFn (Axis.extent g.height factor) g.width fun y x =>
        Axis.reading g.height factor (fun i => g.value i x) y := by
  have columns : ∀ x, g.transpose.value x = fun i => g.value i x :=
    fun x => funext fun i => g.value_transpose i x
  rw [stretchRows_eq_transpose, stretchColumns_eq _ positive filled, transpose_ofFn]
  simp only [columns]
  rfl

end Grid

namespace Field

/-- The bilinear patch of the cell of a pixel, read at the pixel. -/
def surface (f : Field Rat) (factor y x : Nat) : Rat :=
  let top := Axis.cell f.rows factor y
  let bottom := Axis.cellEnd f.rows factor y
  let left := Axis.cell f.columns factor x
  let right := Axis.cellEnd f.columns factor x
  let s := Axis.cellPart f.rows factor y
  let t := Axis.cellPart f.columns factor x
  (1 - s) * ((1 - t) * f.sample top left + t * f.sample top right) +
    s * ((1 - t) * f.sample bottom left + t * f.sample bottom right)

variable (f : Field Rat) {factor : Nat}

theorem surface_eq_reading (y x : Nat) : f.surface factor y x =
    Axis.reading f.rows factor (fun i => Axis.reading f.columns factor (f.sample i) x) y := rfl

theorem surface_eq_reading_columns (y x : Nat) : f.surface factor y x =
    Axis.reading f.columns factor (fun j =>
      Axis.reading f.rows factor (fun i => f.sample i j) y) x := by
  rw [surface_eq_reading, Axis.reading_comm]

theorem surface_sample (positive : 0 < factor) {i j : Nat} (row : i < f.rows)
    (column : j < f.columns) : f.surface factor (factor * i) (factor * j) = f.sample i j := by
  rw [surface_eq_reading, Axis.reading_sample positive _ row,
    Axis.reading_sample positive _ column]

theorem interpolated_eq (positive : 0 < factor) (multiplier : Rat) :
    f.interpolated factor multiplier =
      Grid.ofFn (Axis.extent f.rows factor) (Axis.extent f.columns factor) fun y x =>
        multiplier * f.surface factor y x := by
  have full : (f.samples.stretchRows factor).stretchColumns factor =
      Grid.ofFn (Axis.extent f.rows factor) (Axis.extent f.columns factor) (f.surface factor) := by
    rw [Grid.stretchRows_eq _ positive f.rows_pos,
      Grid.stretchColumns_eq (Grid.ofFn _ _ _) positive f.columns_pos]
    refine Grid.ofFn_congr fun y row x _ => ?_
    rw [surface_eq_reading_columns]
    exact Axis.reading_congr f.columns_pos (fun j column => Grid.value_ofFn _ row column) x
  rw [interpolated, full]
  by_cases one : multiplier = 1
  · subst one
    simp only [one_mul]
    rfl
  · have other : (multiplier == (Scalar.ofInt 1 : Rat)) = false := beq_false_of_ne one
    rw [other, if_neg Bool.false_ne_true, Grid.map_ofFn]
    exact Grid.ofFn_congr fun y _ x _ => mul_comm _ _

end Field

end PageFlattening
