import Mathlib
import PageFlattening.Proofs.Interpolation

/-! How a field goes on beyond its samples. Columns are added with the slope of a source, and then
rows with the slope of the source that was widened in the same way. Where the source goes on in
straight lines the two steps amount to one rule: from the nearest pixel inside, add what the source
rises from there. A field without a source is its own source, and its patches are continued. -/
namespace PageFlattening

namespace Grid

/-- The values of a grid of a size inside it, and from its edge on the rise of a source. -/
def continued (height width : Nat) (f s : Nat → Nat → Rat) (y x : Nat) : Rat :=
  f (min y (height - 1)) (min x (width - 1)) +
    (s y x - s (min y (height - 1)) (min x (width - 1)))

variable {height width : Nat}

theorem continued_self (f : Nat → Nat → Rat) : continued height width f f = f := by
  funext y x
  exact add_sub_cancel _ _

theorem continued_inside {f s : Nat → Nat → Rat} {y x : Nat} (row : y < height)
    (column : x < width) : continued height width f s y x = f y x := by
  rw [continued, Nat.min_eq_left (by omega), Nat.min_eq_left (by omega), sub_self, add_zero]

theorem rowRise_ofFn (s : Nat → Nat → Rat) {y : Nat} (row : y < height) :
    (ofFn height width s).rowRise y =
      if width < 2 then 0 else s y (width - 1) - s y (width - 2) := by
  have only : (if height = 1 then 0 else y) = y := by
    split <;> omega
  change (if width < 2 then (0 : Rat)
    else (ofFn height width s).value (if height = 1 then 0 else y) (width - 1) -
      (ofFn height width s).value (if height = 1 then 0 else y) (width - 2)) = _
  rw [only]
  split
  · rfl
  · rw [value_ofFn s row (by omega), value_ofFn s row (by omega)]

theorem growRight_ofFn (wide : 0 < width) (f : Nat → Nat → Rat) {s : Nat → Nat → Rat}
    (straight : ∀ y, Axis.Straight width (s y)) (count : Nat) :
    (ofFn height width f).growRight (ofFn height width s) count =
      ofFn height (width + count) fun y x =>
        f y (min x (width - 1)) + (s y x - s y (min x (width - 1))) := by
  change ofFn height (width + count) (fun y x =>
    if x < width then (ofFn height width f).value y x
    else (ofFn height width f).value y (width - 1) +
      (((List.range height).map (ofFn height width s).rowRise).toArray).getD y (Scalar.ofInt 0) *
        ((x - width + 1 : Nat) : Rat)) = _
  refine ofFn_congr fun y row x _ => ?_
  have rise : (((List.range height).map (ofFn height width s).rowRise).toArray).getD y
      (Scalar.ofInt 0) = if width < 2 then 0 else s y (width - 1) - s y (width - 2) := by
    simp [row, rowRise_ofFn]
  split
  · rename_i inside
    have same : min x (width - 1) = x := by omega
    rw [value_ofFn f row inside, same, sub_self, add_zero]
  · have edge : min x (width - 1) = width - 1 := by omega
    have beyond : x = width - 1 + (x - width + 1) := by omega
    have line := straight y (x - width + 1)
    rw [← beyond] at line
    rw [value_ofFn f row (by omega), rise, edge, line, add_sub_cancel_left]

theorem columnRise_eq_transpose (g : Grid Rat) : g.columnRise = g.transpose.rowRise := by
  funext x
  simp only [rowRise, value_transpose]
  rfl

theorem growDown_eq_transpose (g source : Grid Rat) (count : Nat) :
    g.growDown source count = (g.transpose.growRight source.transpose count).transpose := by
  simp only [growDown, growRight, transpose_ofFn, value_transpose, columnRise_eq_transpose]
  rfl

theorem growDown_ofFn (tall : 0 < height) (f : Nat → Nat → Rat) {s : Nat → Nat → Rat}
    (straight : ∀ x, Axis.Straight height fun y => s y x) (count : Nat) :
    (ofFn height width f).growDown (ofFn height width s) count =
      ofFn (height + count) width fun y x =>
        f (min y (height - 1)) x + (s y x - s (min y (height - 1)) x) := by
  rw [growDown_eq_transpose, transpose_ofFn, transpose_ofFn,
    growRight_ofFn tall (fun x y => f y x) straight, transpose_ofFn]

theorem growRight_zero (g source : Grid Rat) : g.growRight source 0 = g := by
  nth_rewrite 2 [← g.ofFn_value]
  rw [growRight]
  exact ofFn_congr fun y _ x column => if_pos column

theorem growDown_zero (g source : Grid Rat) : g.growDown source 0 = g := by
  nth_rewrite 2 [← g.ofFn_value]
  rw [growDown]
  exact ofFn_congr fun y row x _ => if_pos row

theorem extend_eq_growDown (g s : Grid Rat) (tall : s.height = g.height) (wide : s.width = g.width)
    (right bottom : Int) : g.extend right bottom (some s) =
      .ok ((g.growRight s right.toNat).growDown (s.growRight s right.toNat) bottom.toNat) := by
  unfold extend
  generalize right.toNat = across
  generalize bottom.toNat = down
  have widened : ∀ a b : Grid Rat, (if across = 0 then a else a.growRight b across) =
      a.growRight b across := by
    intro a b
    split
    · rename_i zero
      rw [zero, growRight_zero]
    · rfl
  have source : (if across = 0 then some s else (some s).map fun t => t.growRight t across) =
      some (s.growRight s across) := by
    rw [← widened s s]
    split <;> rfl
  have lengthened : ∀ a b : Grid Rat, (if down = 0 then a else a.growDown b down) =
      a.growDown b down := by
    intro a b
    split
    · rename_i zero
      rw [zero, growDown_zero]
    · rfl
  simp only [source, widened, lengthened, Option.getD_some, tall, wide, width_growRight, fits_self,
    Bool.not_true, Bool.false_eq_true, and_false, if_false]
  rfl

theorem extend_none (g : Grid Rat) (right bottom : Int) :
    g.extend right bottom none = g.extend right bottom (some g) := by
  unfold extend
  generalize right.toNat = across
  by_cases zero : across = 0
  · subst zero
    rfl
  · simp only [if_neg zero]
    rfl

theorem extend_ofFn (tall : 0 < height) (wide : 0 < width) (f : Nat → Nat → Rat)
    {s : Nat → Nat → Rat} (across : ∀ y, Axis.Straight width (s y))
    (down : ∀ x, Axis.Straight height fun y => s y x) (right bottom : Int) :
    (ofFn height width f).extend right bottom (some (ofFn height width s)) =
      .ok (ofFn (height + bottom.toNat) (width + right.toNat) (continued height width f s)) := by
  have own : ∀ y x, s y (min x (width - 1)) + (s y x - s y (min x (width - 1))) = s y x :=
    fun y x => add_sub_cancel _ _
  rw [extend_eq_growDown (ofFn height width f) (ofFn height width s) rfl rfl,
    growRight_ofFn wide f across, growRight_ofFn wide s across]
  simp only [own]
  rw [growDown_ofFn tall _ down]
  congr 1
  refine ofFn_congr fun y _ x _ => ?_
  rw [continued]
  ring

theorem covering_ofFn (tall : 0 < height) (wide : 0 < width) (f : Nat → Nat → Rat)
    {s : Nat → Nat → Rat} (across : ∀ y, Axis.Straight width (s y))
    (down : ∀ x, Axis.Straight height fun y => s y x) (columns rows : Nat) :
    ((ofFn height width f).covering columns rows (some (ofFn height width s))).map
        (fun whole => whole.cut columns rows) =
      .ok (ofFn rows columns (continued height width f s)) := by
  have cutting : ∀ h w : Nat, rows ≤ h → columns ≤ w → ∀ whole : Nat → Nat → Rat,
      (ofFn h w whole).cut columns rows = ofFn rows columns whole := by
    intro h w rows_le columns_le whole
    rw [cut, height_ofFn, width_ofFn, Nat.min_eq_left rows_le, Nat.min_eq_left columns_le]
    split
    · rename_i same
      rw [same.1, same.2]
    · rw [crop, height_ofFn, width_ofFn, Nat.min_eq_left rows_le, Nat.min_eq_left columns_le]
      exact ofFn_congr fun y row x column => get_ofFn whole _ (by omega) (by omega)
  rw [covering, height_ofFn, width_ofFn]
  split
  · have inside : ∀ y < rows, ∀ x < columns, f y x = continued height width f s y x := by
      intro y row x column
      rw [continued_inside (by omega) (by omega)]
    rw [← ofFn_congr inside]
    exact congrArg Except.ok (cutting _ _ (by omega) (by omega) f)
  · rw [extend_ofFn tall wide f across down]
    exact congrArg Except.ok (cutting _ _ (by omega) (by omega) _)

theorem covering_none (g : Grid Rat) (columns rows : Nat) :
    g.covering columns rows none = g.covering columns rows (some g) := by
  rw [covering, covering, extend_none]

end Grid

namespace Field

variable (f : Field Rat) {factor : Nat}

theorem surface_straight (positive : 0 < factor) (multiplier : Rat) (y : Nat) :
    Axis.Straight (Axis.extent f.columns factor) fun x => multiplier * f.surface factor y x := by
  simp only [surface_eq_reading_columns]
  exact (Axis.reading_straight positive f.columns_pos _).mul multiplier

theorem surface_straight_down (positive : 0 < factor) (multiplier : Rat) (x : Nat) :
    Axis.Straight (Axis.extent f.rows factor) fun y => multiplier * f.surface factor y x := by
  simp only [surface_eq_reading]
  exact (Axis.reading_straight positive f.rows_pos _).mul multiplier

theorem expand_source (positive : 0 < factor) (width height : Nat) (multiplier : Rat)
    {s : Field Rat} (rows : s.rows = f.rows) (columns : s.columns = f.columns) :
    f.expand factor (some width) (some height) multiplier (some s) =
      .ok (Grid.ofFn height width (Grid.continued (Axis.extent f.rows factor)
        (Axis.extent f.columns factor) (fun y x => multiplier * f.surface factor y x)
        fun y x => multiplier * s.surface factor y x)) := by
  have across := s.surface_straight positive multiplier
  have down := s.surface_straight_down positive multiplier
  rw [rows] at down
  rw [columns] at across
  rw [expand_eq f (by omega) width height multiplier
    (fun t given => by cases given; exact ⟨rows, columns⟩), Int.toNat_natCast, Option.map_some,
    interpolated_eq f positive, interpolated_eq s positive, rows, columns]
  exact Grid.covering_ofFn (Nat.succ_pos _) (Nat.succ_pos _) _ across down width height

theorem expand_alone (positive : 0 < factor) (width height : Nat) (multiplier : Rat) :
    f.expand factor (some width) (some height) multiplier none =
      .ok (Grid.ofFn height width fun y x => multiplier * f.surface factor y x) := by
  have self : f.expand factor (some width) (some height) multiplier none =
      f.expand factor (some width) (some height) multiplier (some f) := by
    rw [expand_eq f (by omega) width height multiplier (fun t given => by cases given),
      expand_eq f (by omega) width height multiplier
        (fun t given => by cases given; exact ⟨rfl, rfl⟩), Option.map_none, Option.map_some,
      Grid.covering_none]
  rw [self, expand_source f positive width height multiplier rfl rfl, Grid.continued_self]

theorem expand_default (positive : 0 < factor) (width height : Option Nat) (multiplier : Rat)
    (slope : Option (Field Rat)) :
    f.expand factor (width.map Nat.cast) (height.map Nat.cast) multiplier slope =
      f.expand factor (some (width.getD (Axis.extent f.columns factor) : Nat))
        (some (height.getD (Axis.extent f.rows factor) : Nat)) multiplier slope := by
  have size : ∀ (target : Option Nat) (n : Nat),
      (target.map (Nat.cast : Nat → Int)).getD n = (target.getD n : Nat) := by
    intro target n
    cases target <;> rfl
  simp only [expand, Int.toNat_natCast, interpolated_eq f positive, Grid.height_ofFn,
    Grid.width_ofFn, size, Option.getD_some]

def transpose : Field Rat :=
  { f with
    samples := f.samples.transpose
    rows_pos := f.columns_pos
    columns_pos := f.rows_pos }

theorem surface_transpose (y x : Nat) : f.transpose.surface factor x y = f.surface factor y x := by
  have columns : ∀ j, f.transpose.sample j = fun i => f.sample i j :=
    fun j => funext fun i => f.samples.value_transpose i j
  rw [surface_eq_reading, surface_eq_reading_columns]
  simp only [columns]
  rfl

theorem surface_biaffine (positive : 0 < factor) (rows : 2 ≤ f.rows) (columns : 2 ≤ f.columns)
    {a b c d : Rat} (sampled : ∀ i < f.rows, ∀ j < f.columns, f.sample i j =
      a + b * (factor * j : Nat) + c * (factor * i : Nat) + d * (factor * j : Nat) *
        (factor * i : Nat)) (y x : Nat) :
    f.surface factor y x = a + b * x + c * y + d * x * y := by
  have row : ∀ i < f.rows, Axis.reading f.columns factor (f.sample i) x =
      (a + b * x) + (c + d * x) * (factor * i : Nat) := by
    intro i inside
    have affine : ∀ j < f.columns, f.sample i j =
        (a + c * (factor * i : Nat)) + (b + d * (factor * i : Nat)) * (factor * j : Nat) := by
      intro j column
      rw [sampled i inside j column]
      ring
    rw [Axis.reading_affine positive columns affine]
    ring
  rw [surface_eq_reading, Axis.reading_affine positive rows row]
  ring

/-- The closed form of a field at full resolution. Of the size asked for, it shows at every pixel
the bilinear patch of the pixel's cell, also past the last samples. So it agrees with the samples,
goes with transposing the grid, and shows every function that is affine along both axes as it is. -/
theorem expand_eq_surface (positive : 0 < factor) (multiplier : Rat) (width height : Option Nat) :
    ∃ whole : Grid Rat,
      f.expand factor (width.map Nat.cast) (height.map Nat.cast) multiplier none = .ok whole ∧
      whole.height = height.getD ((f.rows - 1) * factor + 1) ∧
      whole.width = width.getD ((f.columns - 1) * factor + 1) ∧
      (∀ y < whole.height, ∀ x < whole.width,
        whole.value y x = multiplier * f.surface factor y x) ∧
      (∀ i < f.rows, ∀ j < f.columns, factor * i < whole.height → factor * j < whole.width →
        whole.value (factor * i) (factor * j) = multiplier * f.sample i j) ∧
      f.transpose.expand factor (height.map Nat.cast) (width.map Nat.cast) multiplier none =
        .ok whole.transpose ∧
      (multiplier = 1 → 2 ≤ f.rows → 2 ≤ f.columns → ∀ a b c d : Rat,
        (∀ i < f.rows, ∀ j < f.columns, f.sample i j =
          a + b * (factor * j : Nat) + c * (factor * i : Nat) +
            d * (factor * j : Nat) * (factor * i : Nat)) →
        ∀ y < whole.height, ∀ x < whole.width,
          whole.value y x = a + b * x + c * y + d * x * y) := by
  have shown : ∀ {rows columns y x : Nat}, y < rows → x < columns →
      (Grid.ofFn rows columns fun y x => multiplier * f.surface factor y x).value y x =
        multiplier * f.surface factor y x := fun row column => Grid.value_ofFn _ row column
  refine ⟨_, ?_, rfl, rfl, fun y row x column => shown row column, ?_, ?_, ?_⟩
  · rw [f.expand_default positive, f.expand_alone positive]
    rfl
  · intro i row j column below beside
    refine (shown below beside).trans ?_
    rw [f.surface_sample positive row column]
  · rw [f.transpose.expand_default positive, f.transpose.expand_alone positive,
      Grid.transpose_ofFn]
    simp only [surface_transpose]
    rfl
  · intro one rows columns a b c d sampled y row x column
    refine (shown row column).trans ?_
    rw [f.surface_biaffine positive rows columns sampled, one, one_mul]

def slanted (a b c d : Rat) : Field Rat where
  direction := .horizontal
  samples := Grid.ofFn 2 3 fun i j => a + b * (2 * j : Nat) + c * (2 * i : Nat) +
    d * (2 * j : Nat) * (2 * i : Nat)
  stride := 2
  rows_pos := Nat.two_pos
  columns_pos := Nat.succ_pos 2
  stride_pos := Nat.two_pos

theorem sample_slanted (a b c d : Rat) : ∀ i < 2, ∀ j < 3, (slanted a b c d).sample i j =
    a + b * (2 * j : Nat) + c * (2 * i : Nat) + d * (2 * j : Nat) * (2 * i : Nat) :=
  fun _ row _ column => Grid.value_ofFn _ row column

theorem expand_slanted_surface : 0 < 2 ∧ ∃ whole : Grid Rat,
    (slanted 1 1 (-1) (1 / 2)).expand (2 : Nat) (some (7 : Nat)) (some (2 : Nat)) 1 none =
      .ok whole ∧ whole.height = 2 ∧ whole.width = 7 ∧ whole.value 0 4 = 5 ∧
      whole.value 1 6 = 9 := by
  obtain ⟨whole, expanded, tall, wide, -, samples, -, bilinear⟩ :=
    (slanted 1 1 (-1) (1 / 2)).expand_eq_surface Nat.two_pos 1 (some 7) (some 2)
  have all := sample_slanted 1 1 (-1) (1 / 2)
  refine ⟨Nat.two_pos, whole, expanded, tall, wide, ?_, ?_⟩
  · refine (samples 0 Nat.two_pos 2 (by decide) (by rw [tall]; decide) (by rw [wide]; decide)).trans
      ?_
    rw [all 0 Nat.two_pos 2 (by decide)]
    norm_num
  · refine (bilinear rfl le_rfl (by decide) 1 1 (-1) (1 / 2) all 1 (by rw [tall]; decide) 6
      (by rw [wide]; decide)).trans ?_
    norm_num

theorem expand_of_le (positive : 0 < factor) {width height : Nat}
    (wide : width ≤ Axis.extent f.columns factor) (tall : height ≤ Axis.extent f.rows factor)
    (multiplier : Rat) (slope : Option (Field Rat)) :
    f.expand factor (some width) (some height) multiplier slope =
      f.expand factor (some width) (some height) multiplier none := by
  have small : (width : Int) - (Axis.extent f.columns factor : Nat) ≤ 0 ∧
      (height : Int) - (Axis.extent f.rows factor : Nat) ≤ 0 := ⟨by omega, by omega⟩
  simp only [expand, Int.toNat_natCast, interpolated_eq f positive, Grid.height_ofFn,
    Grid.width_ofFn, Option.getD_some, if_pos small]

/-- Something is to be added, and a source does not have the shape of the field. -/
def Mismatch (s : Field Rat) (factor width height : Nat) : Prop :=
  (Axis.extent f.columns factor < width ∨ Axis.extent f.rows factor < height) ∧
    ¬ (s.rows = f.rows ∧ s.columns = f.columns)

variable {f} {s : Field Rat} {width height : Nat}

theorem Mismatch.expand (mismatch : f.Mismatch s factor width height) (positive : 0 < factor)
    (multiplier : Rat) : f.expand factor (some width) (some height) multiplier (some s) =
      .error (.argument .slopeGrid) := by
  have large := mismatch.1
  have grows : ¬ ((width : Int) - (Axis.extent f.columns factor : Nat) ≤ 0 ∧
      (height : Int) - (Axis.extent f.rows factor : Nat) ≤ 0) := by omega
  have differs : Axis.extent s.rows factor ≠ Axis.extent f.rows factor ∨
      Axis.extent s.columns factor ≠ Axis.extent f.columns factor := by
    by_contra same
    have pair := not_or.mp same
    exact mismatch.2 ⟨Axis.extent_injective positive s.rows_pos f.rows_pos (not_not.mp pair.1),
      Axis.extent_injective positive s.columns_pos f.columns_pos (not_not.mp pair.2)⟩
  have enough : ¬ (factor : Int) < 1 := by omega
  simp only [Field.expand, Int.toNat_natCast, interpolated_eq _ positive, Grid.height_ofFn,
    Grid.width_ofFn, Option.getD_some, if_neg grows, if_pos differs, if_neg enough]
  rfl

theorem expand_of_not_mismatch (free : ¬ f.Mismatch s factor width height) (positive : 0 < factor)
    (multiplier : Rat) : f.expand factor (some width) (some height) multiplier (some s) =
      .ok (Grid.ofFn height width (Grid.continued (Axis.extent f.rows factor)
        (Axis.extent f.columns factor) (fun y x => multiplier * f.surface factor y x)
        fun y x => multiplier * s.surface factor y x)) := by
  by_cases same : s.rows = f.rows ∧ s.columns = f.columns
  · exact f.expand_source positive width height multiplier same.1 same.2
  · rw [Mismatch, not_and_not_right] at free
    have wide : width ≤ Axis.extent f.columns factor :=
      Nat.le_of_not_lt fun large => same (free (.inl large))
    have tall : height ≤ Axis.extent f.rows factor :=
      Nat.le_of_not_lt fun large => same (free (.inr large))
    rw [f.expand_of_le positive wide tall, f.expand_alone positive]
    refine congrArg Except.ok (Grid.ofFn_congr fun y row x column => ?_)
    rw [Grid.continued_inside (by omega) (by omega)]

variable (f s width height)

/-- Expansion with a source of slopes. It is refused exactly when something would be added and the
grids differ in shape. Otherwise a pixel shows the field at the nearest pixel inside the samples,
and what the source rises from there; so inside the samples the source does not matter, and a field
is its own source. -/
theorem expand_follows_source (positive : 0 < factor) (multiplier : Rat) :
    (f.expand factor (some width) (some height) multiplier (some s) =
      .error (.argument .slopeGrid) ↔ f.Mismatch s factor width height) ∧
    (¬ f.Mismatch s factor width height →
      ∃ whole own other : Grid Rat,
        f.expand factor (some width) (some height) multiplier (some s) = .ok whole ∧
        f.expand factor (some width) (some height) multiplier none = .ok own ∧
        s.expand factor (some width) (some height) multiplier none = .ok other ∧
        whole.height = height ∧ whole.width = width ∧
        (∀ y < height, ∀ x < width,
          let inY := min y (Axis.extent f.rows factor - 1)
          let inX := min x (Axis.extent f.columns factor - 1)
          whole.value y x = own.value inY inX + other.value y x - other.value inY inX) ∧
        (∀ y < height, ∀ x < width, y < Axis.extent f.rows factor →
          x < Axis.extent f.columns factor → whole.value y x = own.value y x)) ∧
    f.expand factor (some width) (some height) multiplier (some f) =
      f.expand factor (some width) (some height) multiplier none := by
  have own := f.expand_alone positive width height multiplier
  refine ⟨⟨?_, fun mismatch => mismatch.expand positive multiplier⟩, ?_, ?_⟩
  · intro refused
    by_contra free
    rw [expand_of_not_mismatch free positive] at refused
    cases refused
  · intro free
    refine ⟨_, _, _, expand_of_not_mismatch free positive multiplier, own,
      s.expand_alone positive width height multiplier, rfl, rfl, ?_, ?_⟩
    · intro y row x column inY inX
      rw [Grid.value_ofFn _ row column, Grid.value_ofFn _ row column,
        Grid.value_ofFn _ (by omega) (by omega), Grid.value_ofFn _ (by omega) (by omega),
        add_sub_assoc]
      rfl
    · intro y row x column inside beside
      rw [Grid.value_ofFn _ row column, Grid.value_ofFn _ row column,
        Grid.continued_inside inside beside]
  · rw [f.expand_source positive width height multiplier rfl rfl, own, Grid.continued_self]

/-- Beyond its samples a slanted field follows a level one, and there it is no longer the function
that was sampled. The transposed field has another shape. -/
theorem expand_slanted_source : 0 < 2 ∧
    (slanted 1 1 (-1) (1 / 2)).expand (2 : Nat) (some (7 : Nat)) (some (2 : Nat)) 1
      (some (slanted 1 1 (-1) (1 / 2)).transpose) = .error (.argument .slopeGrid) ∧
    ∃ whole own other : Grid Rat,
      (slanted 1 1 (-1) (1 / 2)).expand (2 : Nat) (some (7 : Nat)) (some (2 : Nat)) 1
        (some (slanted 3 0 0 0)) = .ok whole ∧
      (slanted 1 1 (-1) (1 / 2)).expand (2 : Nat) (some (7 : Nat)) (some (2 : Nat)) 1 none =
        .ok own ∧
      (slanted 3 0 0 0).expand (2 : Nat) (some (7 : Nat)) (some (2 : Nat)) 1 none = .ok other ∧
      whole.value 1 6 = own.value 1 4 + other.value 1 6 - other.value 1 4 ∧
      whole.value 1 4 = own.value 1 4 := by
  have refused := (slanted 1 1 (-1) (1 / 2)).expand_follows_source
    (slanted 1 1 (-1) (1 / 2)).transpose 7 2 Nat.two_pos 1
  have level := (slanted 1 1 (-1) (1 / 2)).expand_follows_source (slanted 3 0 0 0) 7 2
    Nat.two_pos 1
  obtain ⟨whole, own, other, expanded, alone, source, -, -, rule, inside⟩ :=
    level.2.1 fun mismatch => mismatch.2 ⟨rfl, rfl⟩
  refine ⟨Nat.two_pos, refused.1.mpr ⟨.inl (by decide), fun same => ?_⟩, whole, own, other,
    expanded, alone, source, rule 1 (by decide) 6 (by decide),
    inside 1 (by decide) 4 (by decide) (by decide) (by decide)⟩
  exact absurd same.1 (by decide)

end Field

end PageFlattening
