import Mathlib
import PageFlattening.Proofs.Continuation
import PageFlattening.Proofs.EdgeFits

/-! Curved lines are made straight. Lines that are one parabola moved up and down are each fitted
exactly, so that they differ by their offsets only: in what they are read as, in the height that
they are flattened onto, and not at all in the displacements that this takes. The vertical field is
then the same in every row, and what is shown at the height of a flattened line comes from the
line. -/
namespace PageFlattening

/-! ### One line moved up and down -/

namespace Quadratic

def moved (q : Quadratic Rat) (b : Rat) : Quadratic Rat := { q with c0 := b + q.c0 }

theorem eval_moved (q : Quadratic Rat) (b x : Rat) : (q.moved b).eval x = b + q.eval x := by
  change (q.c2 * x + q.c1) * x + (b + q.c0) = b + ((q.c2 * x + q.c1) * x + q.c0)
  ring

theorem eval_const (c x : Rat) : (Quadratic.mk 0 0 c).eval x = c := by
  change ((0 : Rat) * x + 0) * x + c = c
  ring

end Quadratic

def SampledLine.moved (s : SampledLine Rat) (b : Rat) : SampledLine Rat :=
  ⟨s.heights.map (b + ·), b + s.middle, b + s.level⟩

theorem least?_map_add (b : Rat) (xs : List Rat) :
    least? (xs.map (b + ·)) = (least? xs).map (b + ·) := by
  rw [least?_eq_min?, least?_eq_min?]
  cases found : xs.min? with
  | none =>
      rw [List.min?_eq_none_iff] at found
      rw [found]
      rfl
  | some m =>
      obtain ⟨member, least⟩ := List.min?_eq_some_iff.mp found
      refine List.min?_eq_some_iff.mpr ⟨List.mem_map_of_mem member, fun y listed => ?_⟩
      obtain ⟨x, inXs, rfl⟩ := List.mem_map.mp listed
      exact add_le_add_right (least x inXs) b

namespace LineFit

theorem column_eq (stride x : Nat) : (column stride x : Rat) = (x * stride : Nat) := by
  change ((x : Int) : Rat) * ((stride : Int) : Rat) = _
  push_cast
  rfl

theorem heights_sampled (columns stride : Nat) (f : LineFit Rat) :
    (sampled columns stride f).heights =
      (List.range columns).map fun j => f.curve.eval (j * stride : Nat) := by
  simp only [sampled, List.map_map, Function.comp_def, column_eq]

theorem middle_sampled {columns : Nat} (wide : 0 < columns) (stride : Nat) (f : LineFit Rat) :
    (sampled columns stride f).middle = f.curve.eval (columns / 2 * stride : Nat) := by
  have inside : columns / 2 < columns := Nat.div_lt_self wide (by decide)
  change ((sampled columns stride f).heights).getD (columns / 2) (Scalar.ofInt 0) = _
  simp [heights_sampled, inside]

def between (f : LineFit Rat) (columns stride : Nat) : List Nat :=
  (List.range columns).filter fun j =>
    decide (f.left ≤ (j * stride : Nat)) && decide (((j * stride : Nat) : Rat) ≤ f.right)

theorem level_sampled {columns : Nat} (wide : 0 < columns) (stride : Nat) (f : LineFit Rat) :
    (sampled columns stride f).level =
      (least? ((f.between columns stride).map fun j => f.curve.eval (j * stride : Nat))).getD
        (f.curve.eval (columns / 2 * stride : Nat)) := by
  rw [← middle_sampled wide]
  simp only [sampled, List.map_map, List.zip_map', List.filter_map, Function.comp_def, column_eq]
  rfl

theorem sampled_moved {columns : Nat} (wide : 0 < columns) (stride : Nat) (q : Quadratic Rat)
    (left right b : Rat) : sampled columns stride ⟨q.moved b, left, right⟩ =
      (sampled columns stride ⟨q, left, right⟩).moved b := by
  have heights : (sampled columns stride ⟨q.moved b, left, right⟩).heights =
      (sampled columns stride ⟨q, left, right⟩).heights.map (b + ·) := by
    simp only [heights_sampled, List.map_map, Function.comp_def, Quadratic.eval_moved]
  have middle : (sampled columns stride ⟨q.moved b, left, right⟩).middle =
      b + (sampled columns stride ⟨q, left, right⟩).middle := by
    simp only [middle_sampled wide, Quadratic.eval_moved]
  have level : (sampled columns stride ⟨q.moved b, left, right⟩).level =
      b + (sampled columns stride ⟨q, left, right⟩).level := by
    simp only [level_sampled wide, Quadratic.eval_moved]
    rw [← Option.getD_map (b + ·), ← least?_map_add, List.map_map]
    rfl
  exact congr (congr (congrArg SampledLine.mk heights) middle) level

end LineFit

theorem LineFit.consistent_of_forall_eq {fits : List (LineFit Rat)} {c : Rat}
    (same : ∀ f ∈ fits, f.curvature = c) : consistent fits = fits := by
  refine List.filter_eq_self.mpr fun f member => decide_eq_true ?_
  have centre : median (fits.map curvature) = c := by
    refine median_of_forall_eq (List.ne_nil_of_mem (List.mem_map_of_mem member)) fun x listed => ?_
    obtain ⟨g, inFits, rfl⟩ := List.mem_map.mp listed
    exact same g inFits
  have tolerance : (0 : Rat) ≤ curvatureTolerance := by
    change (0 : Rat) ≤ ((1 : Int) : Rat) / ((100000000 : Int) : Rat)
    norm_num
  have zero : Scalar.abs (f.curvature - median (fits.map curvature)) = (0 : Rat) := by
    change (if f.curvature - median (fits.map curvature) < (0 : Rat) then _ else _) = (0 : Rat)
    rw [centre, same f member]
    simp
  rw [zero, band, scalarMax_eq]
  exact tolerance.trans (le_max_right _ _)

/-! ### Lines that are translates of one parabola -/

/-- Lines that are one parabola moved up and down: through the same places, at least three of them
from left to right, by at least three different offsets. -/
structure Translates (lines : List (TextLine Rat)) (q : Quadratic Rat) (places offsets : List Rat) :
    Prop where
  lines_eq : lines = offsets.map fun b => places.map fun x => (x, b + q.eval x)
  ascending : places.Pairwise (· < ·)
  enough : 3 ≤ places.length
  varied : Threefold offsets

def Within (places : List Rat) (columns stride j : Nat) : Prop :=
  j < columns ∧ (∃ a ∈ places, a ≤ (j * stride : Nat)) ∧
    ∃ c ∈ places, ((j * stride : Nat) : Rat) ≤ c

/-- The height that a parabola is flattened onto: the least in a sampled column between the places,
or that in the middle column if there is none between them. -/
structure FlatLevel (q : Quadratic Rat) (places : List Rat) (columns stride : Nat) (r : Rat) :
    Prop where
  attained : (∃ j, Within places columns stride j) →
    ∃ j, Within places columns stride j ∧ r = q.eval (j * stride : Nat)
  least : ∀ j, Within places columns stride j → r ≤ q.eval (j * stride : Nat)
  middle : (¬ ∃ j, Within places columns stride j) → r = q.eval (columns / 2 * stride : Nat)

def LineFit.through (q : Quadratic Rat) (places : List Rat) : LineFit Rat :=
  ⟨q, places.headD 0, places.getLastD 0⟩

section Places

variable {places : List Rat} (filled : places ≠ [])
include filled

theorem headD_mem : places.headD 0 ∈ places := by
  cases places with
  | nil => exact absurd rfl filled
  | cons first rest => exact List.mem_cons_self

theorem getLastD_eq : places.getLastD 0 = places.getLast filled := by
  rw [List.getLastD_eq_getLast?, List.getLast?_eq_getLast_of_ne_nil filled]
  rfl

theorem getLastD_mem : places.getLastD 0 ∈ places := by
  rw [getLastD_eq filled]
  exact List.getLast_mem filled

variable (ascending : places.Pairwise (· < ·))
include ascending

theorem headD_le : ∀ x ∈ places, places.headD 0 ≤ x := by
  intro x member
  cases places with
  | nil => exact absurd rfl filled
  | cons first rest =>
      obtain rfl | member := List.mem_cons.mp member
      · exact le_rfl
      · exact ((List.pairwise_cons.mp ascending).1 x member).le

theorem le_getLastD : ∀ x ∈ places, x ≤ places.getLastD 0 := by
  intro x member
  rw [getLastD_eq filled]
  rw [← List.dropLast_append_getLast filled] at ascending member
  obtain before | last := List.mem_append.mp member
  · exact ((List.pairwise_append.mp ascending).2.2 x before _ (List.mem_singleton.mpr rfl)).le
  · exact (List.mem_singleton.mp last).le

theorem mem_between_iff (q : Quadratic Rat) (columns stride j : Nat) :
    j ∈ (LineFit.through q places).between columns stride ↔ Within places columns stride j := by
  rw [LineFit.between, List.mem_filter, List.mem_range, Bool.and_eq_true, decide_eq_true_iff,
    decide_eq_true_iff]
  refine and_congr_right fun _ => and_congr ?_ ?_
  · refine ⟨fun low => ⟨_, headD_mem filled, low⟩, ?_⟩
    rintro ⟨a, member, low⟩
    exact (headD_le filled ascending a member).trans low
  · refine ⟨fun high => ⟨_, getLastD_mem filled, high⟩, ?_⟩
    rintro ⟨c, member, high⟩
    exact high.trans (le_getLastD filled ascending c member)

theorem flatLevel_sampled (q : Quadratic Rat) {columns : Nat} (wide : 0 < columns) (stride : Nat) :
    FlatLevel q places columns stride
      (LineFit.sampled columns stride (.through q places)).level := by
  have between := mem_between_iff filled ascending q columns stride
  rw [LineFit.level_sampled wide, least?_eq_min?]
  change FlatLevel q places columns stride
    ((((LineFit.through q places).between columns stride).map fun j =>
      q.eval (j * stride : Nat)).min?.getD (q.eval (columns / 2 * stride : Nat)))
  cases found : (((LineFit.through q places).between columns stride).map fun j =>
      q.eval (j * stride : Nat)).min? with
  | none =>
      rw [List.min?_eq_none_iff, List.map_eq_nil_iff] at found
      have nowhere : ∀ j, ¬ Within places columns stride j := by
        intro j inside
        have member := (between j).mpr inside
        rw [found] at member
        cases member
      refine ⟨?_, fun j inside => absurd inside (nowhere j), fun _ => rfl⟩
      rintro ⟨j, inside⟩
      exact absurd inside (nowhere j)
  | some m =>
      obtain ⟨member, least⟩ := List.min?_eq_some_iff.mp found
      obtain ⟨j, inside, rfl⟩ := List.mem_map.mp member
      refine ⟨fun _ => ⟨j, (between j).mp inside, rfl⟩, fun k inside' => ?_, fun nowhere => ?_⟩
      · exact least _ (List.mem_map_of_mem ((between k).mpr inside'))
      · exact absurd ⟨j, (between j).mp inside⟩ nowhere

end Places

namespace VerticalFit

theorem ofLines_of_alike {lines : List (TextLine Rat)} {fits : List (LineFit Rat)}
    (fitted : lines.mapM LineFit.ofLine = .ok fits) {c : Rat}
    (alike : ∀ f ∈ fits, f.curvature = c) (several : 3 ≤ fits.length) (columns stride : Nat) :
    ∃ fit, VerticalFit.ofLines lines columns stride = .ok (some fit) ∧
      fit.lines.Perm (fits.map (LineFit.sampled columns stride)) := by
  rw [VerticalFit.ofLines, fitted]
  dsimp only [bind, Except.bind]
  rw [LineFit.consistent_of_forall_eq alike]
  cases fits with
  | nil => exact absurd several (by decide)
  | cons f rest =>
      simp only [List.map_cons, least?, greatest?, if_neg (Nat.not_lt.mpr several), toMicro,
        scaled_eq]
      exact ⟨_, rfl, List.mergeSort_perm _ _⟩

end VerticalFit

namespace Field

theorem columnFits_const {heights : List Rat} (varied : Threefold heights) (columns : Nat)
    (c : Nat → Rat) :
    columnFits heights (Grid.ofFn heights.length columns fun _ x => c x) =
      .ok ((List.range columns).map fun x => ⟨0, 0, c x⟩) := by
  rw [columnFits, mapM_eq_ok_iff, List.forall₂_map_right_iff, Grid.width_ofFn, Grid.height_ofFn,
    List.forall₂_same]
  intro x column
  rw [List.mem_range] at column
  have values : ((List.range heights.length).map fun y =>
      (Grid.ofFn heights.length columns fun _ x => c x).get (Scalar.ofInt 0) y x) =
        heights.map fun _ => c x := by
    refine List.ext_getElem (by simp) fun y inside _ => ?_
    rw [List.length_map, List.length_range] at inside
    simp [Grid.get_ofFn, inside, column]
  have points : heights.zip (heights.map fun _ => c x) = heights.map fun y => (y, c x) := by
    nth_rewrite 1 [← List.map_id heights]
    exact List.zip_map'
  rw [values, points]
  refine (varied.varied fun _ => c x).fitParabola fun p member => ?_
  obtain ⟨y, -, rfl⟩ := List.mem_map.mp member
  exact (Quadratic.eval_const (c x) y).symm

theorem readColumns_const (columns rows : Nat) (c : Nat → Rat) (stride : Rat) :
    readColumns ((List.range columns).map fun x => (⟨0, 0, c x⟩ : Quadratic Rat)) rows stride =
      Grid.ofFn rows columns fun _ x => c x := by
  simp only [readColumns, List.size_toArray, List.length_map, List.length_range]
  refine Grid.ofFn_congr fun y _ x column => ?_
  have entry : (((List.range columns).map fun x =>
      (⟨0, 0, c x⟩ : Quadratic Rat)).toArray)[x]? = some ⟨0, 0, c x⟩ := by
    simp [column]
  simp only [entry, Quadratic.eval_const]

end Field

namespace VerticalFit

theorem displacements_of_moved {v : VerticalFit Rat} {s : SampledLine Rat} {columns : Nat}
    (moved : ∀ l ∈ v.lines, ∃ b, l = s.moved b) (length : s.heights.length = columns) :
    v.displacements columns =
      Grid.ofFn v.lines.length columns fun _ x => s.level - s.heights.getD x 0 := by
  simp only [displacements, List.size_toArray, List.length_map]
  refine Grid.ofFn_congr fun i row x column => ?_
  have entry : ((v.lines.map fun l => (l.level, l.heights.toArray)).toArray)[i]? =
      some (v.lines[i].level, v.lines[i].heights.toArray) := by
    simp [row]
  have inside : x < s.heights.length := by omega
  obtain ⟨b, same⟩ := moved _ (List.getElem_mem row)
  simp only [entry]
  rw [same]
  change b + s.level - ((s.heights.map (b + ·)).toArray.getD x 0 : Rat) = _
  simp [inside]

theorem field_of_moved {v : VerticalFit Rat} {s : SampledLine Rat} {columns rows stride : Nat}
    (moved : ∀ l ∈ v.lines, ∃ b, l = s.moved b) (length : s.heights.length = columns)
    (varied : Threefold v.levels) (wide : 0 < columns) (tall : 0 < rows) (positive : 0 < stride) :
    v.field columns rows stride = .ok
      ⟨.vertical, Grid.ofFn rows columns fun _ x => s.level - s.heights.getD x 0, stride, tall,
        wide, positive⟩ := by
  have levels : v.levels.length = v.lines.length := List.length_map _
  have several := varied.length
  rw [levels] at several
  -- Down a column all lines ask for the same displacement, so the fit there is a constant.
  have fits := Field.columnFits_const varied columns fun x => s.level - s.heights.getD x 0
  rw [levels, ← displacements_of_moved moved length] at fits
  have fitted : Field.lineFits v.levels (.ofGrid (v.displacements columns)) =
      .ok ((List.range columns).map fun x => ⟨0, 0, s.level - s.heights.getD x 0⟩) := by
    have height : (v.displacements columns).height = v.lines.length := by
      rw [displacements_of_moved moved length, Grid.height_ofFn]
    rw [Field.lineFits, Shaped.grid?_ofGrid]
    simp only [height, levels, ne_eq, not_true, if_false, if_neg (Nat.not_lt.mpr several)]
    exact fits
  rw [field, Field.ofLines, fitted]
  change Field.make (.ok .vertical) (.ofGrid (Field.readColumns _ (rows : Int).toNat _)) _ = _
  rw [Field.readColumns_const, Int.toNat_natCast]
  exact Field.make_int .vertical tall wide positive

end VerticalFit

namespace Translates

variable {lines : List (TextLine Rat)} {q : Quadratic Rat} {places offsets : List Rat}

theorem filled (h : Translates lines q places offsets) : places ≠ [] :=
  List.ne_nil_of_length_pos (Nat.lt_of_lt_of_le (by decide) h.enough)

def line (q : Quadratic Rat) (places : List Rat) (b : Rat) : TextLine Rat :=
  places.map fun x => (x, b + q.eval x)

theorem first_line (h : Translates lines q places offsets) (b : Rat) :
    TextLine.first (line q places b) = (places.headD 0, b + q.eval (places.headD 0)) := by
  have filled := h.filled
  cases places with
  | nil => exact absurd rfl filled
  | cons first rest => rfl

theorem last_line (h : Translates lines q places offsets) (b : Rat) :
    TextLine.last (line q places b) = (places.getLastD 0, b + q.eval (places.getLastD 0)) := by
  rw [getLastD_eq h.filled, TextLine.last, List.getLastD_eq_getLast?, line, List.getLast?_map,
    List.getLast?_eq_getLast_of_ne_nil h.filled]
  rfl

theorem ofLine_line (h : Translates lines q places offsets) (b : Rat) :
    LineFit.ofLine (line q places b) = .ok (.through (q.moved b) places) := by
  have points : (line q places b).map (fun p => (p.1, p.2)) = line q places b := List.map_id _
  have fitted : fitQuadratic ((line q places b).map (·.1)) ((line q places b).map (·.2)) =
      .ok (q.moved b) := by
    rw [fitQuadratic_map (by simpa [line] using h.enough), points]
    refine ((Threefold.of_ascending h.ascending h.enough).varied _).fitParabola
      fun p member => ?_
    obtain ⟨x, -, rfl⟩ := List.mem_map.mp member
    exact (q.eval_moved b x).symm
  rw [LineFit.ofLine, fitted, h.first_line, h.last_line]
  rfl

theorem ofLines_eq (h : Translates lines q places offsets) {columns : Nat} (wide : 0 < columns)
    (stride : Nat) : ∃ fit, VerticalFit.ofLines lines columns stride = .ok (some fit) ∧
      fit.lines.Perm (offsets.map
        (LineFit.sampled columns stride (.through q places)).moved) := by
  have fitted : lines.mapM LineFit.ofLine =
      .ok (offsets.map fun b => .through (q.moved b) places) := by
    rw [mapM_eq_ok_iff, h.lines_eq, List.forall₂_map_left_iff, List.forall₂_map_right_iff,
      List.forall₂_same]
    exact fun b _ => h.ofLine_line b
  have alike : ∀ f ∈ offsets.map fun b => LineFit.through (q.moved b) places,
      f.curvature = q.c2 := by
    intro f member
    obtain ⟨b, -, rfl⟩ := List.mem_map.mp member
    rfl
  have read : (offsets.map fun b => LineFit.through (q.moved b) places).map
      (LineFit.sampled columns stride) =
        offsets.map (LineFit.sampled columns stride (.through q places)).moved := by
    rw [List.map_map]
    exact List.map_congr_left fun b _ => LineFit.sampled_moved wide stride q _ _ b
  rw [← read]
  exact VerticalFit.ofLines_of_alike fitted alike
    (by rw [List.length_map]; exact h.varied.length) columns stride

theorem ends_apart (h : Translates lines q places offsets) {side : TextLine Rat → Point Rat}
    {x : Rat} (ends : ∀ b, side (line q places b) = (x, b + q.eval x)) :
    EdgeFit.Apart (TextLine.topToBottom (lines.map side)) := by
  have listed : ∀ b ∈ offsets, (x, b + q.eval x) ∈ TextLine.topToBottom (lines.map side) := by
    intro b member
    rw [TextLine.topToBottom, List.mem_mergeSort, ← ends b, h.lines_eq]
    exact List.mem_map_of_mem (List.mem_map_of_mem member)
  obtain ⟨a, inA, b, inB, -, -, different, -⟩ := h.varied
  exact ⟨_, listed a inA, _, listed b inB, fun same => different (add_right_cancel same)⟩

theorem field_eq (h : Translates lines q places offsets) {columns rows stride : Nat}
    (wide : 0 < columns) (tall : 0 < rows) (positive : 0 < stride) {fit : VerticalFit Rat}
    (read : fit.lines.Perm (offsets.map
      (LineFit.sampled columns stride (.through q places)).moved)) :
    ∃ field, fit.field columns rows stride = .ok field ∧ field.direction = .vertical ∧
      field.stride = stride ∧ field.rows = rows ∧ field.columns = columns ∧
      ∀ i < rows, ∀ j < columns, field.sample i j =
        (LineFit.sampled columns stride (.through q places)).level -
          q.eval (j * stride : Nat) := by
  have heights := LineFit.heights_sampled columns stride (.through q places)
  have length : (LineFit.sampled columns stride (.through q places)).heights.length = columns := by
    rw [heights, List.length_map, List.length_range]
  have moved : ∀ l ∈ fit.lines, ∃ b,
      l = (LineFit.sampled columns stride (.through q places)).moved b := by
    intro l member
    obtain ⟨b, -, rfl⟩ := List.mem_map.mp (read.subset member)
    exact ⟨b, rfl⟩
  have levels : offsets.map (· + (LineFit.sampled columns stride (.through q places)).level) ⊆
      fit.levels := by
    intro level listed
    obtain ⟨b, member, rfl⟩ := List.mem_map.mp listed
    exact List.mem_map_of_mem (read.symm.subset (List.mem_map_of_mem member))
  have field := VerticalFit.field_of_moved moved length
    ((h.varied.map (add_left_injective _)).subset levels) wide tall positive
  refine ⟨_, field, rfl, rfl, rfl, rfl, fun i row j column => ?_⟩
  refine (Grid.get_ofFn _ _ row column).trans ?_
  rw [heights]
  simp [column, LineFit.through]

end Translates

/-! ### The page as a whole -/

theorem sampleCount_pos {length stride : Nat} (filled : 0 < length) (positive : 0 < stride) :
    0 < (sampleCount length stride).toNat := by
  have enough : (1 : Int) ≤ ((length : Int) + 2 * stride - 2).fdiv stride := by
    rw [Int.fdiv_eq_ediv_of_nonneg _ (by omega), Int.le_ediv_iff_mul_le (by omega)]
    omega
  rw [sampleCount]
  omega

theorem Field.surface_of_alike (f : Field Rat) {factor : Nat} (positive : 0 < factor) {j : Nat}
    (column : j < f.columns) {c : Rat} (alike : ∀ i < f.rows, f.sample i j = c) (y : Nat) :
    f.surface factor y (factor * j) = c := by
  have rows : ∀ i < f.rows, Axis.reading f.columns factor (f.sample i) (factor * j) = c := by
    intro i inside
    rw [Axis.reading_sample positive _ column, alike i inside]
  rw [Field.surface_eq_reading]
  refine (Axis.reading_congr f.rows_pos rows y).trans ?_
  rw [Axis.reading]
  ring

theorem Page.pixels_of_check {ink : Grid Bool} (whole : (Page.bit ink).check = .ok ()) :
    0 < ink.height ∧ 0 < ink.width := by
  rw [check] at whole
  split at whole
  · cases whole
  · rename_i pixels
    change ¬ (ink.height = 0 ∨ ink.width = 0) at pixels
    omega

def Page.sourcePoint (v : Grid Rat) (y x : Nat) : Rat × Rat := ((x : Rat), (y : Rat) - v.value y x)

namespace BuildReport

/-- A report on a page whose lines are one parabola moved up and down: the vertical field has been
built and is to be checked, every line was used, and each sampled column is moved by its distance
from the level of the parabola. -/
structure Straightens (report : BuildReport Rat) (b : BuildSettings) (ink : Grid Bool)
    (lines : List (TextLine Rat)) (q : Quadratic Rat) (places : List Rat) (field : Field Rat)
    (r : Rat) : Prop where
  built : report.model.vertical = .held .pending field
  kept : ∃ fit, report.vertical = some fit ∧ fit.lines.length = lines.length
  rows : field.rows = (sampleCount ink.height b.stride).toNat
  columns : field.columns = (sampleCount ink.width b.stride).toNat
  level : FlatLevel q places field.columns b.stride r
  samples : ∀ i < field.rows, ∀ j < field.columns,
    field.sample i j = r - q.eval (j * b.stride : Nat)

theorem ofLines_straightens (b : BuildSettings) {ink : Grid Bool} (page : Nat) {least : Value Rat}
    {lines : List (TextLine Rat)} {q : Quadratic Rat} {places offsets : List Rat}
    (whole : (Page.bit ink).check = .ok ()) (h : Translates lines q places offsets)
    (enough : least.greaterThan lines.length = .ok false) {coverage : TextLine.Coverage}
    (covers : TextLine.coverage lines ink.height = .ok coverage)
    (covered : coverage.enough = true) :
    ∃ report field r, ofLines b ink page least lines = .ok report ∧
      report.Straightens b ink lines q places field r := by
  have positive : 0 < b.stride := Nat.lt_of_lt_of_le (by decide) b.stride_ge
  have pixels := Page.pixels_of_check whole
  have long : lines.filter (fun l => decide (3 ≤ l.length)) = lines := by
    refine List.filter_eq_self.mpr fun l member => decide_eq_true ?_
    rw [h.lines_eq] at member
    obtain ⟨offset, -, rfl⟩ := List.mem_map.mp member
    rw [List.length_map]
    exact h.enough
  have columns : (start b ink page lines.length : PageModel Rat).columns =
      sampleCount ink.width b.stride :=
    if_neg fun zero => pixels.2.ne' (Int.natCast_eq_zero.mp zero)
  have rows : (start b ink page lines.length : PageModel Rat).rows =
      sampleCount ink.height b.stride :=
    if_neg fun zero => pixels.1.ne' (Int.natCast_eq_zero.mp zero)
  have wide := sampleCount_pos pixels.2 positive
  have tall := sampleCount_pos pixels.1 positive
  obtain ⟨fit, fitted, read⟩ := h.ofLines_eq wide b.stride
  obtain ⟨field, made, direction, stride, height, width, samples⟩ :=
    h.field_eq wide tall positive read
  have redirect : ((start b ink page lines.length : PageModel Rat).withLines fit).redirect = none :=
    rfl
  have set := (PageModel.setField_result redirect field).trans
    (if_pos (congrArg Nat.cast stride))
  rw [direction] at set
  -- Whatever comes of the edges, they leave the vertical field as it is.
  obtain ⟨report, added, vertical, used⟩ := addEdges_eq_ok
    (m := ((start b ink page lines.length : PageModel Rat).withLines fit).setTrack .vertical
      (.held .pending field)) rfl rfl wide tall positive (h.ends_apart h.first_line)
    (h.ends_apart h.last_line) fit
  refine ⟨report, field, (LineFit.sampled (sampleCount ink.width b.stride).toNat b.stride
    (.through q places)).level, ?_, vertical, ⟨fit, used, ?_⟩, height, width, ?_, ?_⟩
  · simp only [ofLines_eq, long, enough, covers, covered, columns, rows, fitted, made, set, bind,
      Except.bind, Bool.false_eq_true, if_false, Bool.not_true]
    exact added
  · rw [read.length_eq, h.lines_eq, List.length_map, List.length_map]
  · rw [width]
    exact flatLevel_sampled h.filled h.ascending q wide b.stride
  · rw [height, width]
    exact samples

theorem Straightens.fullSize {report : BuildReport Rat} {b : BuildSettings} {ink : Grid Bool}
    {lines : List (TextLine Rat)} {q : Quadratic Rat} {places : List Rat} {field : Field Rat}
    {r : Rat} (straight : report.Straightens b ink lines q places field r) {page : Nat}
    (drawn : report.model.Drawn b page) (full : b.reduction = 1) (target : Page) :
    ∃ v, report.model.fullSize target field none = .ok v ∧
      ∀ j < field.columns, j * b.stride < target.width → ∀ y < target.height,
        v.value y (j * b.stride) = r - q.eval (j * b.stride : Nat) := by
  have positive : 0 < b.stride := Nat.lt_of_lt_of_le (by decide) b.stride_ge
  have factor : report.model.stride * report.model.reduction = (b.stride : Nat) := by
    rw [drawn.stride, drawn.reduction, full, Nat.cast_one, mul_one]
  have multiplier : (Scalar.ofInt report.model.reduction : Rat) = 1 := by
    rw [drawn.reduction, full]
    rfl
  have expanded := field.expand_alone positive target.width target.height 1
  rw [← factor, ← multiplier] at expanded
  refine ⟨_, expanded, fun j column beside y row => ?_⟩
  rw [Grid.value_ofFn _ row beside, multiplier, one_mul, mul_comm j b.stride]
  refine field.surface_of_alike positive column (fun i inside => ?_) y
  rw [straight.samples i inside j column, mul_comm]

/-- Building makes curved lines straight. On a page whose lines are one parabola moved up and down
the vertical field is built from all of them, and moves each sampled column by its distance from the
level of the parabola. So, on a page that is not reduced, what is shown in a sampled column at the
height that a line is flattened onto is taken from the line. -/
theorem build_straightens (b : BuildSettings) (detector : Grid Bool → List (TextLine Rat))
    (source : Source) (page minLines : Value Rat) {ink : Grid Bool} {number : Nat}
    {least : Value Rat} {coverage : TextLine.Coverage} {q : Quadratic Rat}
    {places offsets : List Rat} (loaded : source.loadBit = .ok ink)
    (whole : (Page.bit ink).check = .ok ()) (numbered : checkPage page = .ok number)
    (accepted : checkMinLines b minLines = .ok least)
    (curved : Translates (detector ink) q places offsets)
    (enough : least.greaterThan (detector ink).length = .ok false)
    (covers : TextLine.coverage (detector ink) ink.height = .ok coverage)
    (covered : coverage.enough = true) :
    ∃ report field r, build b detector source page minLines = .ok report ∧
      report.model.vertical.status = .built ∧
      report.Straightens b ink (detector ink) q places field r ∧
      (b.reduction = 1 → ∀ target : Page, ∃ v, report.model.fullSize target field none = .ok v ∧
        target.moveVertically v = target.remap (Page.sourcePoint v) ∧
        ∀ j < field.columns, j * b.stride < target.width → ∀ y < target.height, ∀ offset ∈ offsets,
          offset + r - v.value y (j * b.stride) = offset + q.eval (j * b.stride : Nat) ∧
          ((y : Rat) = offset + r → Page.sourcePoint v y (j * b.stride) =
            (((j * b.stride : Nat) : Rat), offset + q.eval (j * b.stride : Nat)))) := by
  obtain ⟨report, field, r, made, straight⟩ :=
    ofLines_straightens b number whole curved enough covers covered
  refine ⟨report, field, r, ?_, ?_, straight, fun full target => ?_⟩
  · rw [build, loaded, numbered, accepted]
    exact made
  · rw [straight.built]
    rfl
  · obtain ⟨v, expanded, value⟩ := straight.fullSize (ofLines_drawn made) full target
    refine ⟨v, expanded, rfl, fun j column beside y row offset _ => ⟨?_, fun height => ?_⟩⟩
    · rw [value j column beside y row]
      ring
    · rw [Page.sourcePoint, value j column beside y row, height]
      congr 1
      ring

end BuildReport

/-! A page of a hundred rows and forty columns with four arched lines. -/

namespace Arched

def ink : Grid Bool := Grid.replicate 100 40 false

def settings : BuildSettings :=
  { BuildSettings.standard with
    stride := 10, minLines := 4, stride_ge := by decide, minLines_ge := le_rfl }

def curve : Quadratic Rat := ⟨1 / 100, -1 / 5, 5⟩

def lines : List (TextLine Rat) :=
  [0, 20, 40, 60].map fun b => [0, 10, 25].map fun x => (x, b + curve.eval x)

theorem translates : Translates lines curve [0, 10, 25] [0, 20, 40, 60] where
  lines_eq := rfl
  ascending := by decide
  enough := by decide
  varied := ⟨0, by decide, 20, by decide, 40, by decide, by decide, by decide, by decide⟩

theorem coverage_lines : TextLine.coverage lines 100 = .ok ⟨true, 4, 64⟩ := by
  decide +kernel

theorem exists_report : ∃ report,
    BuildReport.build settings (fun _ => lines) (.page (.bit ink)) (.int 3) .null = .ok report ∧
      report.model.vertical.status = .built := by
  have whole : (Page.bit ink).check = .ok () := rfl
  have enough : (Value.int 4 : Value Rat).greaterThan lines.length = .ok false := rfl
  obtain ⟨report, field, r, made, straight⟩ :=
    BuildReport.ofLines_straightens settings 3 whole translates enough coverage_lines rfl
  refine ⟨report, made, ?_⟩
  rw [straight.built]
  rfl

theorem eval_curve (x : Rat) : curve.eval x = (1 / 100 * x + -1 / 5) * x + 5 := rfl

theorem level_eq {r : Rat} (level : FlatLevel curve [0, 10, 25] 5 10 r) : r = 4 := by
  have second : Within [0, 10, 25] 5 10 1 :=
    ⟨by decide, ⟨0, by decide, by norm_num⟩, 25, by decide, by norm_num⟩
  have low := level.least 1 second
  obtain ⟨j, inside, attained⟩ := level.attained ⟨1, second⟩
  have column := inside.1
  rw [eval_curve] at low attained
  interval_cases j <;> norm_num at low attained <;> linarith

/-- The pixel of the second line in the fourth column is read eight rows below the line's offset. -/
theorem straightened : ∃ report field v,
    BuildReport.build settings (fun _ => lines) (.page (.bit ink)) (.int 3) .null = .ok report ∧
      report.model.vertical = .held .pending field ∧ field.sample 0 3 = -4 ∧
      report.model.fullSize (.bit ink) field none = .ok v ∧
      Page.sourcePoint v 24 30 = (30, 20 + 8) := by
  obtain ⟨report, field, r, built, -, straight, moved⟩ := BuildReport.build_straightens settings
    (fun _ => lines) (.page (.bit ink)) (.int 3) .null rfl rfl rfl rfl translates rfl
    coverage_lines rfl
  have rows : field.rows = 11 := straight.rows
  have columns : field.columns = 5 := straight.columns
  have level := straight.level
  rw [columns] at level
  obtain rfl := level_eq level
  obtain ⟨v, full, -, taken⟩ := moved rfl (.bit ink)
  refine ⟨report, field, v, built, straight.built, ?_, full, ?_⟩
  · rw [straight.samples 0 (by omega) 3 (by omega), eval_curve]
    norm_num [settings]
  · have point := (taken 3 (by omega) (by decide) 24 (by decide) 20 (by decide)).2 (by norm_num)
    rw [eval_curve] at point
    norm_num [settings] at point ⊢
    exact point

end Arched

end PageFlattening
