import Mathlib
import PageFlattening.Proofs.BuildSteps
import PageFlattening.Proofs.RationalFits

/-! The edges of the text, given at the ends of the lines. Ends have a trend, and flush ends a
parabola, unless all of them are at the top of the page. Where the ends on each side are not all at
one height nothing can fail, since flush ends that are usable are again at different heights. What
the edges add to a model leaves its vertical field alone. -/
namespace PageFlattening

namespace Field

variable {K : Type} [Scalar K]

theorem make_int (d : Direction) {g : Grid K} (tall : 0 < g.height) (wide : 0 < g.width)
    {stride : Nat} (positive : 0 < stride) :
    make (.ok d) (.ofGrid g) (.int stride) = .ok ⟨d, g, stride, tall, wide, positive⟩ := by
  have filled : g.isEmpty = false := by
    rw [Grid.isEmpty, Bool.or_eq_false_iff]
    exact ⟨beq_false_of_ne tall.ne', beq_false_of_ne wide.ne'⟩
  have stepped : checkStride (.int stride : Value K) = .ok ⟨stride, positive⟩ := by
    have enough : ¬ (stride : Int) < 1 := by omega
    simp [checkStride, Value.lessThan, Value.toInt, enough, positive, bind, Except.bind, pure,
      Except.pure]
  rw [make, Shaped.grid?_ofGrid]
  simp only [filled, stepped, Bool.false_eq_true, if_false]
  exact dif_pos ⟨tall, wide⟩

theorem ofEdges_eq_ok (d : Direction) (leftEdge rightEdge : K) {left right : List K}
    (same : left.length = right.length) (filled : 0 < left.length) {columns stride : Nat}
    (wide : 0 < columns) (positive : 0 < stride) :
    ∃ f, ofEdges (.ok d) leftEdge rightEdge left right (.int stride) columns = .ok f ∧
      f.direction = d ∧ f.stride = stride := by
  obtain ⟨g, sampled, height, width⟩ : ∃ g,
      edgeSamples leftEdge rightEdge left right (Scalar.ofInt stride : K)
        (columns : Int).toNat = .ok g ∧ g.height = left.length ∧ g.width = columns := by
    rw [edgeSamples, commonLength, if_pos same, Int.toNat_natCast]
    dsimp only
    split
    · exact ⟨_, rfl, rfl, rfl⟩
    · exact ⟨_, rfl, rfl, rfl⟩
  change ∃ f, (edgeSamples leftEdge rightEdge left right (Scalar.ofInt stride : K)
    (columns : Int).toNat >>= fun grid => make (.ok d) (.ofGrid grid) (.int stride)) = .ok f ∧ _
  rw [sampled]
  exact ⟨_, make_int d (by omega) (by omega) positive, rfl, rfl⟩

end Field

namespace EdgeFit

section AnyScalar

variable {K : Type} [Scalar K]

theorem references_eq_ok {left right : List K} (left_ne : left ≠ []) (right_ne : right ≠ [])
    (odd : Bool) : ∃ pair, references left right odd = .ok pair := by
  cases left with
  | nil => exact absurd rfl left_ne
  | cons _ _ =>
      cases right with
      | nil => exact absurd rfl right_ne
      | cons _ _ => cases odd <;> exact ⟨_, rfl⟩

theorem field_eq_ok (d : Direction) (heights : List K) (left right : K → K) (odd : Bool)
    (filled : 0 < heights.length) {columns stride : Nat} (wide : 0 < columns)
    (positive : 0 < stride) :
    ∃ f, field d (heights.map left) (heights.map right) odd columns stride = .ok f ∧
      f.direction = d ∧ f.stride = stride := by
  have nonempty : ∀ side : K → K, heights.map side ≠ [] := by
    intro side
    rw [ne_eq, List.map_eq_nil_iff]
    exact List.length_pos_iff.mp filled
  obtain ⟨⟨toLeft, toRight⟩, referred⟩ :=
    references_eq_ok (nonempty left) (nonempty right) odd
  rw [field, referred]
  refine Field.ofEdges_eq_ok d toLeft toRight ?_ ?_ wide positive
  · simp only [List.length_map]
  · simpa only [List.length_map] using filled

end AnyScalar

def Apart (points : List (Point Rat)) : Prop := ∃ p ∈ points, ∃ r ∈ points, p.2 ≠ r.2

def OffTop (points : List (Point Rat)) : Prop := ∃ p ∈ points, p.2 ≠ 0

theorem Apart.offTop {points : List (Point Rat)} (apart : Apart points) : OffTop points := by
  obtain ⟨p, inP, r, inR, different⟩ := apart
  by_cases top : p.2 = 0
  · exact ⟨r, inR, fun top' => different (top.trans top'.symm)⟩
  · exact ⟨p, inP, top⟩

theorem offZero_swap_iff {points : List (Point Rat)} :
    Points.OffZero (points.map fun p => (p.2, p.1)) ↔ OffTop points := by
  simp only [Points.OffZero, OffTop, List.mem_map, exists_exists_and_eq_and]

theorem exists_fitLinear_iff {points : List (Point Rat)} (enough : 2 ≤ points.length) :
    (∃ l, fitLinear (points.map (·.2)) (points.map (·.1)) = .ok l) ↔ OffTop points := by
  rw [fitLinear_map enough, Points.exists_fitLine_iff, offZero_swap_iff]

theorem exists_fitQuadratic_iff {points : List (Point Rat)} (enough : 3 ≤ points.length) :
    (∃ q, fitQuadratic (points.map (·.2)) (points.map (·.1)) = .ok q) ↔ OffTop points := by
  rw [fitQuadratic_map enough, Points.exists_fitParabola_iff, offZero_swap_iff]

theorem exists_flush_iff {points : List (Point Rat)} (enough : 2 ≤ points.length) (side : Side)
    (tolerance : Rat) :
    (∃ kept, EdgeFit.flush side points tolerance = .ok kept) ↔ OffTop points := by
  rw [← exists_fitLinear_iff enough, EdgeFit.flush]
  constructor
  · rintro ⟨kept, found⟩
    obtain ⟨trend, fitted, -⟩ := exists_of_bind_eq_ok found
    exact ⟨trend, fitted⟩
  · rintro ⟨trend, fitted⟩
    rw [fitted]
    dsimp only [bind, Except.bind]
    split <;> exact ⟨_, rfl⟩

theorem span_eq {points : List (Point Rat)} (filled : points ≠ []) :
    ∃ p ∈ points, ∃ r ∈ points, span points = p.2 - r.2 ∧
      ∀ s ∈ points, r.2 ≤ s.2 ∧ s.2 ≤ p.2 := by
  have nonempty : points.map (·.2) ≠ [] := List.map_eq_nil_iff.not.mpr filled
  obtain ⟨bottom, atBottom⟩ :=
    Option.isSome_iff_exists.mp (List.isSome_max?_of_ne_nil nonempty)
  obtain ⟨top, atTop⟩ :=
    Option.isSome_iff_exists.mp (List.isSome_min?_of_ne_nil nonempty)
  obtain ⟨low, below⟩ := List.max?_eq_some_iff.mp atBottom
  obtain ⟨high, above⟩ := List.min?_eq_some_iff.mp atTop
  obtain ⟨p, inP, rfl⟩ := List.mem_map.mp low
  obtain ⟨r, inR, rfl⟩ := List.mem_map.mp high
  refine ⟨p, inP, r, inR, ?_, fun s inS => ?_⟩
  · rw [span, greatest?_eq_max?, least?_eq_min?, atBottom, atTop]
  · exact ⟨above _ (List.mem_map_of_mem inS), below _ (List.mem_map_of_mem inS)⟩

theorem Apart.span_pos {points : List (Point Rat)} (apart : Apart points) : 0 < span points := by
  obtain ⟨a, inA, b, inB, different⟩ := apart
  obtain ⟨p, -, r, -, span, between⟩ := span_eq (List.ne_nil_of_mem inA)
  have atA := between a inA
  have atB := between b inB
  rw [span]
  rcases lt_or_gt_of_ne different with less | more
  · linarith
  · linarith

theorem apart_of_usable {points : List (Point Rat)} {whole : Rat} (positive : 0 < whole)
    (usable : EdgeFit.usable points whole = true) : 3 ≤ points.length ∧ Apart points := by
  rw [EdgeFit.usable, Bool.and_eq_true, decide_eq_true_iff, decide_eq_true_iff] at usable
  obtain ⟨enough, reach⟩ := usable
  refine ⟨enough, ?_⟩
  obtain ⟨p, inP, r, inR, span, -⟩ := span_eq (List.ne_nil_of_length_pos (Nat.lt_of_lt_of_le
    (by decide) enough))
  change ((2 : Int) : Rat) / ((5 : Int) : Rat) * whole ≤ EdgeFit.span points at reach
  rw [span] at reach
  refine ⟨p, inP, r, inR, fun same => ?_⟩
  rw [same, sub_self] at reach
  push_cast at reach
  linarith

theorem ofFlush_eq_ok {leftFlush rightFlush : List (Point Rat)}
    (left : 3 ≤ leftFlush.length ∧ OffTop leftFlush)
    (right : 3 ≤ rightFlush.length ∧ OffTop rightFlush) (allFlush : Bool) (height : Int)
    (odd : Bool) {columns rows stride : Nat} (wide : 0 < columns) (tall : 0 < rows)
    (positive : 0 < stride) :
    ∃ e, ofFlush leftFlush rightFlush allFlush height odd columns rows stride = .ok e ∧
      e.horizontal.stride = stride ∧ ∀ s, e.slope = some s → s.stride = stride := by
  have filled : 0 < (rowHeights rows stride : List Rat).length := by
    rw [rowHeights, List.length_map, List.length_range]
    exact tall
  obtain ⟨leftCurve, leftFit⟩ := (exists_fitQuadratic_iff left.1).mpr left.2
  obtain ⟨rightCurve, rightFit⟩ := (exists_fitQuadratic_iff right.1).mpr right.2
  obtain ⟨leftLine, leftTrend⟩ := (exists_fitLinear_iff (by omega)).mpr left.2
  obtain ⟨rightLine, rightTrend⟩ := (exists_fitLinear_iff (by omega)).mpr right.2
  obtain ⟨horizontal, made, -, stepped⟩ := field_eq_ok .horizontal
    (rowHeights rows stride : List Rat) leftCurve.eval rightCurve.eval odd filled wide positive
  obtain ⟨slope, made', -, stepped'⟩ := field_eq_ok .slope
    (rowHeights rows stride : List Rat) leftLine.eval rightLine.eval odd filled wide positive
  simp only [ofFlush, leftFit, rightFit, toMilli, toMicro, scaled_eq, bind, Except.bind, made,
    leftTrend, rightTrend, made']
  cases allFlush with
  | true => exact ⟨_, rfl, stepped, fun s given => by cases given⟩
  | false => exact ⟨_, rfl, stepped, fun s given => by cases given; exact stepped'⟩

end EdgeFit

namespace PageModel

variable {K : Type}

theorem addFields_eq_ok {m : PageModel K} (built : m.redirect = none) {e : EdgeFit K}
    (horizontal : e.horizontal.direction = .horizontal ∧ (e.horizontal.stride : Int) = m.stride)
    (slope : ∀ s, e.slope = some s → s.direction = .slope ∧ (s.stride : Int) = m.stride) :
    ∃ next, m.addFields e = .ok next ∧ next.vertical = m.vertical ∧
      next.horizontal = .held .pending e.horizontal ∧
      next.slope = e.slope.elim .failed (.held .pending) ∧
      next.statistics.lineCount = m.statistics.lineCount := by
  have on : (m.withEdges e).redirect = none := built
  have set := (setField_result on e.horizontal).trans (if_pos horizontal.2)
  rw [horizontal.1] at set
  rw [addFields, set]
  change ∃ next, addSlope _ e.slope = .ok next ∧ _
  cases given : e.slope with
  | none => exact ⟨_, rfl, rfl, rfl, rfl, rfl⟩
  | some s =>
      obtain ⟨direction, stride⟩ := slope s given
      have on' : ((m.withEdges e).setTrack .horizontal (.held .pending e.horizontal)).redirect =
        none := built
      have set' := (setField_result on' s).trans (if_pos stride)
      rw [direction] at set'
      exact ⟨_, set', rfl, rfl, rfl, rfl⟩

end PageModel

namespace BuildReport

section Edges

variable {m : PageModel Rat} {columns rows stride : Nat} {lines : List (TextLine Rat)}

/-- Adding the edges of the text succeeds where neither the ends on a side nor the flush ones among
them are all at the top. -/
theorem addEdges_eq_ok_of_offTop (built : m.redirect = none) (stepped : m.stride = stride)
    (wide : 0 < columns) (tall : 0 < rows) (positive : 0 < stride)
    (left : EdgeFit.OffTop (TextLine.leftEnds lines))
    (right : EdgeFit.OffTop (TextLine.rightEnds lines))
    (flush : ∀ {leftFlush rightFlush : List (Point Rat)},
      EdgeFit.flush .left (TextLine.leftEnds lines) (EdgeFit.tolerance m.width) = .ok leftFlush →
      EdgeFit.flush .right (TextLine.rightEnds lines) (EdgeFit.tolerance m.width) =
        .ok rightFlush →
      EdgeFit.usable leftFlush (EdgeFit.span (TextLine.leftEnds lines)) = true →
      EdgeFit.usable rightFlush (EdgeFit.span (TextLine.leftEnds lines)) = true →
      (3 ≤ leftFlush.length ∧ EdgeFit.OffTop leftFlush) ∧
        (3 ≤ rightFlush.length ∧ EdgeFit.OffTop rightFlush)) (vertical : VerticalFit Rat) :
    ∃ report, addEdges m lines vertical columns rows stride = .ok report ∧
      report.model.vertical = m.vertical ∧ report.vertical = some vertical := by
  have both : (TextLine.rightEnds lines).length = (TextLine.leftEnds lines).length := by
    rw [TextLine.length_rightEnds, TextLine.length_leftEnds]
  rw [addEdges_eq]
  dsimp only
  split
  · exact ⟨_, rfl, rfl, rfl⟩
  · rename_i enough
    have three : 3 ≤ (TextLine.leftEnds lines).length := Nat.le_of_not_lt enough
    obtain ⟨leftFlush, onLeft⟩ := (EdgeFit.exists_flush_iff (by omega) .left
      (EdgeFit.tolerance m.width)).mpr left
    obtain ⟨rightFlush, onRight⟩ := (EdgeFit.exists_flush_iff (by omega) .right
      (EdgeFit.tolerance m.width)).mpr right
    rw [onLeft, onRight]
    dsimp only [bind, Except.bind]
    split
    · exact ⟨_, rfl, rfl, rfl⟩
    · rename_i usable
      rw [Bool.not_eq_true, Bool.not_eq_false', Bool.and_eq_true] at usable
      obtain ⟨leftOff, rightOff⟩ := flush onLeft onRight usable.1 usable.2
      obtain ⟨e, fitted, horizontal, slope⟩ := EdgeFit.ofFlush_eq_ok leftOff rightOff
        (decide ((TextLine.leftEnds lines).length ≤ leftFlush.length) &&
          decide ((TextLine.rightEnds lines).length ≤ rightFlush.length))
        m.height (m.page % 2 == 1) wide tall positive
      have shape := EdgeFit.ofFlush_shape fitted
      obtain ⟨next, added, kept, -⟩ := PageModel.addFields_eq_ok built
        ⟨shape.1.1, by rw [horizontal, stepped]⟩
        fun s given => ⟨(shape.2 s given).1, by rw [slope s given, stepped]⟩
      rw [fitted]
      dsimp only
      rw [added]
      exact ⟨_, rfl, kept, rfl⟩

theorem addEdges_eq_ok (built : m.redirect = none) (stepped : m.stride = stride)
    (wide : 0 < columns) (tall : 0 < rows) (positive : 0 < stride)
    (left : EdgeFit.Apart (TextLine.leftEnds lines))
    (right : EdgeFit.Apart (TextLine.rightEnds lines)) (vertical : VerticalFit Rat) :
    ∃ report, addEdges m lines vertical columns rows stride = .ok report ∧
      report.model.vertical = m.vertical ∧ report.vertical = some vertical := by
  refine addEdges_eq_ok_of_offTop built stepped wide tall positive left.offTop right.offTop ?_
    vertical
  intro leftFlush rightFlush _ _ leftUsable rightUsable
  obtain ⟨leftThree, leftApart⟩ := EdgeFit.apart_of_usable left.span_pos leftUsable
  obtain ⟨rightThree, rightApart⟩ := EdgeFit.apart_of_usable left.span_pos rightUsable
  exact ⟨⟨leftThree, leftApart.offTop⟩, rightThree, rightApart.offTop⟩

end Edges

end BuildReport

end PageFlattening
