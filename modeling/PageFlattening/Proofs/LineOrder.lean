import Mathlib
import PageFlattening.Proofs.FitPermutations
import PageFlattening.Proofs.Straightening

/-! The order in which the lines of a page are found does not matter. Two builds from the same lines
in two orders go side by side: at each step both stop with the same fault, or both go on with the
same numbers and with lists that differ in their order only. Lines and ends that tie when they are
sorted by height may stay the other way round, but nothing that comes after the sorting sees it. -/
namespace PageFlattening

/-! ### Runs side by side -/

/-- Two runs end alike: both stop with one fault, or both end, and in results that go together. -/
inductive EndAlike {α β : Type} (r : α → β → Prop) : Except Fault α → Except Fault β → Prop
  | stopped (fault : Fault) : EndAlike r (.error fault) (.error fault)
  | done {a : α} {b : β} (related : r a b) : EndAlike r (.ok a) (.ok b)

namespace EndAlike

variable {α β γ δ : Type} {r : α → β → Prop} {s : γ → δ → Prop}

theorem of_eq {x y : Except Fault α} (same : x = y) : EndAlike (· = ·) x y := by
  subst same
  cases x with
  | error fault => exact .stopped fault
  | ok a => exact .done rfl

theorem bind {x : Except Fault α} {y : Except Fault β} (h : EndAlike r x y)
    {f : α → Except Fault γ} {g : β → Except Fault δ}
    (next : ∀ a b, r a b → EndAlike s (f a) (g b)) : EndAlike s (x >>= f) (y >>= g) := by
  cases h with
  | stopped fault => exact .stopped fault
  | done related => exact next _ _ related

theorem bind_same {x : Except Fault α} {f : α → Except Fault γ} {g : α → Except Fault δ}
    (next : ∀ a, EndAlike s (f a) (g a)) : EndAlike s (x >>= f) (x >>= g) :=
  (of_eq rfl).bind fun a _ same => same ▸ next a

theorem trans {x : Except Fault α} {y : Except Fault β} {z : Except Fault γ} {t : β → γ → Prop}
    {u : α → γ → Prop} (h : EndAlike r x y) (h' : EndAlike t y z)
    (chain : ∀ a b c, r a b → t b c → u a c) : EndAlike u x z := by
  cases h with
  | stopped fault =>
      cases h'
      exact .stopped fault
  | done related =>
      cases h' with
      | done related' => exact .done (chain _ _ _ related related')

theorem map_eq {x : Except Fault α} {y : Except Fault β} (h : EndAlike r x y) {f : α → γ}
    {g : β → γ} (same : ∀ a b, r a b → f a = g b) : x.map f = y.map g := by
  cases h with
  | stopped fault => rfl
  | done related => exact congrArg Except.ok (same _ _ related)

end EndAlike

theorem mapM_perm {α β : Type} {f : α → Except Fault β} {fault : Fault} {xs ys : List α}
    (h : xs.Perm ys) (only : ∀ x ∈ xs, ∀ other, f x = .error other → other = fault) :
    EndAlike List.Perm (xs.mapM f) (ys.mapM f) := by
  induction h with
  | nil => exact .done .nil
  | cons x _ ih =>
      rw [List.mapM_cons, List.mapM_cons]
      refine .bind_same fun y => ?_
      exact (ih fun z member => only z (List.mem_cons_of_mem x member)).bind
        fun zs ws related => .done (related.cons y)
  | swap x y rest =>
      simp only [List.mapM_cons]
      cases first : f x with
      | error other =>
          obtain rfl := only x (by simp) other first
          cases second : f y with
          | error another =>
              obtain rfl := only y (by simp) another second
              exact .stopped _
          | ok b => exact .stopped _
      | ok a =>
          cases second : f y with
          | error another => exact .stopped another
          | ok b =>
              cases rest.mapM f with
              | error other => exact .stopped other
              | ok zs => exact .done (.swap a b zs)
  | trans one two ih ih' =>
      exact (ih only).trans (ih' fun z member => only z (one.mem_iff.mpr member))
        fun _ _ _ related related' => related.trans related'

/-! ### Coverage -/

namespace TextLine

theorem row_eq (l : TextLine Rat) : l.row = .ok (Scalar.trunc l.middle.2) := rfl

theorem coverage_perm {lines others : List (TextLine Rat)} (h : lines.Perm others) (height : Int) :
    coverage lines height = coverage others height := by
  have rows : ∀ ls : List (TextLine Rat),
      ls.mapM row = .ok (ls.map fun l => Scalar.trunc l.middle.2) := by
    intro ls
    rw [mapM_eq_ok_iff, List.forall₂_map_right_iff, List.forall₂_same]
    exact fun l _ => row_eq l
  have both := h.map fun l : TextLine Rat => Scalar.trunc l.middle.2
  rw [coverage, coverage, rows, rows]
  generalize lines.map (fun l : TextLine Rat => Scalar.trunc l.middle.2) = xs at both
  generalize others.map (fun l : TextLine Rat => Scalar.trunc l.middle.2) = ys at both
  dsimp only [bind, Except.bind]
  cases xs with
  | nil => rw [List.nil_perm.mp both]
  | cons r rest =>
      cases ys with
      | nil => exact absurd (List.perm_nil.mp both) (List.cons_ne_nil r rest)
      | cons r' rest' =>
          have top := min?_perm both
          have bottom := max?_perm both
          rw [List.min?_cons', List.min?_cons', Option.some.injEq] at top
          rw [List.max?_cons', List.max?_cons', Option.some.injEq] at bottom
          simp only [top, bottom, both.any_eq]

theorem leftEnds_perm {lines others : List (TextLine Rat)} (h : lines.Perm others) :
    (leftEnds lines).Perm (leftEnds others) :=
  (List.mergeSort_perm _ _).trans ((h.map first).trans (List.mergeSort_perm _ _).symm)

theorem rightEnds_perm {lines others : List (TextLine Rat)} (h : lines.Perm others) :
    (rightEnds lines).Perm (rightEnds others) :=
  (List.mergeSort_perm _ _).trans ((h.map last).trans (List.mergeSort_perm _ _).symm)

end TextLine

/-! ### The vertical field -/

namespace LineFit

theorem isConsistent_perm {curvatures others : List Rat} (h : curvatures.Perm others) (c : Rat) :
    isConsistent curvatures c = isConsistent others c := by
  rw [isConsistent, isConsistent, band, band, medianAndDeviation_perm h, median_perm h]

theorem consistent_perm {fits others : List (LineFit Rat)} (h : fits.Perm others) :
    (consistent fits).Perm (consistent others) := by
  rw [consistent, consistent, funext (isConsistent_perm (h.map curvature))]
  exact h.filter _

end LineFit

namespace VerticalFit

structure Reordered (v w : VerticalFit Rat) : Prop where
  lines : v.lines.Perm w.lines
  middles : v.middles = w.middles
  curvatures : v.curvatures = w.curvatures
  minCurvature : v.minCurvature = w.minCurvature
  maxCurvature : v.maxCurvature = w.maxCurvature

theorem middles_mergeSort (lines : List (SampledLine Rat)) :
    (lines.mergeSort fun a b => decide (a.middle ≤ b.middle)).map (fun l => l.middle) =
      ascending (lines.map fun l => l.middle) :=
  List.map_mergeSort fun _ _ _ _ => rfl

theorem ofKept_perm {kept others : List (LineFit Rat)} (h : kept.Perm others)
    (columns stride : Nat) :
    EndAlike (Option.Rel Reordered) (ofKept kept columns stride)
      (ofKept others columns stride) := by
  rcases Nat.lt_or_ge kept.length 3 with few | enough
  · rw [ofKept_of_lt few, ofKept_of_lt (h.length_eq ▸ few)]
    exact .done .none
  · obtain ⟨low, high, least, greatest, eq⟩ := ofKept_of_le enough columns stride
    obtain ⟨low', high', least', greatest', eq'⟩ :=
      ofKept_of_le (h.length_eq ▸ enough : 3 ≤ others.length) columns stride
    have curvatures : (kept.map (·.curvature)).Perm (others.map (·.curvature)) := h.map _
    have read := h.map (LineFit.sampled columns stride)
    rw [least?_perm curvatures, least', Option.some.injEq] at least
    rw [greatest?_perm curvatures, greatest', Option.some.injEq] at greatest
    rw [eq, eq', least, greatest]
    refine .bind_same fun minCurvature => .bind_same fun maxCurvature => .done (.some ?_)
    exact {
      lines := (List.mergeSort_perm _ _).trans (read.trans (List.mergeSort_perm _ _).symm)
      middles := by
        simp only [VerticalFit.middles, middles_mergeSort]
        exact ascending_perm (read.map _)
      curvatures := ascending_perm curvatures
      minCurvature := rfl
      maxCurvature := rfl }

/-- Every line has three points, so that its fit fails in one way only. -/
theorem ofLines_perm {lines others : List (TextLine Rat)} (h : lines.Perm others)
    (enough : ∀ l ∈ lines, 3 ≤ l.length) (columns stride : Nat) :
    EndAlike (Option.Rel Reordered) (ofLines lines columns stride)
      (ofLines others columns stride) := by
  rw [ofLines_eq, ofLines_eq]
  refine (mapM_perm h fun l member _ => LineFit.ofLine_fault (enough l member)).bind
    fun fits otherFits same => ?_
  exact ofKept_perm (LineFit.consistent_perm same) columns stride

theorem field_perm {v w : VerticalFit Rat} (h : v.lines.Perm w.lines) (columns rows stride : Nat) :
    v.field columns rows stride = w.field columns rows stride := by
  have fits : Field.lineFits v.levels (.ofGrid (v.displacements columns)) =
      Field.lineFits w.levels (.ofGrid (w.displacements columns)) := by
    rw [lineFits_eq, lineFits_eq, h.length_eq]
    simp only [Points.fitParabola_perm (h.map _)]
  simp only [field, Field.ofLines, fits]

end VerticalFit

/-! ### The edges -/

namespace EdgeFit

theorem flush_perm {points others : List (Point Rat)} (h : points.Perm others) (side : Side)
    (tolerance : Rat) :
    EndAlike List.Perm (flush side points tolerance) (flush side others tolerance) := by
  rw [flush, flush, fitLinear_perm h]
  refine .bind_same fun trend => ?_
  have residuals := h.map fun p : Point Rat => p.1 - trend.eval p.2
  dsimp only
  rw [least?_perm residuals, greatest?_perm residuals]
  generalize least? (others.map fun p : Point Rat => p.1 - trend.eval p.2) = low
  generalize greatest? (others.map fun p : Point Rat => p.1 - trend.eval p.2) = high
  cases side with
  | left =>
      cases low with
      | none => exact .done .nil
      | some low => exact .done (h.filter _)
  | right =>
      cases high with
      | none => exact .done .nil
      | some high => exact .done (h.filter _)

theorem span_perm {points others : List (Point Rat)} (h : points.Perm others) :
    span points = span others := by
  rw [span, span, greatest?_perm (h.map _), least?_perm (h.map _)]

theorem usable_perm {points others : List (Point Rat)} (h : points.Perm others) (whole : Rat) :
    usable points whole = usable others whole := by
  rw [usable, usable, h.length_eq, span_perm h]

theorem ofFlush_perm {left left' right right' : List (Point Rat)} (onLeft : left.Perm left')
    (onRight : right.Perm right') (allFlush : Bool) (height : Int) (odd : Bool)
    (columns rows stride : Nat) :
    ofFlush left right allFlush height odd columns rows stride =
      ofFlush left' right' allFlush height odd columns rows stride := by
  simp only [ofFlush, fitQuadratic_perm onLeft, fitQuadratic_perm onRight, fitLinear_perm onLeft,
    fitLinear_perm onRight]

end EdgeFit

/-! ### The whole build -/

namespace BuildReport

def SameModel (report other : BuildReport Rat) : Prop := report.model = other.model

theorem addEdges_perm (m : PageModel Rat) {lines others : List (TextLine Rat)}
    (h : lines.Perm others) (v w : VerticalFit Rat) (columns rows stride : Nat) :
    EndAlike SameModel (addEdges m lines v columns rows stride)
      (addEdges m others w columns rows stride) := by
  have left := TextLine.leftEnds_perm h
  have right := TextLine.rightEnds_perm h
  rw [addEdges_eq, addEdges_eq]
  dsimp only
  rw [left.length_eq, right.length_eq, EdgeFit.span_perm left]
  split
  · exact .done rfl
  · refine (EdgeFit.flush_perm left .left _).bind fun leftFlush leftFlush' onLeft => ?_
    refine (EdgeFit.flush_perm right .right _).bind fun rightFlush rightFlush' onRight => ?_
    rw [EdgeFit.usable_perm onLeft, EdgeFit.usable_perm onRight, onLeft.length_eq,
      onRight.length_eq, EdgeFit.ofFlush_perm onLeft onRight]
    split
    · exact .done rfl
    · refine .bind_same fun edges => ?_
      cases m.addFields edges with
      | error fault => exact .stopped fault
      | ok next => exact .done rfl

theorem ofLines_perm (b : BuildSettings) (ink : Grid Bool) (page : Nat) (minLines : Value Rat)
    {detected others : List (TextLine Rat)} (h : detected.Perm others) :
    EndAlike SameModel (ofLines b ink page minLines detected)
      (ofLines b ink page minLines others) := by
  have lines := h.filter fun l => decide (3 ≤ l.length)
  have enough : ∀ l ∈ detected.filter (fun l => decide (3 ≤ l.length)), 3 ≤ l.length :=
    fun l member => (TextLine.three_le_of_mem member).2
  rw [ofLines_eq, ofLines_eq]
  dsimp only
  rw [lines.length_eq]
  refine .bind_same fun few => ?_
  cases few with
  | true => exact .done rfl
  | false =>
      simp only [Bool.false_eq_true, if_false, TextLine.coverage_perm lines]
      refine .bind_same fun coverage => ?_
      split
      · exact .done rfl
      · refine (VerticalFit.ofLines_perm lines enough _ _).bind fun fit fit' same => ?_
        cases same with
        | none => exact .done rfl
        | some same =>
            rename_i v w
            dsimp only
            have measured : ∀ m : PageModel Rat, m.withLines v = m.withLines w := by
              intro m
              have middles : v.lines.map (fun l => l.middle) = w.lines.map (fun l => l.middle) :=
                same.middles
              simp only [PageModel.withLines, same.minCurvature, same.maxCurvature, middles,
                same.curvatures]
            rw [VerticalFit.field_perm same.lines, measured]
            refine .bind_same fun field => .bind_same fun flat => ?_
            exact addEdges_perm flat lines v w _ _ _

/-- A page is modelled alike, or fails alike, in whatever order its lines are found. -/
theorem build_perm (b : BuildSettings) {detector other : Grid Bool → List (TextLine Rat)}
    (h : ∀ ink, (detector ink).Perm (other ink)) (source : Source) (page minLines : Value Rat) :
    (build b detector source page minLines).map BuildReport.model =
      (build b other source page minLines).map BuildReport.model := by
  have alike : EndAlike SameModel (build b detector source page minLines)
      (build b other source page minLines) := by
    rw [build, build]
    refine .bind_same fun ink => .bind_same fun number => .bind_same fun least => ?_
    exact ofLines_perm b ink number least (h ink)
  exact alike.map_eq fun _ _ same => same

end BuildReport

theorem Arched.upwards_alike : (∀ _ : Grid Bool, lines.Perm lines.reverse) ∧
    ∃ report other, BuildReport.build settings (fun _ => lines) (.page (.bit ink)) (.int 3) .null =
        .ok report ∧
      BuildReport.build settings (fun _ => lines.reverse) (.page (.bit ink)) (.int 3) .null =
        .ok other ∧
      other.model = report.model ∧ other.model.vertical.status = .built := by
  have upwards : ∀ _ : Grid Bool, lines.Perm lines.reverse := fun _ => lines.reverse_perm.symm
  obtain ⟨report, downwards, status⟩ := exists_report
  have alike := BuildReport.build_perm settings upwards (.page (.bit ink)) (.int 3) .null
  rw [downwards] at alike
  refine ⟨upwards, ?_⟩
  cases reversed : BuildReport.build settings (fun _ => lines.reverse) (.page (.bit ink)) (.int 3)
      .null with
  | error fault =>
      rw [reversed] at alike
      cases alike
  | ok other =>
      rw [reversed] at alike
      have same : report.model = other.model := Except.ok.inj alike
      exact ⟨report, other, downwards, rfl, same.symm, same ▸ status⟩

end PageFlattening
