import Mathlib
import PageFlattening.Proofs.EdgeFits
import PageFlattening.Proofs.SafeRendering
import PageFlattening.Proofs.Straightening

/-! What becomes of the lines of a page. Nothing can be fitted, or the vertical field alone, or the
horizontal field as well, or the slope as the last. Each step of building has a rule that says with
which faults it stops and what it ends in (`Runs`); together they say that building stops only where
a fit is singular or a figure cannot be rounded, and that a model has one of the four shapes. -/
namespace PageFlattening

/-! ### Runs that may stop -/

/-- A run stops with certain faults only, and ends in certain results only. -/
def Runs {α : Type} (stops : Fault → Prop) (ends : α → Prop) : Except Fault α → Prop
  | .error fault => stops fault
  | .ok a => ends a

namespace Runs

variable {α β : Type} {stops : Fault → Prop} {ends : α → Prop} {next : β → Prop}

theorem of_fault {x : Except Fault α} (h : ∀ fault, x = .error fault → stops fault) :
    Runs stops (fun _ => True) x := by
  cases x with
  | error fault => exact h fault rfl
  | ok a => exact trivial

theorem mono {x : Except Fault α} (h : Runs stops ends x) {ends' : α → Prop}
    (weaker : ∀ a, ends a → ends' a) : Runs stops ends' x := by
  cases x with
  | error fault => exact h
  | ok a => exact weaker a h

theorem bind {x : Except Fault α} (h : Runs stops ends x) {f : α → Except Fault β}
    (step : ∀ a, x = .ok a → ends a → Runs stops next (f a)) : Runs stops next (x >>= f) := by
  cases x with
  | error fault => exact h
  | ok a => exact step a rfl h

theorem mapM {xs : List α} {f : α → Except Fault β}
    (each : ∀ x ∈ xs, Runs stops (fun _ => True) (f x)) :
    Runs stops (fun _ => True) (xs.mapM f) := by
  induction xs with
  | nil => exact trivial
  | cons x rest ih =>
      rw [List.mapM_cons]
      refine (each x List.mem_cons_self).bind fun _ _ _ => ?_
      refine (ih fun y member => each y (List.mem_cons_of_mem x member)).bind fun _ _ _ => ?_
      exact trivial

theorem exists_eq_ok {x : Except Fault α} (h : Runs stops ends x)
    (none : ∀ fault, stops fault → x ≠ .error fault) : ∃ a, x = .ok a ∧ ends a := by
  cases x with
  | error fault => exact absurd rfl (none fault h)
  | ok a => exact ⟨a, rfl, h⟩

end Runs

section Steps

variable {K : Type} [Scalar K]

/-- The faults of fits: that they are singular, and that a figure of theirs cannot be rounded. -/
def FitFault (K : Type) [Scalar K] (fault : Fault) : Prop :=
  fault = .misuse .singularFit ∨ ∃ (unit : Int) (x : K), scaled unit x = .error fault

theorem FitFault.cases {fault : Fault} (h : FitFault K fault) :
    fault = .misuse .singularFit ∨ fault = .misuse .notANumber ∨ fault = .misuse .tooLarge := by
  refine h.imp_right ?_
  rintro ⟨unit, x, stopped⟩
  rw [scaled] at stopped
  split at stopped
  · cases stopped
    exact .inl rfl
  · cases stopped
    exact .inr rfl
  · cases stopped

theorem FitFault.singular {fault : Fault} (h : FitFault Rat fault) :
    fault = .misuse .singularFit := by
  obtain singular | ⟨unit, x, stopped⟩ := h
  · exact singular
  · cases stopped

theorem runs_scaled (unit : Int) (x : K) : Runs (FitFault K) (fun _ => True) (scaled unit x) :=
  .of_fault fun _ stopped => .inr ⟨unit, x, stopped⟩

structure Field.Spans (f : Field K) (d : Direction) (rows columns stride : Nat) : Prop where
  direction : f.direction = d
  rows : f.rows = rows
  columns : f.columns = columns
  stride : f.stride = stride

/-! ### The vertical field -/

namespace VerticalFit

theorem runs_ofKept (kept : List (LineFit K)) (columns stride : Nat) :
    Runs (FitFault K) (fun fit => (fit = none ↔ kept.length < 3) ∧
      ∀ v, fit = some v → 3 ≤ v.lines.length) (ofKept kept columns stride) := by
  rcases Nat.lt_or_ge kept.length 3 with few | enough
  · rw [ofKept_of_lt few]
    exact ⟨iff_of_true rfl few, nofun⟩
  · obtain ⟨low, high, -, -, eq⟩ := ofKept_of_le enough columns stride
    rw [eq]
    refine (runs_scaled _ low).bind fun minCurvature _ _ => ?_
    refine (runs_scaled _ high).bind fun maxCurvature _ _ => ?_
    refine ⟨iff_of_false (by simp) (by omega), ?_⟩
    rintro v ⟨rfl⟩
    simpa using enough

theorem runs_ofLines {lines : List (TextLine K)} (enough : ∀ l ∈ lines, 3 ≤ l.length)
    (columns stride : Nat) :
    Runs (FitFault K) (fun fit => ∃ fits, lines.mapM LineFit.ofLine = .ok fits ∧
      (fit = none ↔ (LineFit.consistent fits).length < 3) ∧
      ∀ v, fit = some v → 3 ≤ v.lines.length) (ofLines lines columns stride) := by
  have fitted : Runs (FitFault K) (fun _ => True) (lines.mapM LineFit.ofLine) :=
    .mapM fun l member => .of_fault fun _ stopped =>
      .inl (LineFit.ofLine_fault (enough l member) stopped)
  rw [ofLines_eq]
  refine fitted.bind fun fits given _ => ?_
  exact (runs_ofKept _ columns stride).mono fun _ read => ⟨fits, given, read⟩

theorem runs_field {v : VerticalFit K} (enough : 3 ≤ v.lines.length) {columns rows stride : Nat}
    (wide : 0 < columns) (tall : 0 < rows) (positive : 0 < stride) :
    Runs (FitFault K) (fun f => f.Spans .vertical rows columns stride)
      (v.field columns rows stride) := by
  have fitted : Runs (FitFault K) (fun _ => True)
      (Field.lineFits v.levels (.ofGrid (v.displacements columns))) := by
    rw [lineFits_eq, if_neg (Nat.not_lt.mpr enough)]
    refine .mapM fun x _ => .of_fault fun _ stopped => .inl (Points.fitParabola_fault ?_ stopped)
    refine List.ne_nil_of_length_pos ?_
    rw [List.length_map]
    omega
  rw [field, Field.ofLines]
  refine fitted.bind fun fits given _ => ?_
  let samples := Field.readColumns fits rows (Scalar.ofInt stride)
  have width : samples.width = columns := Field.lineFits_length given
  change Runs _ _ (Field.make (.ok .vertical)
    (.ofGrid (Field.readColumns fits (rows : Int).toNat (Scalar.ofInt stride))) (.int stride))
  have made := Field.make_int .vertical (show 0 < samples.height from tall)
    (show 0 < samples.width by omega) positive
  rw [Int.toNat_natCast, made]
  exact ⟨rfl, rfl, width, rfl⟩

end VerticalFit

/-! ### The edges -/

namespace EdgeFit

theorem runs_flush {points : List (Point K)} (enough : 2 ≤ points.length) (side : Side)
    (tolerance : K) :
    Runs (FitFault K) (fun kept => ∃ p, kept = points.filter p) (flush side points tolerance) := by
  have fitted : Runs (FitFault K) (fun _ => True)
      (fitLinear (points.map (·.2)) (points.map (·.1))) :=
    .of_fault fun _ stopped => .inl (fitLinear_fault enough _ _ stopped)
  rw [flush]
  refine fitted.bind fun trend _ _ => ?_
  dsimp only
  split
  · exact ⟨_, rfl⟩
  · exact ⟨_, rfl⟩
  · exact ⟨fun _ => false, (List.filter_false points).symm⟩

theorem field_spans (d : Direction) (left right : K → K) (odd : Bool) {columns rows stride : Nat}
    (wide : 0 < columns) (tall : 0 < rows) (positive : 0 < stride) :
    ∃ f, field d ((rowHeights rows stride).map left) ((rowHeights rows stride).map right) odd
      columns stride = .ok f ∧ f.Spans d rows columns stride := by
  have filled : (rowHeights rows stride : List K).length = rows := by
    rw [rowHeights, List.length_map, List.length_range]
  obtain ⟨f, made, direction, step⟩ := field_eq_ok d (rowHeights rows stride) left right odd
    (by omega) wide positive
  obtain ⟨-, tall', wide'⟩ := field_shape (by rw [List.length_map, List.length_map]) made
  rw [List.length_map, filled] at tall'
  exact ⟨f, made, direction, tall', wide', step⟩

theorem runs_ofFlush {leftFlush rightFlush : List (Point K)} (left : 3 ≤ leftFlush.length)
    (right : 3 ≤ rightFlush.length) (allFlush : Bool) (height : Int) (odd : Bool)
    {columns rows stride : Nat} (wide : 0 < columns) (tall : 0 < rows) (positive : 0 < stride) :
    Runs (FitFault K) (fun e => e.horizontal.Spans .horizontal rows columns stride ∧
      ((allFlush = true ∧ e.slope = none) ∨
        (allFlush = false ∧ ∃ s, e.slope = some s ∧ s.Spans .slope rows columns stride)))
      (ofFlush leftFlush rightFlush allFlush height odd columns rows stride) := by
  have parabola : ∀ {points : List (Point K)}, 3 ≤ points.length →
      Runs (FitFault K) (fun _ => True) (fitQuadratic (points.map (·.2)) (points.map (·.1))) :=
    fun enough => .of_fault fun _ stopped => .inl (fitQuadratic_fault enough _ _ stopped)
  have line : ∀ {points : List (Point K)}, 3 ≤ points.length →
      Runs (FitFault K) (fun _ => True) (fitLinear (points.map (·.2)) (points.map (·.1))) :=
    fun enough => .of_fault fun _ stopped => .inl (fitLinear_fault (by omega) _ _ stopped)
  rw [ofFlush]
  refine (parabola left).bind fun leftCurve _ _ => ?_
  refine (parabola right).bind fun rightCurve _ _ => ?_
  refine (runs_scaled _ _).bind fun leftSlope _ _ => ?_
  refine (runs_scaled _ _).bind fun rightSlope _ _ => ?_
  refine (runs_scaled _ _).bind fun leftCurvature _ _ => ?_
  refine (runs_scaled _ _).bind fun rightCurvature _ _ => ?_
  obtain ⟨horizontal, made, spans⟩ :=
    field_spans .horizontal leftCurve.eval rightCurve.eval odd wide tall positive
  rw [made]
  cases allFlush with
  | true => exact ⟨spans, .inl ⟨rfl, rfl⟩⟩
  | false =>
      refine (line left).bind fun leftLine _ _ => ?_
      refine (line right).bind fun rightLine _ _ => ?_
      obtain ⟨slope, made', spans'⟩ :=
        field_spans .slope leftLine.eval rightLine.eval odd wide tall positive
      rw [made']
      exact ⟨spans, .inr ⟨rfl, slope, rfl, spans'⟩⟩

end EdgeFit

theorem length_le_filter_iff {α : Type} {xs : List α} (p : α → Bool) :
    xs.length ≤ (xs.filter p).length ↔ ∀ x ∈ xs, x ∈ xs.filter p := by
  have most : (xs.filter p).length ≤ xs.length := List.length_filter_le p xs
  rw [show xs.length ≤ (xs.filter p).length ↔ (xs.filter p).length = xs.length by omega,
    List.length_filter_eq_length_iff]
  simp only [List.mem_filter]
  exact forall₂_congr fun x member => ⟨fun kept => ⟨member, kept⟩, And.right⟩

def Ragged (lines : List (TextLine K)) (width : Int) : Prop :=
  ∃ left right, EdgeFit.flush .left (TextLine.leftEnds lines) (EdgeFit.tolerance width) = .ok left ∧
    EdgeFit.flush .right (TextLine.rightEnds lines) (EdgeFit.tolerance width) = .ok right ∧
    ((∃ p ∈ TextLine.leftEnds lines, p ∉ left) ∨ ∃ p ∈ TextLine.rightEnds lines, p ∉ right)

theorem not_ragged_iff {lines : List (TextLine K)} {width : Int} {left right : List (Point K)}
    (onLeft : EdgeFit.flush .left (TextLine.leftEnds lines) (EdgeFit.tolerance width) = .ok left)
    (onRight : EdgeFit.flush .right (TextLine.rightEnds lines) (EdgeFit.tolerance width) =
      .ok right)
    (leftFilter : ∃ p, left = (TextLine.leftEnds lines).filter p)
    (rightFilter : ∃ p, right = (TextLine.rightEnds lines).filter p) :
    ¬ Ragged lines width ↔ (decide ((TextLine.leftEnds lines).length ≤ left.length) &&
      decide ((TextLine.rightEnds lines).length ≤ right.length)) = true := by
  have ragged : Ragged lines width ↔
      (∃ p ∈ TextLine.leftEnds lines, p ∉ left) ∨ ∃ p ∈ TextLine.rightEnds lines, p ∉ right := by
    constructor
    · rintro ⟨left', right', onLeft', onRight', inside⟩
      obtain rfl := Except.ok.inj (onLeft.symm.trans onLeft')
      obtain rfl := Except.ok.inj (onRight.symm.trans onRight')
      exact inside
    · exact fun inside => ⟨left, right, onLeft, onRight, inside⟩
  obtain ⟨p, rfl⟩ := leftFilter
  obtain ⟨q, rfl⟩ := rightFilter
  rw [ragged, Bool.and_eq_true, decide_eq_true_iff, decide_eq_true_iff, length_le_filter_iff,
    length_le_filter_iff]
  push Not
  rfl

end Steps

/-! ### Models -/

section Shapes

variable {K : Type}

def Track.Holds (t : Track K) (kind : Field K → Prop) : Prop :=
  ∃ f, t = .held .pending f ∧ kind f

theorem Track.Holds.status {t : Track K} {kind : Field K → Prop} (h : t.Holds kind) :
    t.status = .built := by
  obtain ⟨f, rfl, -⟩ := h
  rfl

theorem Track.Holds.field {t : Track K} {kind : Field K → Prop} (h : t.Holds kind) {f : Field K}
    (held : t.field? = some f) : kind f := by
  obtain ⟨g, rfl, fits⟩ := h
  cases held
  exact fits

/-- How far a page has come: nothing has been fitted, or the vertical field alone, or the horizontal
one as well, or all three. -/
inductive Shape where
  | failed
  | flat
  | straight
  | sloped
deriving Repr, DecidableEq

def Shape.statuses : Shape → Status × Status × Status
  | .failed => (.failed, .failed, .failed)
  | .flat => (.built, .failed, .failed)
  | .straight => (.built, .built, .failed)
  | .sloped => (.built, .built, .built)

theorem Shape.statuses_injective : Function.Injective Shape.statuses := by
  intro s t same
  cases s <;> cases t <;> first | rfl | cases same

namespace PageModel

def statuses (m : PageModel K) : Status × Status × Status :=
  (m.vertical.status, m.horizontal.status, m.slope.status)

/-- A model of one of the shapes, on a grid of so many rows and columns, and why it has not come
farther. -/
inductive Turned (m : PageModel K) (rows columns stride : Nat) (hopeless ragged : Prop) :
    Shape → Prop
  | failed (why : hopeless) (vertical : m.vertical = .failed) (horizontal : m.horizontal = .failed)
      (slope : m.slope = .failed) : Turned m rows columns stride hopeless ragged .failed
  | flat (fine : ¬ hopeless) (vertical : m.vertical.Holds (·.Spans .vertical rows columns stride))
      (horizontal : m.horizontal = .failed) (slope : m.slope = .failed) :
      Turned m rows columns stride hopeless ragged .flat
  | straight (fine : ¬ hopeless)
      (vertical : m.vertical.Holds (·.Spans .vertical rows columns stride))
      (horizontal : m.horizontal.Holds (·.Spans .horizontal rows columns stride))
      (even : ¬ ragged) (slope : m.slope = .failed) :
      Turned m rows columns stride hopeless ragged .straight
  | sloped (fine : ¬ hopeless) (vertical : m.vertical.Holds (·.Spans .vertical rows columns stride))
      (horizontal : m.horizontal.Holds (·.Spans .horizontal rows columns stride))
      (uneven : ragged) (slope : m.slope.Holds (·.Spans .slope rows columns stride)) :
      Turned m rows columns stride hopeless ragged .sloped

namespace Turned

variable {m : PageModel K} {rows columns stride : Nat} {hopeless ragged : Prop} {s : Shape}

theorem statuses (h : m.Turned rows columns stride hopeless ragged s) :
    m.statuses = s.statuses := by
  cases h with
  | failed _ vertical horizontal slope =>
      simp only [PageModel.statuses, vertical, horizontal, slope]
      rfl
  | flat _ vertical horizontal slope =>
      simp only [PageModel.statuses, vertical.status, horizontal, slope]
      rfl
  | straight _ vertical horizontal _ slope =>
      simp only [PageModel.statuses, vertical.status, horizontal.status, slope]
      rfl
  | sloped _ vertical horizontal _ slope =>
      simp only [PageModel.statuses, vertical.status, horizontal.status, slope.status]
      rfl

theorem statuses_eq_iff (h : m.Turned rows columns stride hopeless ragged s) (t : Shape) :
    m.statuses = t.statuses ↔ t = s := by
  rw [h.statuses, Shape.statuses_injective.eq_iff]
  exact eq_comm

theorem failed_iff (h : m.Turned rows columns stride hopeless ragged s) :
    m.statuses = Shape.failed.statuses ↔ hopeless := by
  rw [h.statuses_eq_iff]
  cases h with
  | failed why => exact iff_of_true rfl why
  | flat fine => exact iff_of_false nofun fine
  | straight fine => exact iff_of_false nofun fine
  | sloped fine => exact iff_of_false nofun fine

theorem sloped_iff (h : m.Turned rows columns stride hopeless ragged s)
    (straight : m.horizontal.status = .built) : m.slope.status = .built ↔ ragged := by
  cases h with
  | failed _ _ horizontal => rw [horizontal] at straight; cases straight
  | flat _ _ horizontal => rw [horizontal] at straight; cases straight
  | straight _ _ _ even slope => exact iff_of_false (by rw [slope]; nofun) even
  | sloped _ _ _ uneven slope => exact iff_of_true slope.status uneven

theorem track (h : m.Turned rows columns stride hopeless ragged s) (d : Direction) :
    m.track d = .failed ∨ (m.track d).Holds (·.Spans d rows columns stride) := by
  cases h <;> cases d <;> first | exact .inl ‹_› | exact .inr ‹_›

end Turned

theorem turned_addFields {m : PageModel K} (built : m.redirect = none)
    {rows columns stride : Nat} (stepped : m.stride = stride)
    (vertical : m.vertical.Holds (·.Spans .vertical rows columns stride)) {hopeless : Prop}
    (fine : ¬ hopeless) {e : EdgeFit K}
    (horizontal : e.horizontal.Spans .horizontal rows columns stride)
    {ragged : Prop} (slope : (¬ ragged ∧ e.slope = none) ∨
      (ragged ∧ ∃ s, e.slope = some s ∧ s.Spans .slope rows columns stride)) :
    ∃ next, m.addFields e = .ok next ∧
      next.statistics.lineCount = m.statistics.lineCount ∧
      ∃ s, next.Turned rows columns stride hopeless ragged s := by
  have spans : ∀ s, e.slope = some s → s.Spans .slope rows columns stride := by
    obtain ⟨-, none⟩ | ⟨-, t, given, spans⟩ := slope
    · rw [none]
      nofun
    · rw [given]
      rintro s ⟨rfl⟩
      exact spans
  obtain ⟨next, added, sameVertical, nextHorizontal, nextSlope, sameCount⟩ :=
    addFields_eq_ok built ⟨horizontal.direction, by rw [horizontal.stride, stepped]⟩
      fun s given => ⟨(spans s given).direction, by rw [(spans s given).stride, stepped]⟩
  refine ⟨next, added, sameCount, ?_⟩
  rw [← sameVertical] at vertical
  obtain ⟨even, none⟩ | ⟨uneven, t, given, -⟩ := slope
  · rw [none] at nextSlope
    exact ⟨.straight, .straight fine vertical ⟨_, nextHorizontal, horizontal⟩ even nextSlope⟩
  · rw [given] at nextSlope
    exact ⟨.sloped, .sloped fine vertical ⟨_, nextHorizontal, horizontal⟩ uneven
      ⟨t, nextSlope, spans t given⟩⟩

end PageModel

end Shapes

/-! ### Reports -/

section Reports

variable {K : Type} [Scalar K]

def TooFew (least : Value K) (lines : List (TextLine K)) : Prop :=
  least.greaterThan lines.length = .ok true

def Uncovered (lines : List (TextLine K)) (height : Int) : Prop :=
  ∃ coverage, TextLine.coverage lines height = .ok coverage ∧ coverage.enough = false

theorem not_uncovered {lines : List (TextLine K)} {height : Int} {coverage : TextLine.Coverage}
    (covers : TextLine.coverage lines height = .ok coverage) (covered : coverage.enough = true) :
    ¬ Uncovered lines height := by
  rintro ⟨other, covers', uncovered⟩
  obtain rfl := Except.ok.inj (covers.symm.trans covers')
  rw [covered] at uncovered
  cases uncovered

def Scattered (lines : List (TextLine K)) : Prop :=
  ∃ fits, lines.mapM LineFit.ofLine = .ok fits ∧ (LineFit.consistent fits).length < 3

def Hopeless (least : Value K) (lines : List (TextLine K)) (height : Int) : Prop :=
  TooFew least lines ∨ Uncovered lines height ∨ Scattered lines

theorem not_hopeless {least : Value K} {lines : List (TextLine K)} {height : Int}
    {coverage : TextLine.Coverage} {fits : List (LineFit K)}
    (counted : least.greaterThan lines.length = .ok false)
    (covers : TextLine.coverage lines height = .ok coverage) (covered : coverage.enough = true)
    (fitted : lines.mapM LineFit.ofLine = .ok fits)
    (enough : 3 ≤ (LineFit.consistent fits).length) : ¬ Hopeless least lines height := by
  rintro (few | uncovered | ⟨others, fitted', scattered⟩)
  · rw [TooFew, counted] at few
    cases few
  · exact not_uncovered covers covered uncovered
  · obtain rfl := Except.ok.inj (fitted.symm.trans fitted')
    omega

def FiniteLines (lines : List (TextLine K)) : Prop :=
  ∀ l ∈ lines, ∀ p ∈ l, Scalar.notFinite? p.1 = none ∧ Scalar.notFinite? p.2 = none

instance (lines : List (TextLine K)) : Decidable (FiniteLines lines) :=
  inferInstanceAs (Decidable (∀ l ∈ lines, ∀ p ∈ l,
    Scalar.notFinite? p.1 = none ∧ Scalar.notFinite? p.2 = none))

namespace TextLine

theorem middle_mem {l : TextLine K} (filled : l ≠ []) : l.middle ∈ l := by
  have positive : 0 < l.length := List.length_pos_iff.mpr filled
  have inside : l.length / 2 < l.length := by omega
  rw [middle, List.getD_eq_getElem _ _ inside]
  exact List.getElem_mem inside

theorem coverage_eq_ok {lines : List (TextLine K)} (filled : ∀ l ∈ lines, l ≠ [])
    (finite : FiniteLines lines) (height : Int) : ∃ c, coverage lines height = .ok c := by
  have rows : ∀ l ∈ lines, ∃ y, l.row = .ok y := by
    intro l member
    refine ⟨Scalar.trunc l.middle.2, ?_⟩
    rw [row, Value.truncated, (finite l member _ (middle_mem (filled l member))).2]
  obtain ⟨ys, given⟩ := exists_mapM_eq_ok rows
  rw [coverage, given]
  cases ys with
  | nil => exact ⟨_, rfl⟩
  | cons y rest => exact ⟨_, rfl⟩

end TextLine

theorem EdgeFit.le_length_of_usable {points : List (Point K)} {whole : K}
    (usable : EdgeFit.usable points whole = true) : 3 ≤ points.length := by
  rw [EdgeFit.usable, Bool.and_eq_true] at usable
  exact of_decide_eq_true usable.1

namespace BuildReport

def Develops (m : PageModel K) (lines : List (TextLine K)) (rows columns stride : Nat)
    (hopeless : Prop) (report : BuildReport K) : Prop :=
  report.model.statistics.lineCount = m.statistics.lineCount ∧
    ∃ s, report.model.Turned rows columns stride hopeless (Ragged lines m.width) s

section Steps

variable {m : PageModel K} {columns rows stride : Nat} {hopeless : Prop}

theorem runs_addEdges (built : m.redirect = none) (stepped : m.stride = stride)
    (wide : 0 < columns) (tall : 0 < rows) (positive : 0 < stride)
    (vertical : m.vertical.Holds (·.Spans .vertical rows columns stride)) (fine : ¬ hopeless)
    (lines : List (TextLine K)) (fit : VerticalFit K) :
    Runs (FitFault K) (Develops m lines rows columns stride hopeless)
      (addEdges m lines fit columns rows stride) := by
  have alone : ∀ ends, Runs (FitFault K) (Develops m lines rows columns stride hopeless)
      (.ok (alone m lines fit ends)) := fun ends => ⟨rfl, .flat, .flat fine vertical rfl rfl⟩
  have left := TextLine.length_leftEnds lines
  have right := TextLine.length_rightEnds lines
  rw [addEdges_eq]
  dsimp only
  split
  · exact alone none
  · rename_i enough
    have three : 3 ≤ (TextLine.leftEnds lines).length := Nat.le_of_not_lt enough
    refine (EdgeFit.runs_flush (by omega) .left _).bind fun leftFlush onLeft leftFilter => ?_
    refine (EdgeFit.runs_flush (by omega) .right _).bind fun rightFlush onRight rightFilter => ?_
    have even := not_ragged_iff onLeft onRight leftFilter rightFilter
    split
    · exact alone _
    · rename_i usable
      rw [Bool.not_eq_true, Bool.not_eq_false', Bool.and_eq_true] at usable
      refine (EdgeFit.runs_ofFlush (EdgeFit.le_length_of_usable usable.1)
        (EdgeFit.le_length_of_usable usable.2) _ m.height (m.page % 2 == 1) wide tall positive).bind
        fun edges _ found => ?_
      obtain ⟨horizontal, slope⟩ := found
      have slope' : (¬ Ragged lines m.width ∧ edges.slope = none) ∨ (Ragged lines m.width ∧
          ∃ s, edges.slope = some s ∧ s.Spans .slope rows columns stride) := by
        obtain ⟨all, none⟩ | ⟨some, given⟩ := slope
        · exact .inl ⟨even.mpr all, none⟩
        · refine .inr ⟨by_contra fun not => ?_, given⟩
          rw [even.mp not] at some
          cases some
      obtain ⟨next, added, develops⟩ :=
        PageModel.turned_addFields built stepped vertical fine horizontal slope'
      rw [added]
      exact develops

theorem runs_withField (built : m.redirect = none) (stepped : m.stride = stride)
    (wide : 0 < columns) (tall : 0 < rows) (positive : 0 < stride) {fit : VerticalFit K}
    (enough : 3 ≤ fit.lines.length) (fine : ¬ hopeless) (lines : List (TextLine K)) :
    Runs (FitFault K) (Develops m lines rows columns stride hopeless)
      (fit.field columns rows stride >>= fun field =>
        ((m.withLines fit).setField field).result >>= fun flat =>
          addEdges flat lines fit columns rows stride) := by
  refine (VerticalFit.runs_field enough wide tall positive).bind fun field _ spans => ?_
  have on : (m.withLines fit).redirect = none := built
  have same : (field.stride : Int) = (m.withLines fit).stride := by
    rw [spans.stride]
    exact stepped.symm
  let flat := (m.withLines fit).setTrack .vertical (.held .pending field)
  have on' : flat.redirect = none := built
  have stepped' : flat.stride = stride := stepped
  rw [PageModel.setField_result on, if_pos same, spans.direction]
  exact runs_addEdges on' stepped' wide tall positive ⟨field, rfl, spans⟩ fine lines fit

end Steps

/-- What a report says of a page: which shape the model has and why, how many lines it was built
from, and where its fields are sampled. -/
structure Reflects (b : BuildSettings) (ink : Grid Bool) (least : Value K)
    (lines : List (TextLine K)) (report : BuildReport K) : Prop where
  shape : ∃! s : Shape, report.model.statuses = s.statuses
  failed_iff : report.model.statuses = Shape.failed.statuses ↔ Hopeless least lines ink.height
  sloped_iff : report.model.horizontal.status = .built →
    (report.model.slope.status = .built ↔ Ragged lines ink.width)
  lineCount : report.model.statistics.lineCount = lines.length
  held_iff : ∀ d, (∃ f, (report.model.track d).field? = some f) ↔
    (report.model.track d).status = .built
  fields : ∀ d f, (report.model.track d).field? = some f → f.direction = d ∧
    (f.rows : Int) = sampleCount ink.height b.stride ∧
    (f.columns : Int) = sampleCount ink.width b.stride ∧ f.stride = b.stride

theorem Develops.reflects {b : BuildSettings} {ink : Grid Bool} {page : Nat} {least : Value K}
    {lines : List (TextLine K)} {report : BuildReport K} {rows columns : Nat}
    (tall : (rows : Int) = sampleCount ink.height b.stride)
    (wide : (columns : Int) = sampleCount ink.width b.stride)
    (h : report.Develops (start b ink page lines.length) lines rows columns b.stride
      (Hopeless least lines ink.height)) : report.Reflects b ink least lines := by
  obtain ⟨lineCount, s, turned⟩ := h
  exact {
    shape := ⟨s, turned.statuses, fun t same => (turned.statuses_eq_iff t).mp same⟩
    failed_iff := turned.failed_iff
    sloped_iff := turned.sloped_iff
    lineCount := lineCount
    held_iff := by
      intro d
      obtain failed | ⟨f, held, -⟩ := turned.track d
      · rw [failed]
        exact iff_of_false nofun nofun
      · rw [held]
        exact iff_of_true ⟨f, rfl⟩ rfl
    fields := by
      intro d f held
      obtain failed | holds := turned.track d
      · rw [failed] at held
        cases held
      · have spans := holds.field held
        exact ⟨spans.direction, by rw [spans.rows, tall], by rw [spans.columns, wide],
          spans.stride⟩ }

theorem runs_ofLines (b : BuildSettings) {ink : Grid Bool} (tall : 0 < ink.height)
    (wide : 0 < ink.width) (page : Nat) {least : Value K}
    (number : ∀ n, ∃ few, least.greaterThan n = .ok few) {detected : List (TextLine K)}
    (finite : FiniteLines detected) :
    Runs (FitFault K) (fun report =>
      report.Reflects b ink least (detected.filter fun l => decide (3 ≤ l.length)))
      (ofLines b ink page least detected) := by
  obtain ⟨lines, given⟩ : ∃ lines, detected.filter (fun l => decide (3 ≤ l.length)) = lines :=
    ⟨_, rfl⟩
  have kept : ∀ l ∈ lines, l ∈ detected ∧ 3 ≤ l.length :=
    fun l member => TextLine.three_le_of_mem (given ▸ member)
  have filled : ∀ l ∈ lines, l ≠ [] := fun l member =>
    List.ne_nil_of_length_pos (Nat.lt_of_lt_of_le (by decide) (kept l member).2)
  have positive : 0 < b.stride := Nat.lt_of_lt_of_le (by decide) b.stride_ge
  have tall' := sampleCount_pos tall positive
  have wide' := sampleCount_pos wide positive
  suffices develops : Runs (FitFault K) (Develops (start b ink page lines.length) lines
      (sampleCount ink.height b.stride).toNat (sampleCount ink.width b.stride).toNat b.stride
      (Hopeless least lines ink.height)) (ofLines b ink page least detected) by
    rw [given]
    exact develops.mono fun report h => h.reflects (by omega) (by omega)
  rw [ofLines_eq, given]
  dsimp only
  rw [rows_start b tall, columns_start b wide]
  obtain ⟨few, counted⟩ := number lines.length
  rw [counted]
  cases few with
  | true => exact ⟨rfl, .failed, .failed (.inl counted) rfl rfl rfl⟩
  | false =>
      obtain ⟨c, covers⟩ := TextLine.coverage_eq_ok filled
        (fun l member => finite l (kept l member).1) ink.height
      change Runs _ _ (TextLine.coverage lines ink.height >>= _)
      rw [covers]
      change Runs _ _ (if !c.enough then _ else _)
      cases covered : c.enough with
      | false => exact ⟨rfl, .failed, .failed (.inr (.inl ⟨c, covers, covered⟩)) rfl rfl rfl⟩
      | true =>
          refine (VerticalFit.runs_ofLines (fun l member => (kept l member).2) _ _).bind
            fun fit _ found => ?_
          obtain ⟨fits, fitted, none_iff, three⟩ := found
          cases fit with
          | none => exact ⟨rfl, .failed,
              .failed (.inr (.inr ⟨fits, fitted, none_iff.mp rfl⟩)) rfl rfl rfl⟩
          | some v =>
              have enough : 3 ≤ (LineFit.consistent fits).length :=
                Nat.le_of_not_lt fun few => Option.some_ne_none v (none_iff.mpr few)
              exact runs_withField rfl rfl wide' tall' positive (three v rfl)
                (not_hopeless counted covers covered fitted enough) lines

end BuildReport

end Reports

end PageFlattening
