import Mathlib
import PageFlattening.Proofs.BuildOutcomes

/-! Which pages cannot be built. Building makes several fits on lines that only their number and
what they cover have screened: every line over its abscissae, every column over the levels of the
lines, and the ends on each side, and the flush ones among them, over their heights. With exact
numbers a fit stops exactly where its abscissae are all zero. So each step has a rule that says when
it comes to its end, and together they name the five kinds of lines that stop building. -/
namespace PageFlattening

theorem exists_bind_eq_ok_iff {ε α β : Type} {x : Except ε α} {f : α → Except ε β} :
    (∃ b, (x >>= f) = .ok b) ↔ ∃ a, x = .ok a ∧ ∃ b, f a = .ok b := by
  constructor
  · rintro ⟨b, done⟩
    obtain ⟨a, first, rest⟩ := exists_of_bind_eq_ok done
    exact ⟨a, first, b, rest⟩
  · rintro ⟨a, rfl, b, rest⟩
    exact ⟨b, rest⟩

theorem exists_mapM_eq_ok_iff {ε α β : Type} {f : α → Except ε β} {xs : List α} :
    (∃ ys, xs.mapM f = .ok ys) ↔ ∀ x ∈ xs, ∃ y, f x = .ok y :=
  ⟨fun ⟨_, done⟩ _ member => exists_of_mapM_eq_ok done member, exists_mapM_eq_ok⟩

theorem exists_mem_ne_zero_iff {α : Type} {xs : List α} {f : α → Rat} :
    (∃ x ∈ xs, f x ≠ 0) ↔ ¬ ∀ x ∈ xs, f x = 0 := by
  push Not
  rfl

/-! ### The vertical field -/

theorem LineFit.exists_ofLine_iff {l : TextLine Rat} (enough : 3 ≤ l.length) :
    (∃ fit, ofLine l = .ok fit) ↔ Points.OffZero l := by
  have points : (l.map fun p => (p.1, p.2)) = l := List.map_id' l
  rw [ofLine, exists_bind_eq_ok_iff, fitQuadratic_map enough, points,
    ← Points.exists_fitParabola_iff]
  exact exists_congr fun curve => and_iff_left ⟨_, rfl⟩

namespace VerticalFit

theorem exists_ofKept (kept : List (LineFit Rat)) (columns stride : Nat) :
    ∃ fit, ofKept kept columns stride = .ok fit := by
  rcases Nat.lt_or_ge kept.length 3 with few | enough
  · exact ⟨none, ofKept_of_lt few columns stride⟩
  · obtain ⟨low, high, -, -, read⟩ := ofKept_of_le enough columns stride
    exact ⟨_, read⟩

theorem exists_ofLines_iff {lines : List (TextLine Rat)} (enough : ∀ l ∈ lines, 3 ≤ l.length)
    (columns stride : Nat) :
    (∃ fit, ofLines lines columns stride = .ok fit) ↔ ∀ l ∈ lines, Points.OffZero l := by
  rw [ofLines_eq, exists_bind_eq_ok_iff]
  calc (∃ fits, lines.mapM LineFit.ofLine = .ok fits ∧
        ∃ fit, ofKept (LineFit.consistent fits) columns stride = .ok fit)
      ↔ ∃ fits, lines.mapM LineFit.ofLine = .ok fits :=
        exists_congr fun fits => and_iff_left (exists_ofKept _ columns stride)
    _ ↔ ∀ l ∈ lines, ∃ fit, LineFit.ofLine l = .ok fit := exists_mapM_eq_ok_iff
    _ ↔ ∀ l ∈ lines, Points.OffZero l :=
        forall₂_congr fun l member => LineFit.exists_ofLine_iff (enough l member)

theorem exists_field_iff {v : VerticalFit Rat} (enough : 3 ≤ v.lines.length)
    {columns rows stride : Nat} (wide : 0 < columns) (tall : 0 < rows) (positive : 0 < stride) :
    (∃ f, v.field columns rows stride = .ok f) ↔ ∃ y ∈ v.levels, y ≠ 0 := by
  have column : ∀ x : Nat, Points.OffZero (v.lines.map fun l =>
      (l.level, l.level - l.heights.getD x (Scalar.ofInt 0))) ↔ ∃ y ∈ v.levels, y ≠ 0 := by
    intro x
    simp only [Points.OffZero, levels, List.mem_map, exists_exists_and_eq_and]
  have fits : (∃ curves, Field.lineFits v.levels (.ofGrid (v.displacements columns)) =
      .ok curves) ↔ ∃ y ∈ v.levels, y ≠ 0 := by
    rw [lineFits_eq, if_neg (Nat.not_lt.mpr enough), exists_mapM_eq_ok_iff]
    simp only [Points.exists_fitParabola_iff, column]
    exact ⟨fun each => each 0 (List.mem_range.mpr wide), fun off _ _ => off⟩
  rw [← fits, field, Field.ofLines, exists_bind_eq_ok_iff]
  refine exists_congr fun curves => and_iff_left_iff_imp.mpr fun given => ?_
  let samples := Field.readColumns curves (rows : Int).toNat (Scalar.ofInt stride)
  have width : samples.width = columns := Field.lineFits_length given
  exact ⟨_, Field.make_int .vertical (show 0 < samples.height from tall)
    (show 0 < samples.width by omega) positive⟩

end VerticalFit

/-! ### The edges -/

namespace EdgeFit

variable {lines : List (TextLine Rat)} {points : List (Point Rat)}

theorem offTop_topToBottom_iff {side : TextLine Rat → Point Rat} :
    OffTop (TextLine.topToBottom (lines.map side)) ↔ ∃ l ∈ lines, (side l).2 ≠ 0 := by
  simp only [OffTop, TextLine.topToBottom, List.mem_mergeSort, List.mem_map,
    exists_exists_and_eq_and]

theorem apart_leftEnds_iff :
    Apart (TextLine.leftEnds lines) ↔ ∃ l ∈ lines, ∃ other ∈ lines, l.first.2 ≠ other.first.2 := by
  simp only [Apart, TextLine.leftEnds, TextLine.topToBottom, List.mem_mergeSort, List.mem_map,
    exists_exists_and_eq_and]

theorem span_of_not_apart (filled : points ≠ []) (level : ¬ Apart points) : span points = 0 := by
  obtain ⟨p, inP, r, inR, between, -⟩ := span_eq filled
  have same : p.2 = r.2 := by_contra fun different => level ⟨p, inP, r, inR, different⟩
  rw [between, same, sub_self]

theorem usable_zero_iff : usable points 0 = true ↔ 3 ≤ points.length := by
  rw [usable, Bool.and_eq_true, decide_eq_true_iff, decide_eq_true_iff]
  refine and_iff_left_iff_imp.mpr fun enough => ?_
  obtain ⟨p, inP, r, -, between, bounds⟩ := span_eq (List.ne_nil_of_length_pos
    (Nat.lt_of_lt_of_le (by decide) enough))
  rw [between, mul_zero]
  exact sub_nonneg.mpr (bounds p inP).1

theorem flush_subset (enough : 2 ≤ points.length) {side : Side} {tolerance : Rat}
    {kept : List (Point Rat)} (found : flush side points tolerance = .ok kept) :
    kept ⊆ points := by
  have runs := runs_flush enough side tolerance
  rw [found] at runs
  obtain ⟨p, rfl⟩ := runs
  exact List.filter_subset_self points

theorem OffTop.of_subset (off : OffTop points) (level : ¬ Apart points)
    {kept : List (Point Rat)} (subset : kept ⊆ points) (filled : 0 < kept.length) :
    OffTop kept := by
  obtain ⟨p, inP, high⟩ := off
  obtain ⟨r, inR⟩ := List.exists_mem_of_length_pos filled
  refine ⟨r, inR, fun top => ?_⟩
  exact level ⟨p, inP, r, subset inR, fun same => high (same.trans top)⟩

theorem offTop_of_ofFlush {leftFlush rightFlush : List (Point Rat)}
    (enough : 3 ≤ rightFlush.length) {allFlush : Bool} {height : Int} {odd : Bool}
    {columns rows stride : Nat} {e : EdgeFit Rat}
    (fitted : ofFlush leftFlush rightFlush allFlush height odd columns rows stride = .ok e) :
    OffTop rightFlush := by
  rw [ofFlush] at fitted
  obtain ⟨leftCurve, -, fitted⟩ := exists_of_bind_eq_ok fitted
  obtain ⟨rightCurve, onRight, -⟩ := exists_of_bind_eq_ok fitted
  exact (exists_fitQuadratic_iff enough).mp ⟨rightCurve, onRight⟩

end EdgeFit

/-- Lines whose ends stop the fits of the edges: those on one side are all at the top of the page,
or the flush ones on the right are, while nothing is asked of their span because all lines begin at
one height. -/
inductive TopEnds (lines : List (TextLine Rat)) (width : Int) : Prop
  | left (top : ∀ l ∈ lines, l.first.2 = 0)
  | right (top : ∀ l ∈ lines, l.last.2 = 0)
  | flush {leftFlush rightFlush : List (Point Rat)}
      (level : ∀ l ∈ lines, ∀ other ∈ lines, l.first.2 = other.first.2)
      (onLeft : EdgeFit.flush .left (TextLine.leftEnds lines) (EdgeFit.tolerance width) =
        .ok leftFlush)
      (onRight : EdgeFit.flush .right (TextLine.rightEnds lines) (EdgeFit.tolerance width) =
        .ok rightFlush)
      (left : 3 ≤ leftFlush.length) (right : 3 ≤ rightFlush.length)
      (top : ∀ p ∈ rightFlush, p.2 = 0)

/-- Lines that stop building: one of them stands upright in column zero, or those that are kept are
all flattened onto the top of the page, or their ends stop the fits of the edges. -/
inductive Degenerate (lines : List (TextLine Rat)) (width : Int) (stride : Nat) : Prop
  | upright {l : TextLine Rat} (member : l ∈ lines) (zero : ∀ p ∈ l, p.1 = 0)
  | levels {v : VerticalFit Rat}
      (read : VerticalFit.ofLines lines (sampleCount width stride).toNat stride = .ok (some v))
      (top : ∀ y ∈ v.levels, y = 0)
  | ends (top : TopEnds lines width)

namespace BuildReport

section Edges

variable {m : PageModel Rat} {columns rows stride : Nat} {lines : List (TextLine Rat)}

theorem not_topEnds_of_addEdges (enough : 3 ≤ lines.length) {vertical : VerticalFit Rat}
    {report : BuildReport Rat}
    (added : addEdges m lines vertical columns rows stride = .ok report) :
    ¬ TopEnds lines m.width := by
  have left := TextLine.length_leftEnds lines
  have right := TextLine.length_rightEnds lines
  have three : ¬ (TextLine.leftEnds lines).length < EdgeFit.minPoints := by
    rw [left]
    exact Nat.not_lt.mpr enough
  rw [addEdges_eq] at added
  dsimp only at added
  rw [if_neg three] at added
  obtain ⟨leftFlush, onLeft, added⟩ := exists_of_bind_eq_ok added
  obtain ⟨rightFlush, onRight, added⟩ := exists_of_bind_eq_ok added
  intro ends
  cases ends with
  | left top =>
      have off := (EdgeFit.exists_flush_iff (by omega) .left _).mp ⟨leftFlush, onLeft⟩
      exact exists_mem_ne_zero_iff.mp (EdgeFit.offTop_topToBottom_iff.mp off) top
  | right top =>
      have off := (EdgeFit.exists_flush_iff (by omega) .right _).mp ⟨rightFlush, onRight⟩
      exact exists_mem_ne_zero_iff.mp (EdgeFit.offTop_topToBottom_iff.mp off) top
  | flush level onLeft' onRight' leftEnough rightEnough top =>
      obtain rfl := Except.ok.inj (onLeft.symm.trans onLeft')
      obtain rfl := Except.ok.inj (onRight.symm.trans onRight')
      have spanless : EdgeFit.span (TextLine.leftEnds lines) = 0 := by
        refine EdgeFit.span_of_not_apart (List.ne_nil_of_length_pos (by omega)) ?_
        rw [EdgeFit.apart_leftEnds_iff]
        rintro ⟨l, member, other, member', different⟩
        exact different (level l member other member')
      rw [spanless, EdgeFit.usable_zero_iff.mpr leftEnough,
        EdgeFit.usable_zero_iff.mpr rightEnough] at added
      obtain ⟨edges, fitted, -⟩ := exists_of_bind_eq_ok added
      exact exists_mem_ne_zero_iff.mp (EdgeFit.offTop_of_ofFlush rightEnough fitted) top

theorem exists_addEdges_iff (built : m.redirect = none) (stepped : m.stride = stride)
    (wide : 0 < columns) (tall : 0 < rows) (positive : 0 < stride) (enough : 3 ≤ lines.length)
    (vertical : VerticalFit Rat) :
    (∃ report, addEdges m lines vertical columns rows stride = .ok report) ↔
      ¬ TopEnds lines m.width := by
  refine ⟨fun ⟨_, added⟩ => not_topEnds_of_addEdges enough added, fun sound => ?_⟩
  have left : EdgeFit.OffTop (TextLine.leftEnds lines) :=
    EdgeFit.offTop_topToBottom_iff.mpr (exists_mem_ne_zero_iff.mpr fun top => sound (.left top))
  have right : EdgeFit.OffTop (TextLine.rightEnds lines) :=
    EdgeFit.offTop_topToBottom_iff.mpr (exists_mem_ne_zero_iff.mpr fun top => sound (.right top))
  refine (addEdges_eq_ok_of_offTop built stepped wide tall positive left right ?_ vertical).imp
    fun report added => added.1
  intro leftFlush rightFlush onLeft onRight leftUsable rightUsable
  have leftThree := EdgeFit.le_length_of_usable leftUsable
  have rightThree := EdgeFit.le_length_of_usable rightUsable
  -- Only ends that are all at one height span so little that usable flush ends may be as well.
  by_cases apart : EdgeFit.Apart (TextLine.leftEnds lines)
  · have leftApart := (EdgeFit.apart_of_usable apart.span_pos leftUsable).2
    have rightApart := (EdgeFit.apart_of_usable apart.span_pos rightUsable).2
    exact ⟨⟨leftThree, leftApart.offTop⟩, rightThree, rightApart.offTop⟩
  · have among := EdgeFit.flush_subset (by rw [TextLine.length_leftEnds]; omega) onLeft
    refine ⟨⟨leftThree, left.of_subset apart among (by omega)⟩, rightThree, ?_⟩
    refine exists_mem_ne_zero_iff.mpr fun top =>
      sound (.flush ?_ onLeft onRight leftThree rightThree top)
    intro l member other member'
    by_contra different
    exact apart (EdgeFit.apart_leftEnds_iff.mpr ⟨l, member, other, member', different⟩)

end Edges

theorem exists_withField_iff {m : PageModel Rat} (built : m.redirect = none)
    {columns rows stride : Nat} (stepped : m.stride = stride) (wide : 0 < columns) (tall : 0 < rows)
    (positive : 0 < stride) {fit : VerticalFit Rat} (kept : 3 ≤ fit.lines.length)
    {lines : List (TextLine Rat)} (enough : 3 ≤ lines.length) :
    (∃ report, (fit.field columns rows stride >>= fun field =>
      ((m.withLines fit).setField field).result >>= fun flat =>
        addEdges flat lines fit columns rows stride) = .ok report) ↔
      (∃ y ∈ fit.levels, y ≠ 0) ∧ ¬ TopEnds lines m.width := by
  rw [exists_bind_eq_ok_iff, ← VerticalFit.exists_field_iff kept wide tall positive,
    ← exists_and_right]
  refine exists_congr fun field => and_congr_right fun made => ?_
  have spans := VerticalFit.runs_field kept wide tall positive
  rw [made] at spans
  have on : (m.withLines fit).redirect = none := built
  have same : (field.stride : Int) = (m.withLines fit).stride := by
    rw [spans.stride]
    exact stepped.symm
  let flat := (m.withLines fit).setTrack .vertical (.held .pending field)
  have on' : flat.redirect = none := built
  have stepped' : flat.stride = stride := stepped
  rw [PageModel.setField_result on, if_pos same, spans.direction]
  exact exists_addEdges_iff on' stepped' wide tall positive enough fit

theorem ofLines_of_covered {K : Type} [Scalar K] (b : BuildSettings) {ink : Grid Bool}
    (tall : 0 < ink.height) (wide : 0 < ink.width) (page : Nat) {least : Value K}
    {detected lines : List (TextLine K)}
    (given : detected.filter (fun l => decide (3 ≤ l.length)) = lines)
    (counted : least.greaterThan lines.length = .ok false) {c : TextLine.Coverage}
    (covers : TextLine.coverage lines ink.height = .ok c) (covered : c.enough = true) :
    ofLines b ink page least detected =
      VerticalFit.ofLines lines (sampleCount ink.width b.stride).toNat b.stride >>= fun fit =>
        fit.elim (.ok (failed (start b ink page lines.length) lines)) fun v =>
          v.field (sampleCount ink.width b.stride).toNat (sampleCount ink.height b.stride).toNat
            b.stride >>= fun field =>
            (((start b ink page lines.length).withLines v).setField field).result >>= fun flat =>
              addEdges flat lines v (sampleCount ink.width b.stride).toNat
                (sampleCount ink.height b.stride).toNat b.stride := by
  rw [ofLines_eq, given]
  dsimp only
  rw [rows_start b tall, columns_start b wide, counted]
  change (TextLine.coverage lines ink.height >>= _) = _
  rw [covers]
  change (if !c.enough then _ else _) = _
  rw [covered]
  refine bind_congr fun fit => ?_
  cases fit with
  | none => rfl
  | some v => rfl

theorem exists_ofLines_iff (b : BuildSettings) {ink : Grid Bool} (tall : 0 < ink.height)
    (wide : 0 < ink.width) (page : Nat) {minLines least : Value Rat}
    (minimum : checkMinLines b minLines = .ok least) {detected lines : List (TextLine Rat)}
    (given : detected.filter (fun l => decide (3 ≤ l.length)) = lines)
    (enough : ¬ TooFew least lines) (covered : ¬ Uncovered lines ink.height) :
    (∃ report, ofLines b ink page least detected = .ok report) ↔
      ¬ Degenerate lines ink.width b.stride := by
  have long : ∀ l ∈ lines, 3 ≤ l.length :=
    fun l member => (TextLine.three_le_of_mem (given ▸ member)).2
  have positive : 0 < b.stride := Nat.lt_of_lt_of_le (by decide) b.stride_ge
  have kept : ∀ fit, VerticalFit.ofLines lines (sampleCount ink.width b.stride).toNat b.stride =
      .ok fit → ∃ v, fit = some v ∧ 3 ≤ v.lines.length := by
    intro fit read
    have runs := VerticalFit.runs_ofLines long (sampleCount ink.width b.stride).toNat b.stride
    rw [read] at runs
    obtain ⟨fits, fitted, none_iff, three⟩ := runs
    cases fit with
    | none => exact absurd ⟨fits, fitted, none_iff.mp rfl⟩ (not_scattered minimum enough)
    | some v => exact ⟨v, rfl, three v rfl⟩
  have rest := fun (v : VerticalFit Rat) (three : 3 ≤ v.lines.length) =>
    exists_withField_iff (m := start b ink page lines.length) rfl rfl
      (sampleCount_pos wide positive) (sampleCount_pos tall positive) positive three
      (Nat.le_of_succ_le (four_le_length minimum enough))
  obtain ⟨few, counted⟩ := greaterThan_eq_ok minimum lines.length
  obtain rfl : few = false := by
    cases few with
    | true => exact absurd counted enough
    | false => rfl
  obtain ⟨c, covers⟩ := TextLine.coverage_eq_ok
    (fun l member => List.ne_nil_of_length_pos (Nat.lt_of_lt_of_le (by decide) (long l member)))
    (finite_rat lines) ink.height
  have wholly : c.enough = true := by_contra fun short =>
    covered ⟨c, covers, eq_false_of_ne_true short⟩
  rw [ofLines_of_covered b tall wide page given counted covers wholly, exists_bind_eq_ok_iff]
  constructor
  · rintro ⟨fit, read, made⟩ degenerate
    obtain ⟨v, rfl, three⟩ := kept fit read
    obtain ⟨off, sound⟩ := (rest v three).mp made
    cases degenerate with
    | upright member zero =>
        have each := (VerticalFit.exists_ofLines_iff long _ _).mp ⟨some v, read⟩
        exact exists_mem_ne_zero_iff.mp (each _ member) zero
    | levels read' top =>
        cases read.symm.trans read'
        exact exists_mem_ne_zero_iff.mp off top
    | ends top => exact sound top
  · intro sound
    obtain ⟨fit, read⟩ := (VerticalFit.exists_ofLines_iff long
      (sampleCount ink.width b.stride).toNat b.stride).mpr fun l member =>
        exists_mem_ne_zero_iff.mpr fun zero => sound (.upright member zero)
    obtain ⟨v, rfl, three⟩ := kept fit read
    refine ⟨some v, read, (rest v three).mpr ⟨?_, fun top => sound (.ends top)⟩⟩
    exact exists_mem_ne_zero_iff.mpr fun top => sound (.levels read top)

theorem exists_ofLines_of_hopeless (b : BuildSettings) (ink : Grid Bool) (page : Nat)
    {minLines least : Value Rat} (minimum : checkMinLines b minLines = .ok least)
    {detected lines : List (TextLine Rat)}
    (given : detected.filter (fun l => decide (3 ≤ l.length)) = lines)
    (hopeless : TooFew least lines ∨ Uncovered lines ink.height) :
    ∃ report, ofLines b ink page least detected = .ok report := by
  rw [ofLines_eq, given]
  dsimp only
  obtain ⟨few, counted⟩ := greaterThan_eq_ok minimum lines.length
  cases few with
  | true =>
      rw [counted]
      exact ⟨_, rfl⟩
  | false =>
      have enough : ¬ TooFew least lines := by
        intro few
        rw [TooFew, counted] at few
        cases few
      obtain ⟨c, covers, uncovered⟩ := hopeless.resolve_left enough
      simp only [counted, covers, uncovered, bind, Except.bind]
      exact ⟨_, rfl⟩

section Requests

variable {b : BuildSettings} {source : Source} {page minLines least : Value Rat} {ink : Grid Bool}
  {number : Nat} {lines : List (TextLine Rat)} {detector : Grid Bool → List (TextLine Rat)}

theorem Accepted.exists_build_iff (h : Accepted b source page minLines ink number least)
    (given : (detector ink).filter (fun l => decide (3 ≤ l.length)) = lines) :
    (∃ report, build b detector source page minLines = .ok report) ↔
      ¬ (¬ TooFew least lines ∧ ¬ Uncovered lines ink.height ∧
        Degenerate lines ink.width b.stride) := by
  obtain ⟨tall, wide⟩ := Page.pixels_of_check h.whole
  rw [build_eq h.loaded h.numbered h.minimum]
  by_cases enough : TooFew least lines
  · exact iff_of_true (exists_ofLines_of_hopeless b ink number h.minimum given (.inl enough))
      fun stops => stops.1 enough
  · by_cases covered : Uncovered lines ink.height
    · exact iff_of_true (exists_ofLines_of_hopeless b ink number h.minimum given (.inr covered))
        fun stops => stops.2.1 covered
    · rw [exists_ofLines_iff b tall wide number h.minimum given enough covered, not_iff_not]
      exact ⟨fun degenerate => ⟨enough, covered, degenerate⟩, fun stops => stops.2.2⟩

theorem Accepted.singular_iff (h : Accepted b source page minLines ink number least) :
    build b detector source page minLines = .error (.misuse .singularFit) ↔
      ¬ ∃ report, build b detector source page minLines = .ok report := by
  have runs := h.runs_build (finite_rat (detector ink))
  cases outcome : build b detector source page minLines with
  | ok report => exact iff_of_false nofun (not_not.mpr ⟨report, rfl⟩)
  | error fault =>
      rw [outcome] at runs
      refine iff_of_true (congrArg Except.error (FitFault.singular runs)) ?_
      rintro ⟨report, returned⟩
      cases returned

end Requests

/-- Building gives a report that is true of the page, or stops in a fit that is singular or with a
figure that cannot be rounded. With exact numbers it stops exactly for degenerate lines that are
enough and cover the page, and gives a report for all others. -/
theorem build_stops_iff (b : BuildSettings) (source : Source) (ink : Grid Bool) (number : Nat) :
    (∀ (K : Type) [Scalar K] (detector : Grid Bool → List (TextLine K)) (page minLines : Value K)
      (least : Value K), Accepted b source page minLines ink number least →
      FiniteLines (detector ink) →
      (∃ report, build b detector source page minLines = .ok report ∧
        report.Reflects b ink least ((detector ink).filter fun l => decide (3 ≤ l.length))) ∨
      build b detector source page minLines = .error (.misuse .singularFit) ∨
      build b detector source page minLines = .error (.misuse .notANumber) ∨
      build b detector source page minLines = .error (.misuse .tooLarge)) ∧
    ∀ (detector : Grid Bool → List (TextLine Rat)) (page minLines : Value Rat) (least : Value Rat)
      (lines : List (TextLine Rat)), Accepted b source page minLines ink number least →
      lines = (detector ink).filter (fun l => decide (3 ≤ l.length)) →
      (build b detector source page minLines = .error (.misuse .singularFit) ↔
        ¬ TooFew least lines ∧ ¬ Uncovered lines ink.height ∧
          Degenerate lines ink.width b.stride) ∧
      (build b detector source page minLines ≠ .error (.misuse .singularFit) →
        ∃ report, build b detector source page minLines = .ok report ∧
          report.Reflects b ink least lines) := by
  constructor
  · intro K _ detector page minLines least accepted finite
    have runs := accepted.runs_build finite
    cases outcome : build b detector source page minLines with
    | ok report =>
        rw [outcome] at runs
        exact .inl ⟨report, rfl, runs⟩
    | error fault =>
        rw [outcome] at runs
        obtain rfl | rfl | rfl := FitFault.cases runs
        · exact .inr (.inl rfl)
        · exact .inr (.inr (.inl rfl))
        · exact .inr (.inr (.inr rfl))
  · intro detector page minLines least lines accepted given
    constructor
    · rw [accepted.singular_iff, accepted.exists_build_iff given.symm, not_not]
    · intro fits
      rw [given]
      exact (accepted.runs_build (finite_rat (detector ink))).exists_eq_ok
        fun fault fails => fails.singular ▸ fits

end BuildReport

/-! Four lines that stand upright in column zero, on the page of the arched ones. -/

namespace Upright

def lines (K : Type) [Scalar K] : List (TextLine K) :=
  [10, 30, 50, 70].map fun y : Int => [0, 1, 2].map fun d : Int =>
    (Scalar.ofInt 0, Scalar.ofInt (y + d))

theorem hopeful : ¬ TooFew (.int 4) (lines Rat) ∧ ¬ Uncovered (lines Rat) Arched.ink.height := by
  have covers : TextLine.coverage (lines Rat) 100 = .ok ⟨true, 11, 71⟩ := by decide +kernel
  exact ⟨nofun, not_uncovered covers rfl⟩

theorem degenerate : Degenerate (lines Rat) Arched.ink.width Arched.settings.stride :=
  .upright (l := [(0, 10), (0, 11), (0, 12)]) (by decide) (by decide)

/-- The upright lines stop the build, the arched ones are reported on, and so are the steep ones
though nothing can be fitted to them. -/
theorem stopped_or_reported :
    BuildReport.build Arched.settings (fun _ => lines Rat) (.page (.bit Arched.ink)) (.int 3)
      .null = .error (.misuse .singularFit) ∧
    (∃ report, BuildReport.build Arched.settings (fun _ => Arched.lines) (.page (.bit Arched.ink))
      (.int 3) .null = .ok report ∧
      report.Reflects Arched.settings Arched.ink (.int 4) Arched.lines) ∧
    ∃ report, BuildReport.build Arched.settings (fun _ => Steep.lines) (.page (.bit Arched.ink))
      (.int 0) .null = .ok report ∧
      report.Reflects Arched.settings Arched.ink (.int 4) Steep.lines := by
  have onPage := BuildReport.build_stops_iff Arched.settings (.page (.bit Arched.ink)) Arched.ink
  refine ⟨?_, ?_, ?_⟩
  · exact ((onPage 3).2 (fun _ => lines Rat) (.int 3) .null (.int 4) (lines Rat) Arched.accepted
      rfl).1.mpr ⟨hopeful.1, hopeful.2, degenerate⟩
  · obtain ⟨report, built, -⟩ := Arched.exists_report
    exact ((onPage 3).2 (fun _ => Arched.lines) (.int 3) .null (.int 4) Arched.lines
      Arched.accepted rfl).2 (by rw [built]; nofun)
  · refine ((onPage 0).1 Float (fun _ => Steep.lines) (.int 0) .null (.int 4) Steep.accepted
      Steep.finite).resolve_right ?_
    rw [Steep.build_eq]
    nofun

theorem accepted : BuildReport.Accepted Arched.settings (.page (.bit Arched.ink))
    (.int 0 : Value Float) .null Arched.ink 0 (.int 4) := ⟨rfl, rfl, rfl, rfl⟩

theorem stops_though_finite : BuildReport.Accepted Arched.settings (.page (.bit Arched.ink))
      (.int 0 : Value Float) .null Arched.ink 0 (.int 4) ∧
    FiniteLines (lines Float) ∧
    BuildReport.build Arched.settings (fun _ => lines Float) (.page (.bit Arched.ink)) (.int 0)
      .null = .error (.misuse .singularFit) := by
  have finite : FiniteLines (lines Float) := by decide +kernel
  refine ⟨accepted, finite, ?_⟩
  have kept : (lines Float).filter (fun l => decide (3 ≤ l.length)) = lines Float := rfl
  have counted : (Value.int 4 : Value Float).greaterThan (lines Float).length = .ok false := rfl
  have covers : TextLine.coverage (lines Float) Arched.ink.height = .ok ⟨true, 11, 71⟩ := by
    decide +kernel
  have fits : (lines Float).mapM LineFit.ofLine = .error (.misuse .singularFit) := rfl
  rw [BuildReport.build_eq accepted.loaded accepted.numbered accepted.minimum,
    BuildReport.ofLines_eq, kept]
  simp only [counted, covers, VerticalFit.ofLines_eq, fits, bind, Except.bind]
  rfl

end Upright

end PageFlattening
