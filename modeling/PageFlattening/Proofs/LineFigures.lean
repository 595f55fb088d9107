import Mathlib
import PageFlattening.Proofs.BetweenPixels
import PageFlattening.Proofs.Evaluation
import PageFlattening.Proofs.FieldPresence
import PageFlattening.Proofs.LineOrder
import PageFlattening.Proofs.Majority

/-! The figures of the lines of a page. Heights and curvatures are sorted each by itself, so that
the ends of the curvatures are the least and the greatest of the lines that were kept; rounding
keeps their order, and their spread is not negative. What the edges of the text add later leaves
these figures alone, and so they are what a check of the model finds. -/
namespace PageFlattening

/-! ### Rounding -/

structure RoundsTo (q : Rat) (n : Int) : Prop where
  nearest : ∀ k : Int, |q - n| ≤ |q - k|
  even : ∀ k : Int, k ≠ n → |q - k| = |q - n| → n % 2 = 0

theorem roundsTo_ratNearest (q : Rat) : RoundsTo q (ratNearest q) := by
  have error := abs_sub_ratNearest_le q
  refine ⟨fun k => ?_, fun k apart tie => ratNearest_even ?_⟩
  · rcases eq_or_ne k (ratNearest q) with rfl | apart
    · exact le_rfl
    · linarith [one_le_distances apart q]
  · linarith [one_le_distances apart q]

namespace RoundsTo

variable {p q : Rat} {m n k : Int}

theorem twice_le (h : RoundsTo q n) (above : n < k) : 2 * q ≤ n + k := by
  have apart : (n : Rat) < k := by exact_mod_cast above
  have near := sq_le_sq.mpr (h.nearest k)
  nlinarith

theorem le_twice (h : RoundsTo q n) (below : k < n) : (k : Rat) + n ≤ 2 * q := by
  have apart : (k : Rat) < n := by exact_mod_cast below
  have near := sq_le_sq.mpr (h.nearest k)
  nlinarith

/-- Numbers in the wrong order after rounding would both be in the middle of two integers, and these
would be even both. -/
theorem mono (h : RoundsTo p m) (h' : RoundsTo q n) (le : p ≤ q) : m ≤ n := by
  by_contra wrong
  have below : n < m := not_le.mp wrong
  have middle : 2 * p = n + m := le_antisymm (by linarith [h'.twice_le below]) (h.le_twice below)
  have middle' : 2 * q = n + m := le_antisymm (h'.twice_le below) (by linarith)
  have tie : p - n = -(p - m) := by linarith
  have tie' : q - m = -(q - n) := by linarith
  have even := h.even n below.ne (by rw [tie, abs_neg])
  have even' := h'.even m below.ne' (by rw [tie', abs_neg])
  have between := h.le_twice (show n + 1 < m by omega)
  push_cast at between
  linarith

end RoundsTo

theorem roundsTo_of_toMicro {x : Rat} {n : Int} (h : toMicro x = .ok n) :
    RoundsTo (1000000 * x) n := by
  obtain rfl := Except.ok.inj ((scaled_eq 1000000 x).symm.trans h)
  change RoundsTo _ (ratNearest (((1000000 : Int) : Rat) * x))
  push_cast
  exact roundsTo_ratNearest _

/-! ### The lines that were kept -/

theorem head?_ascending (xs : List Rat) : (ascending xs).head? = least? xs := by
  have sorted := (pairwise_ascending xs).imp fun {a b} le => min_eq_left le
  rw [least?_eq_min?, ← min?_perm (List.mergeSort_perm xs _), ← List.min?_eq_head? sorted]
  rfl

theorem getLast?_ascending (xs : List Rat) : (ascending xs).getLast? = greatest? xs := by
  have sorted : (ascending xs).reverse.Pairwise fun a b => max a b = a :=
    List.pairwise_reverse.mpr ((pairwise_ascending xs).imp fun le => max_eq_left le)
  rw [greatest?_eq_max?, ← max?_perm ((List.reverse_perm _).trans (List.mergeSort_perm xs _)),
    ← List.head?_reverse, ← List.max?_eq_head? sorted]
  rfl

/-- What the figures of a page have to do with each other. The heights in the middle column and the
curvatures are in ascending order and as many as lines were kept, which is more than half of them;
the outer curvatures in millionths are those at the two ends, rounded. -/
structure LineFigures (kept : List (LineFit Rat)) (lineCount : Int) (middles curvatures : List Rat)
    (low high : Int) : Prop where
  downwards : middles.Pairwise (· ≤ ·)
  ascending : curvatures.Pairwise (· ≤ ·)
  measured : curvatures.Perm (kept.map LineFit.curvature)
  paired : middles.length = curvatures.length
  majority : lineCount / 2 + 1 ≤ curvatures.length
  most : curvatures.length ≤ lineCount
  first : ∃ c, curvatures.head? = some c ∧ toMicro c = .ok low ∧ RoundsTo (1000000 * c) low
  last : ∃ c, curvatures.getLast? = some c ∧ toMicro c = .ok high ∧ RoundsTo (1000000 * c) high
  ordered : low ≤ high

namespace VerticalFit

theorem lineFigures_ofKept {kept : List (LineFit Rat)} {columns stride count : Nat}
    {v : VerticalFit Rat} (h : ofKept kept columns stride = .ok (some v))
    (majority : count / 2 < kept.length) (most : kept.length ≤ count) :
    LineFigures kept count v.middles v.curvatures v.minCurvature v.maxCurvature := by
  have enough : 3 ≤ kept.length := by
    by_contra few
    rw [ofKept_of_lt (not_le.mp few)] at h
    cases h
  obtain ⟨low, high, least, greatest, eq⟩ := ofKept_of_le enough columns stride
  rw [eq] at h
  obtain ⟨low', rounded, h⟩ := exists_of_bind_eq_ok h
  obtain ⟨high', rounded', h⟩ := exists_of_bind_eq_ok h
  cases h
  have first := head?_ascending (kept.map (·.curvature))
  have last := getLast?_ascending (kept.map (·.curvature))
  rw [least] at first
  rw [greatest] at last
  have count : (ascending (kept.map (·.curvature))).length = kept.length := by
    rw [length_ascending, List.length_map]
  have ordered : low ≤ high := by
    rw [least?_eq_min?, List.min?_eq_some_iff] at least
    rw [greatest?_eq_max?, List.max?_eq_some_iff] at greatest
    exact least.2 high greatest.1
  exact {
    downwards := by
      rw [VerticalFit.middles, middles_mergeSort]
      exact pairwise_ascending _
    ascending := pairwise_ascending _
    measured := List.mergeSort_perm _ _
    paired := by
      rw [VerticalFit.middles, List.length_map, List.length_mergeSort, List.length_map]
      exact count.symm
    majority := by
      dsimp only
      omega
    most := by
      dsimp only
      omega
    first := ⟨low, first, rounded, roundsTo_of_toMicro rounded⟩
    last := ⟨high, last, rounded', roundsTo_of_toMicro rounded'⟩
    ordered := (roundsTo_of_toMicro rounded).mono (roundsTo_of_toMicro rounded') (by linarith) }

theorem lineFigures_ofLines {lines : List (TextLine Rat)} {columns stride : Nat}
    {v : VerticalFit Rat} (h : ofLines lines columns stride = .ok (some v)) :
    ∃ fits, lines.mapM LineFit.ofLine = .ok fits ∧ LineFigures (LineFit.consistent fits)
      lines.length v.middles v.curvatures v.minCurvature v.maxCurvature := by
  rw [ofLines_eq] at h
  obtain ⟨fits, fitted, h⟩ := exists_of_bind_eq_ok h
  have length : lines.length = fits.length := (mapM_eq_ok_iff.mp fitted).length_eq
  have filled : fits ≠ [] := by
    rintro rfl
    cases h
  refine ⟨fits, fitted, ?_⟩
  rw [length]
  exact lineFigures_ofKept h (LineFit.half_lt_length_consistent filled)
    (List.length_filter_le _ fits)

end VerticalFit

/-! ### The model -/

namespace PageModel

variable {K : Type}

def lineFigures (m : PageModel K) : Int × List K × List K × Int × Int :=
  (m.statistics.lineCount, m.middles, m.curvatures, m.statistics.minCurvature,
    m.statistics.maxCurvature)

theorem SameFrame.lineFigures {m other : PageModel K} (h : m.SameFrame other) :
    other.lineFigures = m.lineFigures := by
  have same := congrArg PageModel.lineFigures h
  exact same

theorem setField_lineFigures {m next : PageModel K} {f : Field K}
    (h : (m.setField f).result = .ok next) : next.lineFigures = m.lineFigures := by
  have frame := run_frame m (.setField f)
  rw [Edit.run, Outcome.result_eq_ok_iff.mp h] at frame
  exact frame.lineFigures

theorem addFields_lineFigures {m next : PageModel K} {e : EdgeFit K}
    (h : m.addFields e = .ok next) : next.lineFigures = m.lineFigures := by
  obtain ⟨straight, set, h⟩ := exists_of_bind_eq_ok h
  have before : straight.lineFigures = (m.withEdges e).lineFigures := setField_lineFigures set
  cases given : e.slope with
  | none =>
      rw [given] at h
      cases h
      exact (markFailed_frame straight [.slope]).lineFigures.trans before
  | some slope =>
      rw [given] at h
      exact (setField_lineFigures h).trans before

end PageModel

namespace BuildReport

open PageModel

section AnyScalar

variable {K : Type} [Scalar K]

theorem addEdges_lineFigures {m : PageModel K} {lines : List (TextLine K)} {fit : VerticalFit K}
    {columns rows stride : Nat} {report : BuildReport K}
    (h : addEdges m lines fit columns rows stride = .ok report) :
    report.model.lineFigures = m.lineFigures := by
  have alone : ∀ ends, (alone m lines fit ends).model.lineFigures = m.lineFigures :=
    fun _ => (markFailed_frame m _).lineFigures
  rw [addEdges_eq] at h
  dsimp only at h
  split at h
  · cases h
    exact alone none
  · obtain ⟨left, -, h⟩ := exists_of_bind_eq_ok h
    obtain ⟨right, -, h⟩ := exists_of_bind_eq_ok h
    split at h
    · cases h
      exact alone _
    · obtain ⟨edges, -, h⟩ := exists_of_bind_eq_ok h
      obtain ⟨next, added, rfl⟩ := exists_of_map_eq_ok h
      exact addFields_lineFigures added

theorem exists_fit_of_built {b : BuildSettings} {ink : Grid Bool} {number : Nat} {least : Value K}
    {detected lines : List (TextLine K)} {report : BuildReport K}
    (h : ofLines b ink number least detected = .ok report)
    (given : detected.filter (fun l => decide (3 ≤ l.length)) = lines)
    (built : report.model.vertical.status = .built) :
    ∃ columns fit, VerticalFit.ofLines lines columns b.stride = .ok (some fit) ∧
      report.model.lineFigures =
        ((lines.length : Int), fit.middles, fit.curvatures, fit.minCurvature, fit.maxCurvature) := by
  have failed : ∀ m : PageModel K, (.ok (failed m lines) : Except Fault _) ≠ .ok report := by
    rintro m ⟨⟩
    cases built
  rw [ofLines_eq, given] at h
  dsimp only at h
  obtain ⟨few, -, h⟩ := exists_of_bind_eq_ok h
  split at h
  · exact absurd h (failed _)
  · obtain ⟨coverage, -, h⟩ := exists_of_bind_eq_ok h
    split at h
    · exact absurd h (failed _)
    · obtain ⟨read, lines', h⟩ := exists_of_bind_eq_ok h
      cases read with
      | none => exact absurd h (failed _)
      | some fit =>
          obtain ⟨field, -, h⟩ := exists_of_bind_eq_ok h
          obtain ⟨flat, set, h⟩ := exists_of_bind_eq_ok h
          exact ⟨_, fit, lines', (addEdges_lineFigures h).trans (setField_lineFigures set)⟩

end AnyScalar

theorem acceptsLines_iff (t : Thresholds) (s : LineStatistics) :
    t.acceptsLines s = true ↔ |s.minCurvature| ≤ t.limit .lineCurvature ∧
      |s.maxCurvature| ≤ t.limit .lineCurvature ∧
      (t.limit .lineSpreadFloor : Int) ≤ s.maxCurvature - s.minCurvature ∧
      s.maxCurvature - s.minCurvature ≤ t.limit .lineSpread := by
  simp only [Thresholds.acceptsLines, Bool.and_eq_true, decide_eq_true_eq, Int.abs_eq_natAbs]
  omega

/-- The figures of a model with a vertical field go together. So the spread that is checked is not
negative, and where its floor is zero only the ceilings decide whether the field is valid. -/
theorem build_lineFigures {b : BuildSettings} {detector : Grid Bool → List (TextLine Rat)}
    {source : Source} {page minLines : Value Rat} {report : BuildReport Rat}
    (h : build b detector source page minLines = .ok report)
    (built : report.model.vertical.status = .built) :
    let m := report.model
    let s := m.statistics
    (∃ ink fits, source.loadBit = .ok ink ∧
      ((detector ink).filter fun l => decide (3 ≤ l.length)).mapM LineFit.ofLine = .ok fits ∧
      LineFigures (LineFit.consistent fits) s.lineCount m.middles m.curvatures s.minCurvature
        s.maxCurvature) ∧
      0 ≤ s.maxCurvature - s.minCurvature ∧
      ∀ t : Thresholds, t.limit .lineSpreadFloor = 0 →
        ((m.validate t false).state.vertical.status = .valid ↔
          |s.minCurvature| ≤ t.limit .lineCurvature ∧ |s.maxCurvature| ≤ t.limit .lineCurvature ∧
            s.maxCurvature - s.minCurvature ≤ t.limit .lineSpread) := by
  intro m s
  rw [build] at h
  obtain ⟨ink, loaded, h⟩ := exists_of_bind_eq_ok h
  obtain ⟨number, -, h⟩ := exists_of_bind_eq_ok h
  obtain ⟨least, -, h⟩ := exists_of_bind_eq_ok h
  have original : m.isRedirect = false := by
    rw [isRedirect, (ofLines_drawn h).redirect]
    rfl
  obtain ⟨columns, fit, read, same⟩ := exists_fit_of_built h rfl built
  obtain ⟨fits, fitted, figures⟩ := VerticalFit.lineFigures_ofLines read
  simp only [lineFigures, Prod.mk.injEq] at same
  obtain ⟨lineCount, middles, curvatures, low, high⟩ := same
  rw [← lineCount, ← middles, ← curvatures, ← low, ← high] at figures
  have ordered : s.minCurvature ≤ s.maxCurvature := figures.ordered
  refine ⟨⟨ink, fits, loaded, fitted, figures⟩, by omega, fun t floor => ?_⟩
  obtain ⟨field, held⟩ := (Track.status_iff_field? m.vertical).mp (.inl built)
  have valid : (m.judged t false).verticalValid = t.acceptsLines s := by
    rw [judged_verticalValid original, passes, held]
    rfl
  rw [validate_eq, Outcome.done_state, ← Track.accepted_eq_true_iff]
  change (m.judged t false).verticalValid = true ↔ _
  rw [valid, acceptsLines_iff, floor]
  constructor
  · rintro ⟨low, high, -, spread⟩
    exact ⟨low, high, spread⟩
  · rintro ⟨low, high, spread⟩
    exact ⟨low, high, by omega, spread⟩

end BuildReport

/-! Four lines on the page of the arched ones, the third of which is bent too much. Two of the
others are bent by half a millionth more than a whole number of them. -/

namespace Fanned

def lines : List (TextLine Rat) :=
  [(5, 1395 / 10000000), (25, 1005 / 10000000), (45, 1 / 100), (65, 12 / 100000)].map
    fun (y, c) => [0, 10, 20].map fun x => (x, y + c * x * x)

theorem exists_report : ∃ report,
    BuildReport.build Arched.settings (fun _ => lines) (.page (.bit Arched.ink)) (.int 0) .null =
      .ok report ∧
    report.model.vertical.status = .built ∧
    report.model.lineFigures = (4, [5 + 558 / 10000, 25 + 402 / 10000, 65 + 48 / 1000],
      [1005 / 10000000, 12 / 100000, 1395 / 10000000], 100, 140) := by
  have sorted : ∀ read : List (SampledLine Rat),
      (read.mergeSort fun a b => decide (a.middle ≤ b.middle)) =
        read.insertionSort fun a b => a.middle ≤ b.middle :=
    mergeSort_key fun l : SampledLine Rat => l.middle
  have evaluated : ((BuildReport.ofLines Arched.settings Arched.ink 0 (.int 4) lines).toOption.map
      fun report => (report.model.vertical.status, report.model.lineFigures)) =
        some (.built, 4, [5 + 558 / 10000, 25 + 402 / 10000, 65 + 48 / 1000],
          [1005 / 10000000, 12 / 100000, 1395 / 10000000], 100, 140) := by
    simp only [BuildReport.ofLines, BuildReport.addEdges, TextLine.leftEnds, TextLine.rightEnds,
      topToBottom_eq, VerticalFit.ofLines, LineFit.consistent, LineFit.isConsistent, LineFit.band,
      medianAndDeviation, medianDistance, median, ascending_eq, sorted]
    decide +kernel
  obtain ⟨report, made, values⟩ := Option.map_eq_some_iff.mp evaluated
  rw [toOption_eq_some_iff] at made
  rw [Prod.mk.injEq] at values
  exact ⟨report, made, values⟩

/-- Three of the four lines are kept. Both outer curvatures go to the even side, and the standard
limits accept them. -/
theorem lines_figured : ∃ report fits,
    BuildReport.build Arched.settings (fun _ => lines) (.page (.bit Arched.ink)) (.int 0) .null =
      .ok report ∧
    lines.mapM LineFit.ofLine = .ok fits ∧
    LineFigures (LineFit.consistent fits) 4 report.model.middles
      [1005 / 10000000, 12 / 100000, 1395 / 10000000] 100 140 ∧
    (report.model.validate .standard false).state.vertical.status = .valid := by
  obtain ⟨report, made, built, figures⟩ := exists_report
  obtain ⟨⟨ink, fits, -, fitted, together⟩, -, checked⟩ := BuildReport.build_lineFigures made built
  simp only [PageModel.lineFigures, Prod.mk.injEq] at figures
  obtain ⟨lineCount, -, curvatures, low, high⟩ := figures
  rw [lineCount, curvatures, low, high] at together
  refine ⟨report, fits, made, fitted, together, (checked .standard rfl).mpr ?_⟩
  rw [low, high]
  decide

end Fanned

end PageFlattening
