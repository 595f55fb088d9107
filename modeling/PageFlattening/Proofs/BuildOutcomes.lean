import Mathlib
import PageFlattening.Proofs.BuildShapes
import PageFlattening.Proofs.Majority

/-! What building a page gives. A page with pixels is modelled in one of four shapes unless a fit is
singular or a figure cannot be rounded. With exact numbers every figure can be rounded, and removing
outliers never leaves fewer than three lines of the four that a page has to have. With doubles it
can: curvatures that overflow have no distance from their median, and all lines go. -/
namespace PageFlattening

namespace BuildReport

section AnyScalar

variable {K : Type} [Scalar K] {b : BuildSettings} {source : Source} {page minLines least : Value K}
  {ink : Grid Bool} {number : Nat}

/-- A request that is not refused: the image is a page with pixels, and the numbers of the page and
of the lines it needs are in range. -/
structure Accepted (b : BuildSettings) (source : Source) (page minLines : Value K) (ink : Grid Bool)
    (number : Nat) (least : Value K) : Prop where
  loaded : source.loadBit = .ok ink
  whole : (Page.bit ink).check = .ok ()
  numbered : checkPage page = .ok number
  minimum : checkMinLines b minLines = .ok least

theorem build_eq (loaded : source.loadBit = .ok ink) (numbered : checkPage page = .ok number)
    (minimum : checkMinLines b minLines = .ok least) (detector : Grid Bool → List (TextLine K)) :
    build b detector source page minLines = ofLines b ink number least (detector ink) := by
  rw [build, loaded, numbered, minimum]
  rfl

theorem checkMinLines_cases (minimum : checkMinLines b minLines = .ok least) :
    (∃ n : Int, least = .int n ∧ 4 ≤ n) ∨ ∃ x : K, least = .real x ∧ ¬ x < Scalar.ofInt 4 := by
  cases minLines with
  | null =>
      cases minimum
      exact .inl ⟨b.minLines, rfl, by exact_mod_cast b.minLines_ge⟩
  | bool given => cases given <;> cases minimum
  | int n =>
      by_cases low : n < 4
      · simp [checkMinLines, Value.lessThan, low, bind, Except.bind] at minimum
      · simp only [checkMinLines, Value.lessThan, low, bind, Except.bind] at minimum
        cases minimum
        exact .inl ⟨n, rfl, by omega⟩
  | real x =>
      by_cases low : x < Scalar.ofInt 4
      · simp [checkMinLines, Value.lessThan, low, bind, Except.bind] at minimum
      · simp only [checkMinLines, Value.lessThan, low, bind, Except.bind] at minimum
        cases minimum
        exact .inr ⟨x, rfl, low⟩
  | text s => cases minimum
  | list items => cases minimum
  | table entries => cases minimum

theorem greaterThan_eq_ok (minimum : checkMinLines b minLines = .ok least) (n : Int) :
    ∃ few, least.greaterThan n = .ok few := by
  obtain ⟨_, rfl, -⟩ | ⟨_, rfl, -⟩ := checkMinLines_cases minimum
  · exact ⟨_, rfl⟩
  · exact ⟨_, rfl⟩

theorem Accepted.runs_build (h : Accepted b source page minLines ink number least)
    {detector : Grid Bool → List (TextLine K)} (finite : FiniteLines (detector ink)) :
    Runs (FitFault K) (fun report =>
      report.Reflects b ink least ((detector ink).filter fun l => decide (3 ≤ l.length)))
      (build b detector source page minLines) := by
  obtain ⟨tall, wide⟩ := Page.pixels_of_check h.whole
  rw [build_eq h.loaded h.numbered h.minimum]
  exact runs_ofLines b tall wide number (greaterThan_eq_ok h.minimum) finite

theorem Reflects.vertical_built {lines : List (TextLine K)} {report : BuildReport K}
    (h : report.Reflects b ink least lines) (hopeful : ¬ Hopeless least lines ink.height) :
    report.model.vertical.status = .built := by
  obtain ⟨s, statuses, -⟩ := h.shape
  have vertical : report.model.vertical.status = s.statuses.1 := congrArg Prod.fst statuses
  rw [vertical]
  cases s with
  | failed => exact absurd (h.failed_iff.mp statuses) hopeful
  | flat => rfl
  | straight => rfl
  | sloped => rfl

theorem exists_field_of_ofLines {detected : List (TextLine K)} {report : BuildReport K}
    (h : ofLines b ink number least detected = .ok report) {lines : List (TextLine K)}
    (given : detected.filter (fun l => decide (3 ≤ l.length)) = lines)
    (hopeful : ¬ Hopeless least lines ink.height) :
    ∃ (v : VerticalFit K) (f : Field K),
      v.field (start b ink number lines.length : PageModel K).columns.toNat
        (start b ink number lines.length : PageModel K).rows.toNat b.stride = .ok f := by
  have enough : ∀ l ∈ lines, 3 ≤ l.length :=
    fun l member => (TextLine.three_le_of_mem (given ▸ member)).2
  rw [ofLines_eq, given] at h
  dsimp only at h
  obtain ⟨few, counted, h⟩ := exists_of_bind_eq_ok h
  cases few with
  | true => exact absurd (.inl counted) hopeful
  | false =>
      obtain ⟨c, covers, h⟩ := exists_of_bind_eq_ok h
      cases covered : c.enough with
      | false => exact absurd (.inr (.inl ⟨c, covers, covered⟩)) hopeful
      | true =>
          simp only [covered] at h
          obtain ⟨fit, read, h⟩ := exists_of_bind_eq_ok h
          have runs := VerticalFit.runs_ofLines enough
            (start b ink number lines.length : PageModel K).columns.toNat b.stride
          rw [read] at runs
          obtain ⟨fits, fitted, none_iff, -⟩ := runs
          cases fit with
          | none => exact absurd (.inr (.inr ⟨fits, fitted, none_iff.mp rfl⟩)) hopeful
          | some v =>
              obtain ⟨field, made, -⟩ := exists_of_bind_eq_ok h
              exact ⟨v, field, made⟩

theorem pixels_of_field {lineCount : Nat} {v : VerticalFit K} {f : Field K}
    (made : v.field (start b ink number lineCount : PageModel K).columns.toNat
      (start b ink number lineCount : PageModel K).rows.toNat b.stride = .ok f) :
    0 < ink.height ∧ 0 < ink.width := by
  obtain ⟨rows, columns⟩ := VerticalFit.field_size made
  have tall : 0 < f.rows := f.rows_pos
  have wide : 0 < f.columns := f.columns_pos
  rw [rows] at tall
  rw [columns] at wide
  constructor
  · by_contra empty
    have none : (start b ink number lineCount : PageModel K).rows = 0 :=
      if_pos (by simp [start, PageModel.blank]; omega)
    omega
  · by_contra empty
    have none : (start b ink number lineCount : PageModel K).columns = 0 :=
      if_pos (by simp [start, PageModel.blank]; omega)
    omega

end AnyScalar

/-! ### Exact numbers -/

section Exact

variable {b : BuildSettings} {source : Source} {page minLines least : Value Rat} {ink : Grid Bool}
  {number : Nat} {lines : List (TextLine Rat)}

theorem finite_rat (lines : List (TextLine Rat)) : FiniteLines lines := fun _ _ _ _ => ⟨rfl, rfl⟩

theorem four_le_length (minimum : checkMinLines b minLines = .ok least)
    (enough : ¬ TooFew least lines) : 4 ≤ lines.length := by
  obtain ⟨n, rfl, low⟩ | ⟨x, rfl, low⟩ := checkMinLines_cases minimum
  · have reached : ¬ (lines.length : Int) < n := by
      simpa [TooFew, Value.greaterThan] using enough
    omega
  · have reached : ¬ (Scalar.ofInt lines.length : Rat) < x := by
      simpa [TooFew, Value.greaterThan] using enough
    have four : ((4 : Int) : Rat) ≤ ((lines.length : Int) : Rat) :=
      (not_lt.mp low).trans (not_lt.mp reached)
    exact_mod_cast four

theorem not_scattered (minimum : checkMinLines b minLines = .ok least)
    (enough : ¬ TooFew least lines) : ¬ Scattered lines := by
  rintro ⟨fits, fitted, few⟩
  have four := four_le_length minimum enough
  have length : lines.length = fits.length := (mapM_eq_ok_iff.mp fitted).length_eq
  have filled : fits ≠ [] := List.ne_nil_of_length_pos (by omega)
  have majority := LineFit.half_lt_length_consistent filled
  omega

theorem hopeless_iff (minimum : checkMinLines b minLines = .ok least) (height : Int) :
    Hopeless least lines height ↔ TooFew least lines ∨ Uncovered lines height := by
  constructor
  · rintro (few | uncovered | scattered)
    · exact .inl few
    · exact .inr uncovered
    · exact .inl (by_contra fun enough => not_scattered minimum enough scattered)
  · rintro (few | uncovered)
    · exact .inl few
    · exact .inr (.inl uncovered)

end Exact

/-- Removing outliers keeps more than half of the curvatures. So where a page has lines enough and
they cover it, three of them are left for the fits of the columns, and the vertical field is
built. -/
theorem outliers_leave_majority :
    (∀ curvatures : List Rat, curvatures ≠ [] →
      curvatures.length / 2 + 1 ≤ curvatures.countP fun c =>
        decide (|c - (medianAndDeviation curvatures).1| ≤
          max (7 * (medianAndDeviation curvatures).2) (1 / 100000000))) ∧
    ∀ (b : BuildSettings) (detector : Grid Bool → List (TextLine Rat)) (source : Source)
      (page minLines : Value Rat) (ink : Grid Bool) (least : Value Rat)
      (lines : List (TextLine Rat)), source.loadBit = .ok ink →
      checkMinLines b minLines = .ok least →
      lines = (detector ink).filter (fun l => decide (3 ≤ l.length)) →
      ¬ TooFew least lines → ¬ Uncovered lines ink.height →
      (∀ columns stride, VerticalFit.ofLines lines columns stride ≠ .ok none) ∧
      (∀ columns stride v, VerticalFit.ofLines lines columns stride = .ok (some v) →
        3 ≤ v.levels.length) ∧
      ∀ report, build b detector source page minLines = .ok report →
        report.model.vertical.status = .built := by
  constructor
  · intro curvatures filled
    have majority := LineFit.half_lt_countP_isConsistent filled
    rw [funext (LineFit.isConsistent_eq curvatures)] at majority
    exact majority
  · rintro b detector source page minLines ink least lines loaded minimum given enough covered
    have hopeful : ¬ Hopeless least lines ink.height := by
      rw [hopeless_iff minimum]
      exact not_or.mpr ⟨enough, covered⟩
    have long : ∀ l ∈ lines, 3 ≤ l.length :=
      fun l member => (TextLine.three_le_of_mem (given ▸ member)).2
    have runs := VerticalFit.runs_ofLines long
    refine ⟨fun columns stride read => ?_, fun columns stride v read => ?_, fun report built => ?_⟩
    · specialize runs columns stride
      rw [read] at runs
      obtain ⟨fits, fitted, none_iff, -⟩ := runs
      exact not_scattered minimum enough ⟨fits, fitted, none_iff.mp rfl⟩
    · specialize runs columns stride
      rw [read] at runs
      obtain ⟨-, -, -, three⟩ := runs
      rw [VerticalFit.levels, List.length_map]
      exact three v rfl
    · rw [build] at built
      obtain ⟨_, loaded', built⟩ := exists_of_bind_eq_ok built
      obtain ⟨number, -, built⟩ := exists_of_bind_eq_ok built
      obtain ⟨_, minimum', made⟩ := exists_of_bind_eq_ok built
      obtain rfl := Except.ok.inj (loaded.symm.trans loaded')
      obtain rfl := Except.ok.inj (minimum.symm.trans minimum')
      obtain ⟨v, f, field⟩ := exists_field_of_ofLines made given.symm hopeful
      obtain ⟨tall, wide⟩ := pixels_of_field field
      have reflects := runs_ofLines b tall wide number (greaterThan_eq_ok minimum)
        (finite_rat (detector ink))
      rw [made, ← given] at reflects
      exact reflects.vertical_built hopeful

/-- A page that is accepted is modelled in one of the four shapes, unless a fit is singular or a
figure of it cannot be rounded. With exact numbers there are no such figures, and nothing but the
number of the lines and what they cover decides whether there is a vertical field. -/
theorem build_reflects :
    (∀ (K : Type) [Scalar K] (b : BuildSettings) (detector : Grid Bool → List (TextLine K))
      (source : Source) (page minLines : Value K) (ink : Grid Bool) (number : Nat)
      (least : Value K), Accepted b source page minLines ink number least →
      FiniteLines (detector ink) →
      build b detector source page minLines ≠ .error (.misuse .singularFit) →
      build b detector source page minLines ≠ .error (.misuse .notANumber) →
      build b detector source page minLines ≠ .error (.misuse .tooLarge) →
      ∃ report, build b detector source page minLines = .ok report ∧
        report.Reflects b ink least ((detector ink).filter fun l => decide (3 ≤ l.length))) ∧
    ∀ (b : BuildSettings) (detector : Grid Bool → List (TextLine Rat)) (source : Source)
      (page minLines : Value Rat) (ink : Grid Bool) (number : Nat) (least : Value Rat)
      (lines : List (TextLine Rat)), Accepted b source page minLines ink number least →
      lines = (detector ink).filter (fun l => decide (3 ≤ l.length)) →
      build b detector source page minLines ≠ .error (.misuse .singularFit) →
      ∃ report, build b detector source page minLines = .ok report ∧
        report.Reflects b ink least lines ∧
        (report.model.statuses = Shape.failed.statuses ↔
          TooFew least lines ∨ Uncovered lines ink.height) := by
  refine ⟨?_, ?_⟩
  · intro K _ b detector source page minLines ink number least accepted finite fits defined bounded
    refine (accepted.runs_build finite).exists_eq_ok fun fault fails => ?_
    obtain rfl | rfl | rfl := fails.cases
    · exact fits
    · exact defined
    · exact bounded
  · rintro b detector source page minLines ink number least lines accepted rfl fits
    obtain ⟨report, built, reflects⟩ :=
      (accepted.runs_build (finite_rat (detector ink))).exists_eq_ok
        fun fault fails => fails.singular ▸ fits
    refine ⟨report, built, reflects, ?_⟩
    rw [reflects.failed_iff, hopeless_iff accepted.minimum]

end BuildReport

/-! The arched lines are four, none of them is an outlier, and they cover the page. -/

namespace Arched

theorem accepted : BuildReport.Accepted settings (.page (.bit ink)) (.int 3 : Value Rat) .null ink 3
    (.int 4) := ⟨rfl, rfl, rfl, rfl⟩

theorem hopeful : ¬ TooFew (.int 4 : Value Rat) lines ∧ ¬ Uncovered lines ink.height :=
  ⟨nofun, not_uncovered coverage_lines rfl⟩

theorem majority_left :
    (3 ≤ ([0, 0, 1, 100] : List Rat).countP fun c =>
      decide (|c - (medianAndDeviation [0, 0, 1, 100]).1| ≤
        max (7 * (medianAndDeviation [0, 0, 1, 100]).2) (1 / 100000000))) ∧
    (∀ columns stride, VerticalFit.ofLines lines columns stride ≠ .ok none) ∧
    ∃ report, BuildReport.build settings (fun _ => lines) (.page (.bit ink)) (.int 3) .null =
      .ok report ∧ report.model.vertical.status = .built := by
  obtain ⟨report, built, -⟩ := exists_report
  obtain ⟨read, -, status⟩ := BuildReport.outliers_leave_majority.2 settings (fun _ => lines)
    (.page (.bit ink)) (.int 3) .null ink (.int 4) lines rfl rfl rfl hopeful.1 hopeful.2
  exact ⟨BuildReport.outliers_leave_majority.1 [0, 0, 1, 100] (by decide), read, report, built,
    status report built⟩

end Arched

/-! Four lines on the page of the arched ones that go up so steeply on both sides that their
curvature is no double. -/

namespace Steep

def lines : List (TextLine Float) :=
  [10, 30, 50, 70].map fun y => [(-1e-10, 1e290), (0, y), (1e-10, 1e290)]

theorem finite : FiniteLines lines := by decide +kernel

theorem coverage_lines : TextLine.coverage lines 100 = .ok ⟨true, 10, 70⟩ := by decide +kernel

theorem curvatures_eq : (lines.mapM LineFit.ofLine).map (fun fits => fits.map LineFit.curvature) =
    .ok (List.replicate 4 (1 / 0)) := by
  decide +kernel

theorem ascending_replicate (n : Nat) (x : Float) :
    ascending (List.replicate n x) = List.replicate n x :=
  List.perm_replicate.mp (List.mergeSort_perm _ _)

/-- An infinite curvature has no distance from an infinite median. -/
theorem isConsistent_eq : LineFit.isConsistent (List.replicate 4 (1 / 0 : Float)) (1 / 0) =
    false := by
  simp only [LineFit.isConsistent, LineFit.band, medianAndDeviation, medianDistance,
    List.map_replicate, median, ascending_replicate]
  decide +kernel

theorem ofLines_eq (columns stride : Nat) : VerticalFit.ofLines lines columns stride =
    .ok none := by
  have curvatures := curvatures_eq
  rw [VerticalFit.ofLines_eq]
  cases fitted : lines.mapM LineFit.ofLine with
  | error fault =>
      rw [fitted] at curvatures
      cases curvatures
  | ok fits =>
      rw [fitted] at curvatures
      have all : fits.map LineFit.curvature = List.replicate 4 (1 / 0) := Except.ok.inj curvatures
      have gone : LineFit.consistent fits = [] := by
        refine List.filter_eq_nil_iff.mpr fun f member => ?_
        have infinite : f.curvature = 1 / 0 :=
          List.eq_of_mem_replicate (all ▸ List.mem_map_of_mem member)
        rw [all, infinite, isConsistent_eq]
        exact Bool.false_ne_true
      change VerticalFit.ofKept (LineFit.consistent fits) columns stride = .ok none
      rw [gone]
      exact VerticalFit.ofKept_of_lt (by decide) columns stride

theorem accepted : BuildReport.Accepted Arched.settings (.page (.bit Arched.ink))
    (.int 0 : Value Float) .null Arched.ink 0 (.int 4) := ⟨rfl, rfl, rfl, rfl⟩

theorem build_eq : BuildReport.build Arched.settings (fun _ => lines) (.page (.bit Arched.ink))
    (.int 0) .null = .ok (.failed (BuildReport.start Arched.settings Arched.ink 0 4) lines) := by
  have kept : lines.filter (fun l => decide (3 ≤ l.length)) = lines := rfl
  have counted : (Value.int 4 : Value Float).greaterThan lines.length = .ok false := rfl
  have covers : TextLine.coverage lines Arched.ink.height = .ok ⟨true, 10, 70⟩ := coverage_lines
  rw [BuildReport.build_eq accepted.loaded accepted.numbered accepted.minimum,
    BuildReport.ofLines_eq, kept]
  simp only [counted, covers, ofLines_eq, bind, Except.bind]
  rfl

/-- No field is built though there are lines enough and they cover the page. -/
theorem given_up : BuildReport.Accepted Arched.settings (.page (.bit Arched.ink))
      (.int 0 : Value Float) .null Arched.ink 0 (.int 4) ∧
    FiniteLines lines ∧ (∀ l ∈ lines, 3 ≤ l.length) ∧ ¬ TooFew (.int 4) lines ∧
    ¬ Uncovered lines Arched.ink.height ∧
    ∃ report, BuildReport.build Arched.settings (fun _ => lines) (.page (.bit Arched.ink)) (.int 0)
      .null = .ok report ∧ report.model.statuses = Shape.failed.statuses := by
  exact ⟨accepted, finite, by decide, nofun, not_uncovered coverage_lines rfl, _, build_eq, rfl⟩

theorem reflected :
    (∃ report, BuildReport.build Arched.settings (fun _ => Arched.lines)
      (.page (.bit Arched.ink)) (.int 3) .null = .ok report ∧
      report.Reflects Arched.settings Arched.ink (.int 4) Arched.lines ∧
      report.model.statuses ≠ Shape.failed.statuses) ∧
    ∃ report, BuildReport.build Arched.settings (fun _ => lines) (.page (.bit Arched.ink)) (.int 0)
      .null = .ok report ∧ report.Reflects Arched.settings Arched.ink (.int 4) lines := by
  constructor
  · obtain ⟨report, built, -⟩ := Arched.exists_report
    obtain ⟨report, built, reflects, failed_iff⟩ := BuildReport.build_reflects.2 Arched.settings
      (fun _ => Arched.lines) (.page (.bit Arched.ink)) (.int 3) .null Arched.ink 3 (.int 4)
      Arched.lines Arched.accepted rfl (by rw [built]; nofun)
    refine ⟨report, built, reflects, ?_⟩
    rw [ne_eq, failed_iff]
    exact not_or.mpr Arched.hopeful
  · exact BuildReport.build_reflects.1 Float Arched.settings (fun _ => lines)
      (.page (.bit Arched.ink)) (.int 0) .null Arched.ink 0 (.int 4) accepted finite
      (by rw [build_eq]; nofun) (by rw [build_eq]; nofun) (by rw [build_eq]; nofun)

end Steep

end PageFlattening
