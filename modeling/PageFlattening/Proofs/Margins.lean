import Mathlib
import PageFlattening.Proofs.Halving
import PageFlattening.Proofs.Processing
import PageFlattening.Proofs.SafeRendering
import PageFlattening.Proofs.Straightening

/-! How much of a page lies beyond the samples of its own model. A page is sampled at the fewest
places that cover what it was reduced to, so that at full size the samples leave out no more than
what was gained by rounding the reduced size up. There, and nowhere else, a field goes on with a
slope. -/
namespace PageFlattening

/-! ### Sizes -/

theorem sampleCount_natCast (length stride : Nat) (positive : 0 < stride) :
    sampleCount length stride = ((length + 2 * stride - 2) / stride : Nat) := by
  have sum : (length : Int) + 2 * stride - 2 = (length + 2 * stride - 2 : Nat) := by omega
  rw [sampleCount, sum, Int.fdiv_eq_ediv_of_nonneg _ (Int.natCast_nonneg _), Int.natCast_ediv]

theorem sampleCount_le_iff (length : Nat) {stride n : Nat} (positive : 0 < stride) (some : 0 < n) :
    sampleCount length stride ≤ n ↔ length ≤ (n - 1) * stride + 1 := by
  obtain ⟨k, rfl⟩ := Nat.exists_eq_add_one_of_ne_zero (Nat.ne_of_gt some)
  rw [sampleCount_natCast length stride positive, Int.ofNat_le,
    Nat.div_le_iff_le_mul_add_pred positive, Nat.add_sub_cancel, Nat.mul_add, Nat.mul_comm k]
  omega

theorem sampleCount_isLeast {length stride : Nat} (filled : 0 < length) (positive : 0 < stride) :
    ∃ n : Nat, sampleCount length stride = n ∧
      IsLeast {k | 1 ≤ k ∧ length ≤ (k - 1) * stride + 1} n := by
  refine ⟨_, sampleCount_natCast length stride positive, ?_⟩
  have least := fun {k : Nat} => sampleCount_le_iff (n := k) length positive
  simp only [sampleCount_natCast length stride positive, Int.ofNat_le] at least
  have some : 0 < (length + 2 * stride - 2) / stride := Nat.div_pos (by omega) positive
  exact ⟨⟨some, (least some).mp (Nat.le_refl _)⟩, fun k reach => (least reach.1).mpr reach.2⟩

theorem le_extent_of_reduced {length stride reduction n : Nat} (reduced : 0 < reduction)
    (reach : length ⌈/⌉ reduction ≤ (n - 1) * stride + 1) :
    length ≤ Axis.extent n (stride * reduction) + (reduction - 1) := by
  have whole := (ceilDiv_le_iff_le_mul reduced).mp reach
  rw [Nat.mul_add, Nat.mul_one, Nat.mul_comm reduction, Nat.mul_assoc] at whole
  rw [Axis.extent]
  omega

/-- A reduced side is sampled at the fewest places that reach over it, and these leave out less than
one reduced pixel of the whole side. -/
theorem sampleCount_reduced {side stride reduction : Nat} (filled : 0 < side ⌈/⌉ reduction)
    (positive : 0 < stride) (reduced : 0 < reduction) :
    ∃ n : Nat, sampleCount (side ⌈/⌉ reduction : Nat) stride = n ∧
      IsLeast {k | 1 ≤ k ∧ side ⌈/⌉ reduction ≤ (k - 1) * stride + 1} n ∧
      side ≤ Axis.extent n (stride * reduction) + (reduction - 1) := by
  obtain ⟨n, count, least⟩ := sampleCount_isLeast filled positive
  exact ⟨n, count, least, le_extent_of_reduced reduced least.1.2⟩

/-! ### Values -/

namespace Grid

variable {K : Type} [Scalar K]

def Agrees (g whole : Grid K) : Prop :=
  ∀ y x, y < g.height → x < g.width → y < whole.height → x < whole.width →
    whole.value y x = g.value y x

theorem agrees_growRight (g source : Grid K) (count : Nat) :
    g.Agrees (g.growRight source count) := by
  intro y x row column _ (beside : x < g.width + count)
  rw [growRight, value, get_ofFn _ _ row beside, if_pos column]

theorem agrees_growDown (g source : Grid K) (count : Nat) :
    g.Agrees (g.growDown source count) := by
  intro y x row column (below : y < g.height + count) _
  rw [growDown, value, get_ofFn _ _ below column, if_pos row]

theorem Agrees.trans {g wide whole : Grid K} (h : g.Agrees wide) (h' : wide.Agrees whole)
    (tall : g.height ≤ wide.height) (broad : g.width ≤ wide.width) : g.Agrees whole :=
  fun y x row column row' column' =>
    (h' y x (by omega) (by omega) row' column').trans (h y x row column (by omega) (by omega))

theorem agrees_refl (g : Grid K) : g.Agrees g := fun _ _ _ _ _ _ => rfl

theorem agrees_extend {g whole : Grid K} {right bottom : Int} {source : Option (Grid K)}
    (h : g.extend right bottom source = .ok whole) : g.Agrees whole := by
  unfold extend at h
  generalize right.toNat = across at h
  generalize bottom.toNat = down at h
  dsimp only at h
  generalize widened : (if across = 0 then g else g.growRight (source.getD g) across) = wide at h
  generalize (if across = 0 then source else source.map fun s => s.growRight s across) = other at h
  have right : g.Agrees wide ∧ g.height ≤ wide.height ∧ g.width ≤ wide.width := by
    rw [← widened]
    split
    · exact ⟨agrees_refl g, Nat.le_refl _, Nat.le_refl _⟩
    · exact ⟨agrees_growRight g _ across, Nat.le_refl _, Nat.le_add_right _ _⟩
  have below : whole = (if down = 0 then wide else wide.growDown (other.getD wide) down) := by
    generalize (if down = 0 then wide else wide.growDown (other.getD wide) down) = tall at h ⊢
    split at h
    · cases h
    · split at h
      · cases h
      · cases h
        rfl
  refine right.1.trans ?_ right.2.1 right.2.2
  rw [below]
  split
  · exact agrees_refl wide
  · exact agrees_growDown wide _ down

theorem agrees_covering {g whole : Grid K} {width height : Nat} {source : Option (Grid K)}
    (h : g.covering width height source = .ok whole) : g.Agrees whole := by
  rw [covering] at h
  split at h
  · cases h
    exact agrees_refl g
  · exact agrees_extend h

theorem Agrees.cut {g whole : Grid K} (h : g.Agrees whole) (width height : Nat) :
    g.Agrees (whole.cut width height) := by
  rw [Grid.cut]
  split
  · exact h
  · intro y x row column (above : y < min _ _) (beside : x < min _ _)
    rw [value, crop, get_ofFn _ _ above beside]
    exact h y x row column (by omega) (by omega)

end Grid

namespace Field

variable {K : Type} [Scalar K]

theorem interpolated_eq_extent (f : Field K) (factor : Nat) (multiplier : K) :
    (f.interpolated factor multiplier).height = Axis.extent f.rows factor ∧
      (f.interpolated factor multiplier).width = Axis.extent f.columns factor := by
  have extent : ∀ {samples : Nat}, 0 < samples →
      (if factor = 1 ∨ samples = 1 then samples else (samples - 1) * factor + 1) =
        Axis.extent samples factor := by
    intro samples filled
    split
    · rename_i short
      exact (Axis.extent_eq_self filled short).symm
    · rfl
  obtain ⟨height, width⟩ := f.interpolated_extent factor multiplier
  exact ⟨height.trans (extent f.rows_pos), width.trans (extent f.columns_pos)⟩

theorem expand_agrees (f : Field K) {factor : Int} (positive : 1 ≤ factor) {width height : Nat}
    {multiplier : K} {slope : Option (Field K)}
    (same : ∀ s, slope = some s → s.rows = f.rows ∧ s.columns = f.columns) {full : Grid K}
    (h : f.expand factor (some width) (some height) multiplier slope = .ok full) :
    (f.interpolated factor.toNat multiplier).Agrees full := by
  rw [expand_eq f positive width height multiplier same] at h
  cases covered : (f.interpolated factor.toNat multiplier).covering width height
      (slope.map fun s => s.interpolated factor.toNat multiplier) with
  | error fault =>
      rw [covered] at h
      cases h
  | ok whole =>
      rw [covered] at h
      cases h
      exact (Grid.agrees_covering covered).cut width height

def enlarged (f : Field K) (b : BuildSettings) : Grid K :=
  f.interpolated (b.stride * b.reduction) (Scalar.ofInt b.reduction)

/-- A field that was sampled on a reduced page, at the full size of the page: it is sampled at the
places that cover the reduced page, and what lies beyond the last sample is less than what a reduced
pixel stands for. -/
structure FillsPage (f : Field K) (b : BuildSettings) (p : Page) (ink : Grid Bool) (full : Grid K) :
    Prop where
  samples : (f.rows : Int) = sampleCount ink.height b.stride ∧
    (f.columns : Int) = sampleCount ink.width b.stride
  extent : (f.enlarged b).height = (f.rows - 1) * (b.stride * b.reduction) + 1 ∧
    (f.enlarged b).width = (f.columns - 1) * (b.stride * b.reduction) + 1
  size : full.height = p.height ∧ full.width = p.width
  values : (f.enlarged b).Agrees full
  below : p.height - (f.enlarged b).height ≤ b.reduction - 1
  beside : p.width - (f.enlarged b).width ≤ b.reduction - 1

theorem fillsPage_of_expand {f : Field K} {b : BuildSettings} {p : Page} {ink : Grid Bool}
    (tall : 0 < ink.height) (wide : 0 < ink.width)
    (reduced : ink.height = p.height ⌈/⌉ b.reduction ∧ ink.width = p.width ⌈/⌉ b.reduction)
    (rows : f.rows = (sampleCount ink.height b.stride).toNat)
    (columns : f.columns = (sampleCount ink.width b.stride).toNat) {slope : Option (Field K)}
    (same : ∀ s, slope = some s → s.rows = f.rows ∧ s.columns = f.columns) :
    ∃ full, f.expand ((b.stride : Int) * b.reduction) (some p.width) (some p.height)
      (Scalar.ofInt b.reduction) slope = .ok full ∧ f.FillsPage b p ink full := by
  have stride : 0 < b.stride := Nat.lt_of_lt_of_le (by decide) b.stride_ge
  have reduction : 0 < b.reduction := by
    rcases b.reduction_eq with one | two <;> omega
  have positive : 1 ≤ (b.stride : Int) * b.reduction := by
    have := Nat.mul_pos stride reduction
    rw [← Int.natCast_mul]
    omega
  obtain ⟨full, expanded, height, width⟩ :=
    f.expand_eq_ok positive p.width p.height (Scalar.ofInt b.reduction) same
  have values := f.expand_agrees positive same expanded
  rw [← Int.natCast_mul, Int.toNat_natCast] at values
  have extent := f.interpolated_eq_extent (b.stride * b.reduction) (Scalar.ofInt b.reduction)
  -- Rows and columns alike: the samples are the fewest on the reduced side.
  have side : ∀ {n whole part : Nat}, 0 < part → part = whole ⌈/⌉ b.reduction →
      n = (sampleCount part b.stride).toNat → (n : Int) = sampleCount part b.stride ∧
        whole ≤ Axis.extent n (b.stride * b.reduction) + (b.reduction - 1) := by
    rintro n whole part filled rfl rfl
    obtain ⟨k, count, -, reach⟩ := sampleCount_reduced filled stride reduction
    rw [count, Int.toNat_natCast]
    exact ⟨rfl, reach⟩
  obtain ⟨rows, below⟩ := side tall reduced.1 rows
  obtain ⟨columns, beside⟩ := side wide reduced.2 columns
  refine ⟨full, expanded, ⟨rows, columns⟩, extent, ⟨height, width⟩, values, ?_, ?_⟩
  · rw [enlarged, extent.1]
    omega
  · rw [enlarged, extent.2]
    omega

end Field

/-! ### The page that a model is built from -/

theorem Page.size_binarize {K : Type} [Scalar K] (p : Page) (threshold : Int) :
    (p.binarize K threshold).height = p.height ∧ (p.binarize K threshold).width = p.width := by
  cases p <;> exact ⟨rfl, rfl⟩

namespace PageModel

variable {K : Type}

structure SameFields (m own : PageModel K) : Prop where
  stride : own.stride = m.stride
  reduction : own.reduction = m.reduction
  fields : ∀ d, (own.track d).field? = (m.track d).field?

theorem sameFields_judged (m : PageModel K) (t : Thresholds) (untested : Bool) :
    m.SameFields (m.adopted.judged t untested) := by
  have sheet := judged_sameSheet m.adopted t untested
  refine ⟨judged_stride _ t untested, judged_reduction _ t untested, fun d => ?_⟩
  cases d with
  | vertical => exact sheet.vertical
  | horizontal => exact sheet.horizontal
  | slope => exact congrArg (fun other => other.slope.field?) sheet.rest

end PageModel

namespace Document

variable {K : Type} [Scalar K]

/-- A prepared page has a pixel for every square that it was reduced by, the incomplete ones at its
edges included. -/
theorem prepare_size {d : Document K} {image : Source} {p : Page} {ink : Grid Bool}
    (loaded : image.load = .ok p) (h : d.prepare image = .ok ink) :
    ink.height = p.height ⌈/⌉ d.collection.settings.build.reduction ∧
      ink.width = p.width ⌈/⌉ d.collection.settings.build.reduction := by
  obtain ⟨height, width⟩ := p.size_binarize (K := K) 0
  rw [prepare, Source.binarize, loaded] at h
  obtain ⟨full, same, h⟩ := exists_of_bind_eq_ok h
  cases same
  split at h
  · rename_i two
    obtain ⟨rank, _, h⟩ := exists_of_bind_eq_ok h
    obtain ⟨read, whole, h⟩ := exists_of_bind_eq_ok h
    obtain ⟨rfl, _⟩ := Source.loadBit_bit whole
    cases h
    rw [two, Nat.ceilDiv_eq_add_pred_div, Nat.ceilDiv_eq_add_pred_div, ← height, ← width,
      reduceRank_eq]
    exact ⟨rfl, rfl⟩
  · have one : d.collection.settings.build.reduction = 1 :=
      d.collection.settings.build.reduction_eq.resolve_right ‹_›
    cases h
    rw [one, ceilDiv_one, ceilDiv_one]
    exact ⟨height, width⟩

theorem modelFor_onGrid {d : Document K} {page : Nat} {image : Source} {m : PageModel K}
    (h : d.modelFor page image = .ok m) :
    ∃ ink, d.prepare image = .ok ink ∧ 0 < ink.height ∧ 0 < ink.width ∧
      m.OnGrid (sampleCount ink.height d.build.stride).toNat
        (sampleCount ink.width d.build.stride).toNat := by
  rw [modelFor] at h
  obtain ⟨ink, prepared, h⟩ := exists_of_bind_eq_ok h
  obtain ⟨report, built, same⟩ := exists_of_bind_eq_ok h
  cases same
  obtain ⟨read, pixels, built⟩ := exists_of_bind_eq_ok built
  obtain ⟨number, _, built⟩ := exists_of_bind_eq_ok built
  obtain ⟨least, _, built⟩ := exists_of_bind_eq_ok built
  obtain ⟨same, whole⟩ := Source.loadBit_bit pixels
  rw [same] at built
  obtain ⟨tall, wide⟩ := Page.pixels_of_check whole
  have rows := BuildReport.rows_start (K := K) d.build tall number 0
  have columns := BuildReport.columns_start (K := K) d.build wide number 0
  refine ⟨ink, prepared, tall, wide, ?_⟩
  rw [← rows, ← columns]
  exact BuildReport.ofLines_onGrid built

end Document

namespace RenderPlan

variable {K : Type} [Scalar K]

theorem model_of_make {c : Collection K} {counter : ColumnCounter} {image : Source} {page : Int}
    {own : PageModel K} (effective : c.effective page = some own) {plan : RenderPlan K}
    (h : make c counter image page = .ok plan) :
    plan.model = some own ∧ (plan.horizontal = true → own.horizontalValid = true) := by
  rw [make, effective] at h
  split at h
  · cases h
  · obtain ⟨columns, _, h⟩ := exists_of_bind_eq_ok h
    cases h
    refine ⟨rfl, fun both => ?_⟩
    simp only [Bool.and_eq_true] at both
    exact both.1.2

theorem fullFields_eq {plan : RenderPlan K} {m : PageModel K} (model : plan.model = some m)
    {vertical : Field K} (held : m.vertical.field? = some vertical) {width height : Nat}
    {v : Grid K} (upright : vertical.expand (m.stride * m.reduction) (some width) (some height)
      (Scalar.ofInt m.reduction) Option.none = .ok v) :
    (plan.horizontal = false → plan.fullFields width height = .ok (v, Option.none)) ∧
    ∀ (horizontal : Field K) h, plan.horizontal = true → m.horizontal.field? = some horizontal →
      horizontal.expand (m.stride * m.reduction) (some width) (some height)
        (Scalar.ofInt m.reduction) m.slope.field? = .ok h →
      plan.fullFields width height = .ok (v, some h) := by
  refine ⟨fun single => ?_, fun horizontal h both held' sideways => ?_⟩
  · simp [fullFields, model, held, upright, single, bind, Except.bind, pure, Except.pure]
  · simp [fullFields, model, held, upright, both, held', sideways, bind, Except.bind, pure,
      Except.pure]

/-- The fields that a plan brings to the size of a page fill it: the vertical field of a model, and
the horizontal one where the plan is to apply it. -/
def FillsPage (plan : RenderPlan K) (b : BuildSettings) (m : PageModel K) (p : Page)
    (ink : Grid Bool) : Prop :=
  ∃ f v h, m.vertical.field? = some f ∧ plan.fullFields p.width p.height = .ok (v, h) ∧
    f.FillsPage b p ink v ∧ h.isSome = plan.horizontal ∧
    ∀ full, h = some full → ∃ g, m.horizontal.field? = some g ∧ g.FillsPage b p ink full

end RenderPlan

namespace Document

variable {K : Type} [Scalar K]

theorem modelFor_fillsPage {d : Document K}
    (reduced : d.build.reduction = d.collection.settings.build.reduction)
    {page : Nat} {image : Source} {p : Page} {m : PageModel K} (loaded : image.load = .ok p)
    (built : d.modelFor page image = .ok m) :
    ∃ ink, d.prepare image = .ok ink ∧
      (ink.height = p.height ⌈/⌉ d.build.reduction ∧ ink.width = p.width ⌈/⌉ d.build.reduction) ∧
      ∀ e f, (m.track e).field? = some f →
        ∀ slope : Option (Field K), (∀ s, slope = some s → m.slope.field? = some s) →
          ∃ full, f.expand (m.stride * m.reduction) (some p.width) (some p.height)
            (Scalar.ofInt m.reduction) slope = .ok full ∧ f.FillsPage d.build p ink full := by
  obtain ⟨ink, prepared, tall, wide, grid⟩ := modelFor_onGrid built
  have size := prepare_size loaded prepared
  rw [← reduced] at size
  have drawn := modelFor_drawn built
  refine ⟨ink, prepared, size, fun e f held slope sources => ?_⟩
  obtain ⟨rows, columns⟩ := grid e f held
  rw [drawn.stride, drawn.reduction]
  refine Field.fillsPage_of_expand tall wide size rows columns fun s given => ?_
  obtain ⟨rows', columns'⟩ := grid .slope s (sources s given)
  exact ⟨rows'.trans rows.symm, columns'.trans columns.symm⟩

/-- Samples are the fewest that cover a reduced side, and at full size they reach over the side but
for less than what a reduced pixel stands for. So a page that is rendered with the model that was
built from it, in whatever collection the model is by then, is moved by interpolated displacements
but for at most `reduction - 1` rows and columns. -/
theorem own_page_extent :
    (∀ side stride reduction : Nat, 0 < side → 0 < stride → 0 < reduction →
      ∃ n : Nat, sampleCount (side ⌈/⌉ reduction : Nat) stride = n ∧
        IsLeast {k | 1 ≤ k ∧ side ⌈/⌉ reduction ≤ (k - 1) * stride + 1} n ∧
        side - (reduction - 1) ≤ (n - 1) * (stride * reduction) + 1) ∧
    ∀ (d : Document K) (page : Nat) (image : Source) (p : Page) (m own : PageModel K)
      (c : Collection K) (place : Int) (counter : ColumnCounter) (plan : RenderPlan K),
      d.build.reduction = d.collection.settings.build.reduction → image.load = .ok p →
      d.modelFor page image = .ok m → m.SameFields own → c.effective place = some own →
      RenderPlan.make c counter (.page p) place = .ok plan →
      ∃ ink, d.prepare image = .ok ink ∧
        (ink.height = p.height ⌈/⌉ d.build.reduction ∧
          ink.width = p.width ⌈/⌉ d.build.reduction) ∧
        plan.FillsPage d.build m p ink := by
  refine ⟨?_, ?_⟩
  · intro side stride reduction filled positive reduced
    have some : 0 < side ⌈/⌉ reduction := by
      rw [Nat.ceilDiv_eq_add_pred_div]
      exact Nat.div_pos (by omega) reduced
    obtain ⟨n, count, least, reach⟩ := sampleCount_reduced some positive reduced
    rw [Axis.extent] at reach
    exact ⟨n, count, least, by omega⟩
  · intro d page image p m own c place counter plan reduced loaded built same effective made
    obtain ⟨ink, prepared, size, expands⟩ := modelFor_fillsPage reduced loaded built
    rw [← same.stride, ← same.reduction] at expands
    obtain ⟨model, both⟩ := RenderPlan.model_of_make effective made
    obtain ⟨f, vertical⟩ := Track.field?_of_accepted (Collection.effective_cases effective).2.1
    have held := (same.fields .vertical).symm.trans vertical
    obtain ⟨v, upright, fills⟩ := expands .vertical f held Option.none (by simp)
    obtain ⟨single, double⟩ := RenderPlan.fullFields_eq model vertical upright
    refine ⟨ink, prepared, size, ?_⟩
    cases horizontal : plan.horizontal with
    | false => exact ⟨f, v, Option.none, held, single horizontal, fills, horizontal.symm, by simp⟩
    | true =>
        obtain ⟨g, sideways⟩ := Track.field?_of_accepted (both horizontal)
        have held' := (same.fields .horizontal).symm.trans sideways
        obtain ⟨h, across, fills'⟩ := expands .horizontal g held' own.slope.field? fun s given =>
          (same.fields .slope).symm.trans given
        refine ⟨f, v, some h, held, double g h horizontal sideways across, fills,
          horizontal.symm, ?_⟩
        rintro full ⟨rfl⟩
        exact ⟨g, held', fills'⟩

end Document

namespace Stepped

set_option maxRecDepth 10000

def doubled : Grid Bool := Grid.ofFn 38 200 fun y x => ink 50 (y / 2) (x / 2)

theorem reduceRank_doubled : reduceRank doubled 1 = page := by
  rw [reduceRank_eq]
  refine Grid.ofFn_congr fun y (row : y < 19) x (column : x < 100) => ?_
  have pixel : ∀ row' column', row' / 2 = y → column' / 2 = x →
      doubled.get false row' column' = ink 50 y x := by
    rintro row' column' rfl rfl
    rw [doubled, Grid.get_ofFn _ _ (by omega) (by omega)]
  rw [pixel (2 * y) (2 * x) (by omega) (by omega), pixel (2 * y) (2 * x + 1) (by omega) (by omega),
    pixel (2 * y + 1) (2 * x) (by omega) (by omega),
    pixel (2 * y + 1) (2 * x + 1) (by omega) (by omega)]
  cases ink 50 y x <;> rfl

def halved : Document Rat where
  collection := .empty
    { build := halving, maxDistance := 16, useBoth := true, checkColumns := false,
      thresholds := .standard } 64
  build := halving
  workers := some 1
  counter := fun _ => .ok 1

theorem create_halved : Document.create "default" (("redfactor", .int 2) :: entries) (some 1)
    (fun _ => .ok 1) = .ok halved := by
  rfl

theorem prepare_doubled : halved.prepare (.page (.bit doubled)) = .ok page := by
  rw [← reduceRank_doubled]
  rfl

theorem modelFor_doubled : ∃ m, halved.modelFor 0 (.page (.bit doubled)) = .ok m ∧
    figures m = (-15, -15, some (-7497 / 5050)) := by
  rw [Document.modelFor_of_prepare prepare_doubled rfl, detectLong_page]
  exact ofLines_figures (halving, 0) (by simp)

/-- Halved, the doubled page is sampled in two columns, at its first and its last pixel. At full
size the second stands at the last column but one, and one column goes on from there. -/
theorem doubled_fills_page :
    (∃ n : Nat, sampleCount (200 ⌈/⌉ 2 : Nat) 99 = n ∧
      IsLeast {k | 1 ≤ k ∧ 200 ⌈/⌉ 2 ≤ (k - 1) * 99 + 1} n ∧
      200 - (2 - 1) ≤ (n - 1) * (99 * 2) + 1) ∧
    ∃ m own plan after, halved.modelFor 0 (.page (.bit doubled)) = .ok m ∧
      (halved.process [.page (.bit doubled)]).2 = after ∧ m.SameFields own ∧
      after.collection.effective 0 = some own ∧
      RenderPlan.make after.collection halved.counter (.page (.bit doubled)) 0 = .ok plan ∧
      plan.FillsPage halving m (.bit doubled) page ∧
      ∃ f, m.vertical.field? = some f ∧ (f.enlarged halving).width = 199 := by
  obtain ⟨m, made, values⟩ := modelFor_doubled
  have builds : halved.Builds [.page (.bit doubled)] := by
    intro j image found
    match j, found with
    | 0, rfl => exact ⟨m, made⟩
  obtain ⟨after, processed, done⟩ :=
    Document.process_of_builds (Document.create_sound create_halved (by simp)) builds
  have own : halved.validModel [.page (.bit doubled)] 0 =
      some (m.adopted.judged Thresholds.standard false) :=
    (Document.validModel_of_modelFor rfl made).trans (if_pos (passes_of_figures values))
  have served := processed.serves 0 (by decide)
  rw [Document.validAfter_eq (Document.create_passing create_halved)] at served
  have effective := served.unique (.own own)
  have countable : (Page.bit doubled).Countable Rat after.collection.settings halved.counter := by
    rw [processed.settings]
    exact fun checked => nomatch checked
  obtain ⟨plan, planned, _⟩ := Collection.make_of_some processed.ready countable effective
  have same := m.sameFields_judged .standard false
  obtain ⟨sizes, fills⟩ := Document.own_page_extent (K := Rat)
  obtain ⟨ink, prepared, _, filled⟩ := fills halved 0 (.page (.bit doubled)) (.bit doubled) m _
    after.collection 0 halved.counter plan rfl rfl made same effective planned
  cases prepared.symm.trans prepare_doubled
  refine ⟨sizes 200 99 2 (by decide) (by decide) (by decide), m, _, plan, after, made,
    congrArg Prod.snd done, same, effective, planned, filled, ?_⟩
  obtain ⟨f, v, _, held, _, full, _⟩ := filled
  refine ⟨f, held, ?_⟩
  have columns : (f.columns : Int) = 2 := full.samples.2
  have extent : (f.enlarged halving).width = (f.columns - 1) * 198 + 1 := full.extent.2
  omega

end Stepped

end PageFlattening
