import PageFlattening.Proofs.Records
import PageFlattening.Render

/-! Rendering one page. A field that is expanded covers the page exactly, a page that is moved keeps
its size, and so nothing can go wrong but the counting of columns: `Flattens` says what comes out,
and for which models it always does. -/
namespace PageFlattening

namespace Grid

variable {K : Type} [Scalar K]

@[simp] theorem height_growRight (g source : Grid K) (count : Nat) :
    (g.growRight source count).height = g.height := rfl

@[simp] theorem width_growRight (g source : Grid K) (count : Nat) :
    (g.growRight source count).width = g.width + count := rfl

@[simp] theorem height_growDown (g source : Grid K) (count : Nat) :
    (g.growDown source count).height = g.height + count := rfl

@[simp] theorem width_growDown (g source : Grid K) (count : Nat) :
    (g.growDown source count).width = g.width := rfl

@[simp] theorem fits_self (n : Nat) : fits n n = true := by simp [fits]

theorem height_stretchRows (g : Grid K) (factor : Nat) : (g.stretchRows factor).height =
    if factor = 1 ∨ g.height = 1 then g.height else (g.height - 1) * factor + 1 := by
  rw [stretchRows]
  split <;> rfl

theorem width_stretchRows (g : Grid K) (factor : Nat) :
    (g.stretchRows factor).width = g.width := by
  rw [stretchRows]
  split <;> rfl

theorem width_stretchColumns (g : Grid K) (factor : Nat) : (g.stretchColumns factor).width =
    if factor = 1 ∨ g.width = 1 then g.width else (g.width - 1) * factor + 1 := by
  rw [stretchColumns]
  split <;> rfl

theorem height_stretchColumns (g : Grid K) (factor : Nat) :
    (g.stretchColumns factor).height = g.height := by
  rw [stretchColumns]
  split <;> rfl

theorem extend_eq_ok (g : Grid K) (right bottom : Int) {source : Option (Grid K)}
    (same : ∀ s, source = some s → s.height = g.height ∧ s.width = g.width) :
    ∃ whole, g.extend right bottom source = .ok whole ∧
      whole.height = g.height + bottom.toNat ∧ whole.width = g.width + right.toNat := by
  unfold extend
  generalize right.toNat = across
  generalize bottom.toNat = down
  have height : (source.getD g).height = g.height := by
    cases source with
    | none => rfl
    | some s => exact (same s rfl).1
  -- Both are grown by the same number of columns, so that their widths go on being equal.
  have width : ((if across = 0 then source
        else source.map fun s => s.growRight s across).getD
          (if across = 0 then g else g.growRight (source.getD g) across)).width =
      (if across = 0 then g else g.growRight (source.getD g) across).width := by
    cases source with
    | none => split <;> rfl
    | some s => split <;> simp [(same s rfl).2]
  simp only [height, width, fits_self, Bool.not_true, Bool.false_eq_true, and_false, if_false]
  refine ⟨_, rfl, ?_, ?_⟩
  · by_cases below : down = 0 <;> by_cases beside : across = 0 <;> simp [below, beside]
  · by_cases below : down = 0 <;> by_cases beside : across = 0 <;> simp [below, beside]

theorem kept_natCast (bound length : Nat) : kept bound length = min bound length := by
  have natural : ¬ (bound : Int) < 0 := by omega
  rw [kept, if_neg natural, Int.toNat_natCast]

def covering (g : Grid K) (width height : Nat) (source : Option (Grid K)) :
    Except Fault (Grid K) :=
  if (width : Int) - g.width ≤ 0 ∧ (height : Int) - g.height ≤ 0 then pure g
  else g.extend (width - g.width) (height - g.height) source

theorem covering_eq_ok (g : Grid K) (width height : Nat) {source : Option (Grid K)}
    (same : ∀ s, source = some s → s.height = g.height ∧ s.width = g.width) :
    ∃ whole, g.covering width height source = .ok whole ∧
      height ≤ whole.height ∧ width ≤ whole.width := by
  rw [covering]
  split
  · exact ⟨g, rfl, by omega, by omega⟩
  · obtain ⟨whole, done, tall, wide⟩ := g.extend_eq_ok (width - g.width) (height - g.height) same
    exact ⟨whole, done, by omega, by omega⟩

def cut (g : Grid K) (width height : Nat) : Grid K :=
  if min height g.height = g.height ∧ min width g.width = g.width then g
  else g.crop (Scalar.ofInt 0) (min height g.height) (min width g.width)

theorem cut_size {g : Grid K} {width height : Nat} (tall : height ≤ g.height)
    (wide : width ≤ g.width) :
    (g.cut width height).height = height ∧ (g.cut width height).width = width := by
  rw [cut]
  split
  · exact ⟨by omega, by omega⟩
  · refine ⟨?_, ?_⟩
    · change min (min height g.height) g.height = height
      omega
    · change min (min width g.width) g.width = width
      omega

end Grid

namespace Field

variable {K : Type} [Scalar K]

theorem interpolated_extent (f : Field K) (factor : Nat) (multiplier : K) :
    (f.interpolated factor multiplier).height =
        (if factor = 1 ∨ f.rows = 1 then f.rows else (f.rows - 1) * factor + 1) ∧
      (f.interpolated factor multiplier).width =
        (if factor = 1 ∨ f.columns = 1 then f.columns else (f.columns - 1) * factor + 1) := by
  have full : ∀ whole : Grid K, (if multiplier == Scalar.ofInt 1 then whole
      else whole.map (· * multiplier)).height = whole.height ∧
      (if multiplier == Scalar.ofInt 1 then whole
        else whole.map (· * multiplier)).width = whole.width := by
    intro whole
    split <;> exact ⟨rfl, rfl⟩
  rw [interpolated, (full _).1, (full _).2, Grid.height_stretchColumns, Grid.height_stretchRows,
    Grid.width_stretchColumns, Grid.width_stretchRows]
  exact ⟨rfl, rfl⟩

theorem interpolated_size {f g : Field K} (rows : g.rows = f.rows) (columns : g.columns = f.columns)
    (factor : Nat) (multiplier : K) :
    (g.interpolated factor multiplier).height = (f.interpolated factor multiplier).height ∧
      (g.interpolated factor multiplier).width = (f.interpolated factor multiplier).width := by
  have extent := g.interpolated_extent factor multiplier
  rw [rows, columns, ← (f.interpolated_extent factor multiplier).1,
    ← (f.interpolated_extent factor multiplier).2] at extent
  exact extent

theorem expand_eq (f : Field K) {factor : Int} (positive : 1 ≤ factor) (width height : Nat)
    (multiplier : K) {slope : Option (Field K)}
    (same : ∀ s, slope = some s → s.rows = f.rows ∧ s.columns = f.columns) :
    f.expand factor (some width) (some height) multiplier slope =
      ((f.interpolated factor.toNat multiplier).covering width height
        (slope.map fun s => s.interpolated factor.toNat multiplier)).map
          fun whole => whole.cut width height := by
  have enough : ¬ factor < 1 := by omega
  have cutting : ∀ covered : Except Fault (Grid K),
      (covered >>= fun whole =>
        if min height whole.height = whole.height ∧ min width whole.width = whole.width
        then pure whole
        else pure (whole.crop (Scalar.ofInt 0) (min height whole.height) (min width whole.width))) =
      covered.map fun whole => whole.cut width height := by
    intro covered
    cases covered with
    | error fault => rfl
    | ok whole =>
        simp only [Except.map, Grid.cut]
        split <;> simp_all [bind, Except.bind, pure, Except.pure]
  rw [← cutting]
  simp only [expand, enough, if_false, Option.getD_some, Grid.kept_natCast, Grid.covering]
  by_cases small : (width : Int) - (f.interpolated factor.toNat multiplier).width ≤ 0 ∧
      (height : Int) - (f.interpolated factor.toNat multiplier).height ≤ 0
  · rw [if_pos small, if_pos small]
  · rw [if_neg small, if_neg small]
    cases slope with
    | none => rfl
    | some s =>
        have size := interpolated_size (same s rfl).1 (same s rfl).2 factor.toNat multiplier
        simp only [size.1, size.2, ne_eq, not_true, or_self, if_false, Option.map_some]

theorem expand_eq_ok (f : Field K) {factor : Int} (positive : 1 ≤ factor) (width height : Nat)
    (multiplier : K) {slope : Option (Field K)}
    (same : ∀ s, slope = some s → s.rows = f.rows ∧ s.columns = f.columns) :
    ∃ g, f.expand factor (some width) (some height) multiplier slope = .ok g ∧
      g.height = height ∧ g.width = width := by
  have sources : ∀ grid, (slope.map fun s => s.interpolated factor.toNat multiplier) = some grid →
      grid.height = (f.interpolated factor.toNat multiplier).height ∧
        grid.width = (f.interpolated factor.toNat multiplier).width := by
    intro grid found
    obtain ⟨s, given, rfl⟩ := Option.map_eq_some_iff.mp found
    exact interpolated_size (same s given).1 (same s given).2 factor.toNat multiplier
  obtain ⟨whole, done, tall, wide⟩ := Grid.covering_eq_ok _ width height sources
  refine ⟨whole.cut width height, ?_, Grid.cut_size tall wide⟩
  rw [expand_eq f positive width height multiplier same, done]
  rfl

end Field

namespace Page

variable {K : Type}

theorem checkDisplacement_ofGrid {p : Page} (whole : p.check = .ok ()) {g : Grid K}
    (tall : g.height = p.height) (wide : g.width = p.width) :
    p.checkDisplacement (.ofGrid g) = .ok g := by
  rw [checkDisplacement, whole, Shaped.grid?_ofGrid]
  change (if g.height = p.height ∧ g.width = p.width then _ else _) = _
  rw [if_pos ⟨tall, wide⟩]

variable [Scalar K]

theorem remap_size (p : Page) (point : Nat → Nat → K × K) :
    (p.remap point).height = p.height ∧ (p.remap point).width = p.width := by
  cases p <;> exact ⟨rfl, rfl⟩

theorem displace_ofGrid {p : Page} (whole : p.check = .ok ()) {v : Grid K}
    (tall : v.height = p.height) (wide : v.width = p.width) {h : Option (Grid K)}
    (sizes : ∀ g, h = some g → g.height = p.height ∧ g.width = p.width) :
    p.displace (.ofGrid v) (h.map Shaped.ofGrid) =
      .ok (h.elim (p.moveVertically v) (p.moveVertically v).moveHorizontally) := by
  have moved := remap_size p fun y x => (Scalar.ofNat x, Scalar.ofNat y - v.value y x)
  have whole' : (p.moveVertically v).check = .ok () := by
    rw [check] at whole ⊢
    rwa [moveVertically, moved.1, moved.2]
  rw [displace, applyVertical, checkDisplacement_ofGrid whole tall wide]
  cases h with
  | none => rfl
  | some g =>
      have same := sizes g rfl
      have fits := checkDisplacement_ofGrid whole' (same.1.trans moved.1.symm)
        (same.2.trans moved.2.symm)
      change (p.moveVertically v).applyHorizontal (.ofGrid g) = _
      rw [applyHorizontal, fits]
      rfl

theorem displace_eq_ok {p : Page} (whole : p.check = .ok ()) {v : Grid K}
    (tall : v.height = p.height) (wide : v.width = p.width) {h : Option (Grid K)}
    (sizes : ∀ g, h = some g → g.height = p.height ∧ g.width = p.width) :
    ∃ out, p.displace (.ofGrid v) (h.map Shaped.ofGrid) = .ok out :=
  ⟨_, displace_ofGrid whole tall wide sizes⟩

def columnCount (K : Type) [Scalar K] (p : Page) (counter : ColumnCounter) : Except Fault Int := do
  counter (← RenderPlan.inkOf K (.page p))

def Countable (K : Type) [Scalar K] (p : Page) (settings : Settings) (counter : ColumnCounter) :
    Prop :=
  settings.checkColumns = true → ∃ n, p.columnCount K counter = .ok n

end Page

theorem Track.field?_of_accepted {K : Type} {t : Track K} (h : t.accepted = true) :
    ∃ f, t.field? = some f := by
  match t with
  | .held .accepted f => exact ⟨f, rfl⟩
  | .held .pending _ => cases h
  | .held .rejected _ => cases h
  | .notAttempted => cases h
  | .failed => cases h

namespace PageModel

variable {K : Type}

/-- A model whose fields can be brought to any size: their grids go together. -/
structure WellBuilt (m : PageModel K) : Prop where
  factor : 1 ≤ m.stride * m.reduction
  grids : ∀ f s, m.horizontal.field? = some f → m.slope.field? = some s →
    s.rows = f.rows ∧ s.columns = f.columns

theorem WellBuilt.judged {m : PageModel K} (h : m.WellBuilt) (t : Thresholds) (untested : Bool) :
    (m.judged t untested).WellBuilt := by
  have sheet := judged_sameSheet m t untested
  refine ⟨?_, fun f s horizontal slope => h.grids f s ?_ ?_⟩
  · rw [judged_stride, judged_reduction]
    exact h.factor
  · rw [← horizontal, sheet.horizontal]
  · rw [← slope]
    exact (congrArg (fun other => other.slope.field?) sheet.rest).symm

variable [Scalar K]

def fullSize (m : PageModel K) (p : Page) (f : Field K) (slope : Option (Field K)) :
    Except Fault (Grid K) :=
  f.expand (m.stride * m.reduction) (some p.width) (some p.height) (Scalar.ofInt m.reduction) slope

def BothWays (settings : Settings) (counter : ColumnCounter) (p : Page) (m : PageModel K) : Prop :=
  settings.useBoth = true ∧ m.horizontalValid = true ∧
    ¬ (settings.checkColumns = true ∧ ∃ n, p.columnCount K counter = .ok n ∧ 1 < n)

/-- What comes out when a page is flattened with a model: it is moved along y by the vertical field,
and then along x by the horizontal one if it is to be moved both ways. Where columns matter it must
be possible to count them. -/
structure Flattens (settings : Settings) (counter : ColumnCounter) (p : Page) (m : PageModel K)
    (out : Page) : Prop where
  countable : p.Countable K settings counter
  moved : ∃ f v, m.vertical.field? = some f ∧ m.fullSize p f none = .ok v ∧
    (BothWays settings counter p m → ∃ g h, m.horizontal.field? = some g ∧
      m.fullSize p g m.slope.field? = .ok h ∧
      p.displace (.ofGrid v) (some (.ofGrid h)) = .ok out) ∧
    (¬ BothWays settings counter p m → p.displace (.ofGrid v) none = .ok out)

theorem Flattens.unique {settings : Settings} {counter : ColumnCounter} {p : Page} {m : PageModel K}
    {a b : Page} (h : m.Flattens settings counter p a) (g : m.Flattens settings counter p b) :
    a = b := by
  obtain ⟨f, v, held, full, both, one⟩ := h.moved
  obtain ⟨f', v', held', full', both', one'⟩ := g.moved
  cases held.symm.trans held'
  cases full.symm.trans full'
  by_cases two : BothWays settings counter p m
  · obtain ⟨e, w, held, full, done⟩ := both two
    obtain ⟨e', w', held', full', done'⟩ := both' two
    cases held.symm.trans held'
    cases full.symm.trans full'
    cases done.symm.trans done'
    rfl
  · cases (one two).symm.trans (one' two)
    rfl

theorem WellBuilt.fullSize_eq_ok {m : PageModel K} (h : m.WellBuilt) (p : Page) (f : Field K)
    {slope : Option (Field K)}
    (same : ∀ s, slope = some s → s.rows = f.rows ∧ s.columns = f.columns) :
    ∃ g, m.fullSize p f slope = .ok g ∧ g.height = p.height ∧ g.width = p.width :=
  f.expand_eq_ok h.factor p.width p.height (Scalar.ofInt m.reduction) same

end PageModel

namespace RenderPlan

variable {K : Type} [Scalar K]

theorem exists_columnCount {checkColumns : Bool} {counter : ColumnCounter} {p : Page}
    {columns : Option Int} (h : countColumns K checkColumns counter (.page p) = .ok columns)
    (checked : checkColumns = true) : ∃ n, p.columnCount K counter = .ok n := by
  subst checked
  obtain ⟨ink, read, h⟩ := exists_of_bind_eq_ok h
  obtain ⟨n, counts, _⟩ := exists_of_bind_eq_ok h
  refine ⟨n, ?_⟩
  rw [Page.columnCount, read]
  exact counts

theorem countColumns_eq_ok {checkColumns : Bool} {counter : ColumnCounter} {p : Page}
    (counted : checkColumns = true → ∃ n, p.columnCount K counter = .ok n) :
    ∃ columns, countColumns K checkColumns counter (.page p) = .ok columns ∧
      ∀ n, columns = some n ↔ checkColumns = true ∧ p.columnCount K counter = .ok n := by
  cases checkColumns with
  | false => exact ⟨Option.none, rfl, by simp⟩
  | true =>
      obtain ⟨n, counts⟩ := counted rfl
      refine ⟨some n, ?_, by simp [counts]⟩
      rw [Page.columnCount] at counts
      obtain ⟨ink, read, counts⟩ := exists_of_bind_eq_ok counts
      rw [countColumns, read]
      change (counter ink >>= fun k => pure (some k)) = _
      rw [counts]
      rfl

theorem apply_vertical {page : Int} {m : PageModel K} {columns : Option Int} {p : Page}
    {f : Field K} {v : Grid K} (vertical : m.vertical.field? = some f)
    (grown : m.fullSize p f Option.none = .ok v) :
    apply ⟨page, some m, true, false, columns⟩ p = p.displace (.ofGrid v) Option.none := by
  rw [PageModel.fullSize] at grown
  simp [apply, fullFields, vertical, grown, bind, Except.bind, pure, Except.pure]

theorem apply_both {page : Int} {m : PageModel K} {columns : Option Int} {p : Page}
    {f g : Field K} {v h : Grid K} (vertical : m.vertical.field? = some f)
    (grown : m.fullSize p f Option.none = .ok v) (horizontal : m.horizontal.field? = some g)
    (grown' : m.fullSize p g m.slope.field? = .ok h) :
    apply ⟨page, some m, true, true, columns⟩ p =
      p.displace (.ofGrid v) (some (.ofGrid h)) := by
  rw [PageModel.fullSize] at grown grown'
  simp [apply, fullFields, vertical, grown, horizontal, grown', bind, Except.bind, pure,
    Except.pure]

end RenderPlan

namespace Collection

variable {K : Type} [Scalar K]

theorem render_of_none {c : Collection K} {counter : ColumnCounter} {image : Source} {page : Int}
    {p : Page} (ready : c.ready = true) (loaded : image.load = .ok p) (whole : p.check = .ok ())
    (none : c.effective page = Option.none) : c.render counter image page = .ok p := by
  rw [render, loaded]
  change (p.check >>= fun _ => RenderPlan.make c counter (.page p) page >>= fun plan =>
    plan.apply p) = _
  rw [whole, RenderPlan.make, ready, none]
  rfl

theorem render_of_some {c : Collection K} {counter : ColumnCounter} {image : Source} {page : Int}
    {p : Page} (ready : c.ready = true) (loaded : image.load = .ok p) (whole : p.check = .ok ())
    {m : PageModel K} (some : c.effective page = Option.some m) :
    c.render counter image page =
      (RenderPlan.countColumns K c.settings.checkColumns counter (.page p) >>= fun columns =>
        RenderPlan.apply ⟨page, Option.some m, true,
          c.settings.useBoth && m.horizontalValid && !columns.any (fun n => decide (1 < n)),
          columns⟩ p) := by
  rw [render, loaded]
  change (p.check >>= fun _ => RenderPlan.make c counter (.page p) page >>= fun plan =>
    plan.apply p) = _
  rw [whole, RenderPlan.make, ready, some]
  cases counted : RenderPlan.countColumns K c.settings.checkColumns counter (.page p) with
  | error fault => simp [bind, Except.bind]
  | ok columns => cases columns <;> simp [bind, Except.bind, pure, Except.pure]

theorem render_congr {c d : Collection K} (ready : c.ready = true) (ready' : d.ready = true)
    (settings : d.settings = c.settings) {page : Int} (same : d.effective page = c.effective page)
    (counter : ColumnCounter) (image : Source) :
    d.render counter image page = c.render counter image page := by
  simp only [render, RenderPlan.make, ready, ready', settings, same]

theorem render_flattens {c : Collection K} {counter : ColumnCounter} {image : Source} {page : Int}
    {p : Page} (ready : c.ready = true) (loaded : image.load = .ok p) (whole : p.check = .ok ())
    {m : PageModel K} (some : c.effective page = Option.some m) (valid : m.verticalValid = true)
    (built : m.WellBuilt) (counted : p.Countable K c.settings counter) :
    ∃ out, c.render counter image page = .ok out ∧ m.Flattens c.settings counter p out := by
  obtain ⟨columns, counts, meaning⟩ := RenderPlan.countColumns_eq_ok counted
  obtain ⟨f, vertical⟩ := Track.field?_of_accepted valid
  have alone : ∀ s, (Option.none : Option (Field K)) = Option.some s →
      s.rows = f.rows ∧ s.columns = f.columns := by simp
  obtain ⟨v, grown, tall, wide⟩ := built.fullSize_eq_ok p f alone
  have several : columns.any (fun n => decide (1 < n)) = true ↔
      c.settings.checkColumns = true ∧ ∃ n, p.columnCount K counter = .ok n ∧ 1 < n := by
    rw [Option.any_eq_true]
    simp only [meaning, decide_eq_true_eq]
    constructor
    · rintro ⟨n, ⟨checked, number⟩, more⟩
      exact ⟨checked, n, number, more⟩
    · rintro ⟨checked, n, number, more⟩
      exact ⟨n, ⟨checked, number⟩, more⟩
  have decided : (c.settings.useBoth && m.horizontalValid &&
      !columns.any (fun n => decide (1 < n))) = true ↔
        PageModel.BothWays c.settings counter p m := by
    rw [Bool.and_eq_true, Bool.and_eq_true, Bool.not_eq_true', ← Bool.not_eq_true, several,
      and_assoc]
    rfl
  rw [render_of_some ready loaded whole some, counts]
  change ∃ out, RenderPlan.apply ⟨page, Option.some m, true, _, columns⟩ p = .ok out ∧ _
  by_cases both : PageModel.BothWays c.settings counter p m
  · rw [decided.mpr both]
    obtain ⟨g, horizontal⟩ := Track.field?_of_accepted both.2.1
    obtain ⟨h, grown', tall', wide'⟩ :=
      built.fullSize_eq_ok p g fun s slope => built.grids g s horizontal slope
    have sizes : ∀ e, Option.some h = Option.some e → e.height = p.height ∧ e.width = p.width := by
      rintro e ⟨rfl⟩
      exact ⟨tall', wide'⟩
    obtain ⟨out, done⟩ := Page.displace_eq_ok whole tall wide sizes
    refine ⟨out, ?_, counted, f, v, vertical, grown,
      fun _ => ⟨g, h, horizontal, grown', done⟩, fun one => absurd both one⟩
    rw [RenderPlan.apply_both vertical grown horizontal grown']
    exact done
  · rw [Bool.eq_false_iff.mpr (mt decided.mp both)]
    obtain ⟨out, done⟩ := Page.displace_eq_ok whole tall wide
      (fun e (absent : (Option.none : Option (Grid K)) = Option.some e) => nomatch absent)
    refine ⟨out, ?_, counted, f, v, vertical, grown, fun two => absurd two both, fun _ => done⟩
    rw [RenderPlan.apply_vertical vertical grown]
    exact done

theorem render_eq_ok_iff {c : Collection K} {counter : ColumnCounter} {image : Source} {page : Int}
    {p : Page} (ready : c.ready = true) (loaded : image.load = .ok p) (whole : p.check = .ok ())
    {m : PageModel K} (some : c.effective page = Option.some m) (valid : m.verticalValid = true)
    (built : m.WellBuilt) (out : Page) :
    c.render counter image page = .ok out ↔ m.Flattens c.settings counter p out := by
  constructor
  · intro rendered
    have counted : p.Countable K c.settings counter := by
      rw [render_of_some ready loaded whole some] at rendered
      obtain ⟨columns, counts, _⟩ := exists_of_bind_eq_ok rendered
      exact RenderPlan.exists_columnCount counts
    obtain ⟨other, rendered', flat⟩ := render_flattens ready loaded whole some valid built counted
    cases rendered.symm.trans rendered'
    exact flat
  · intro flat
    obtain ⟨other, rendered, flat'⟩ :=
      render_flattens ready loaded whole some valid built flat.countable
    rw [rendered, flat.unique flat']

end Collection

end PageFlattening
