import PageFlattening.Proofs.Building
import PageFlattening.Proofs.Donors

/-!
Rendering cannot go wrong. The model of a page is held because its vertical field is valid, so that
there is a field to apply; its fields share a grid, so that they can be grown to any size; and the
columns of a page with pixels can always be counted. What comes out has the layout of the page.
-/
namespace PageFlattening

namespace PageModel

variable {K : Type}

def OnGrid (rows columns : Nat) (m : PageModel K) : Prop :=
  ∀ d f, (m.track d).field? = some f → f.rows = rows ∧ f.columns = columns

def OneGrid (m : PageModel K) : Prop := ∃ rows columns, m.OnGrid rows columns

theorem OneGrid.matching {m : PageModel K} (h : m.OneGrid) : m.Matching := by
  obtain ⟨rows, columns, grid⟩ := h
  intro f s horizontal slope
  obtain ⟨tall, wide⟩ := grid .horizontal f horizontal
  obtain ⟨tall', wide'⟩ := grid .slope s slope
  exact ⟨tall'.trans tall.symm, wide'.trans wide.symm⟩

theorem OnGrid.markFailed {rows columns : Nat} {m : PageModel K} (h : m.OnGrid rows columns)
    (directions : List Direction) : (m.markFailed directions).OnGrid rows columns := by
  intro d f held
  rw [markFailed_track] at held
  split at held
  · cases held
  · exact h d f held

theorem OnGrid.setField {rows columns : Nat} {m next : PageModel K} (h : m.OnGrid rows columns)
    {f : Field K} (size : f.rows = rows ∧ f.columns = columns)
    (set : (m.setField f).result = .ok next) : next.OnGrid rows columns := by
  rw [Outcome.result_eq_ok_iff, PageModel.setField] at set
  split at set
  · cases set
  · split at set
    · cases set
    · cases set
      intro d g held
      rw [setTrack_track] at held
      split at held
      · cases held
        exact size
      · exact h d g held

end PageModel

/-! Models that are built from pages. -/

section Building

variable {K : Type} [Scalar K]

theorem Field.lineFits_length {heights : List K} {g : Grid K} {fits : List (Quadratic K)}
    (h : lineFits heights (.ofGrid g) = .ok fits) : fits.length = g.width := by
  rw [lineFits, Shaped.grid?_ofGrid] at h
  dsimp only at h
  split at h
  · cases h
  · split at h
    · cases h
    · have each := mapM_eq_ok_iff.mp h
      rw [← each.length_eq, List.length_range]

theorem VerticalFit.field_size {v : VerticalFit K} {columns rows stride : Nat} {f : Field K}
    (h : v.field columns rows stride = .ok f) : f.rows = rows ∧ f.columns = columns := by
  rw [VerticalFit.field, Field.ofLines] at h
  obtain ⟨fits, fitted, h⟩ := exists_of_bind_eq_ok h
  obtain ⟨_, samples⟩ := Field.make_ofGrid h
  rw [Field.rows, Field.columns, samples]
  exact ⟨Int.toNat_natCast rows, Field.lineFits_length fitted⟩

namespace BuildReport

theorem addEdges_onGrid {m : PageModel K} {columns rows stride : Nat}
    (grid : m.OnGrid rows columns) {lines : List (TextLine K)} {vertical : VerticalFit K}
    {report : BuildReport K} (h : addEdges m lines vertical columns rows stride = .ok report) :
    report.model.OnGrid rows columns := by
  rw [addEdges] at h
  split at h
  · cases h
    exact grid.markFailed _
  · obtain ⟨_, _, h⟩ := exists_of_bind_eq_ok h
    obtain ⟨_, _, h⟩ := exists_of_bind_eq_ok h
    dsimp only at h
    split at h
    · cases h
      exact grid.markFailed _
    · obtain ⟨edges, fitted, h⟩ := exists_of_bind_eq_ok h
      obtain ⟨straight, set, h⟩ := exists_of_bind_eq_ok h
      obtain ⟨⟨_, horizontal⟩, slope⟩ := EdgeFit.ofFlush_shape fitted
      have measured : ∀ statistics, { m with statistics }.OnGrid rows columns := by
        intro statistics d f held
        apply grid d f
        cases d <;> exact held
      have kept := (measured _).setField horizontal set
      cases given : edges.slope with
      | none =>
          rw [given] at h
          cases h
          exact kept.markFailed _
      | some field =>
          rw [given] at h
          obtain ⟨model, set', h⟩ := exists_of_bind_eq_ok h
          cases h
          exact kept.setField (slope field given).2 set'

theorem ofLines_onGrid {b : BuildSettings} {ink : Grid Bool} {page : Nat} {minLines : Value K}
    {detected : List (TextLine K)} {report : BuildReport K}
    (h : ofLines b ink page minLines detected = .ok report) :
    let start : PageModel K := .blank page ink.width ink.height b.stride b.reduction
    report.model.OnGrid start.rows.toNat start.columns.toNat := by
  intro start
  rw [ofLines] at h
  generalize detected.filter (fun l => decide (3 ≤ l.length)) = lines at h
  have nothing : ∀ m : PageModel K,
      (failed m lines).model.OnGrid start.rows.toNat start.columns.toNat := by
    intro m d f held
    rw [failed, PageModel.markFailed_track, if_pos (Or.inl rfl)] at held
    cases held
  obtain ⟨few, _, h⟩ := exists_of_bind_eq_ok h
  cases few with
  | true =>
      cases h
      exact nothing _
  | false =>
      obtain ⟨coverage, _, h⟩ := exists_of_bind_eq_ok h
      cases enough : coverage.enough with
      | false =>
          simp only [enough] at h
          cases h
          exact nothing _
      | true =>
          simp only [enough] at h
          obtain ⟨fit, _, h⟩ := exists_of_bind_eq_ok h
          cases fit with
          | none =>
              cases h
              exact nothing _
          | some vertical =>
              obtain ⟨field, made, h⟩ := exists_of_bind_eq_ok h
              obtain ⟨flat, set, h⟩ := exists_of_bind_eq_ok h
              have size := VerticalFit.field_size made
              refine addEdges_onGrid (PageModel.OnGrid.setField ?_ size set) h
              intro d f held
              cases d <;> cases held

theorem build_oneGrid {b : BuildSettings} {detector : Grid Bool → List (TextLine K)}
    {source : Source} {page minLines : Value K} {report : BuildReport K}
    (h : build b detector source page minLines = .ok report) : report.model.OneGrid := by
  rw [build] at h
  obtain ⟨_, _, h⟩ := exists_of_bind_eq_ok h
  obtain ⟨_, _, h⟩ := exists_of_bind_eq_ok h
  obtain ⟨_, _, h⟩ := exists_of_bind_eq_ok h
  exact ⟨_, _, ofLines_onGrid h⟩

end BuildReport

end Building

/-! Layouts and columns. -/

namespace Page

structure SameLayout (p out : Page) : Prop where
  pixelType : out.pixelType = p.pixelType
  dims : out.dims = p.dims

theorem check_eq_ok {p : Page} (tall : 0 < p.height) (wide : 0 < p.width) : p.check = .ok () := by
  rw [check, if_neg (by omega)]

variable {K : Type} [Scalar K]

theorem remap_layout (p : Page) (point : Nat → Nat → K × K) : p.SameLayout (p.remap point) := by
  cases p <;> exact ⟨rfl, rfl⟩

theorem displace_layout {p out : Page} {vertical : Shaped K} {horizontal : Option (Shaped K)}
    (h : p.displace vertical horizontal = .ok out) : p.SameLayout out := by
  rw [displace] at h
  obtain ⟨moved, first, h⟩ := exists_of_bind_eq_ok h
  obtain ⟨v, _, same⟩ := exists_of_bind_eq_ok first
  cases same
  have along := remap_layout p fun y x => (Scalar.ofNat x, Scalar.ofNat y - v.value y x)
  cases horizontal with
  | none =>
      cases h
      exact along
  | some d =>
      obtain ⟨g, _, same⟩ := exists_of_bind_eq_ok h
      cases same
      have across := remap_layout (p.moveVertically v) fun y x =>
        (Scalar.ofNat x - g.value y x, Scalar.ofNat y)
      exact ⟨across.pixelType.trans along.pixelType, across.dims.trans along.dims⟩

theorem inkOf_eq_ok {p : Page} (whole : p.check = .ok ()) :
    ∃ ink, RenderPlan.inkOf K (.page p) = .ok ink ∧
      ink.height = p.height ∧ ink.width = p.width := by
  cases p with
  | bit g => exact ⟨g, rfl, rfl, rfl⟩
  | gray g =>
      refine ⟨separate K g 0, ?_, rfl, rfl⟩
      rw [RenderPlan.inkOf, Source.binarize, load_page whole]
      · rfl
      · simp
  | color g =>
      refine ⟨separate K (g.map Rgb.luma) 0, ?_, rfl, rfl⟩
      rw [RenderPlan.inkOf, Source.binarize, load_page whole]
      · rfl
      · simp

/-- The margins that are clipped before columns are counted are numbers: on the rationals always, on
doubles for every size that a page can have. -/
def Clippable (K : Type) [Scalar K] (p : Page) : Prop :=
  ∀ side, side = p.height ∨ side = p.width →
    Scalar.notFinite? ((ColumnSettings.standard : ColumnSettings K).clip * Scalar.ofNat side) = none

theorem standardCounter_eq_ok {p : Page} (clippable : p.Clippable K) {ink : Grid Bool}
    (tall : ink.height = p.height) (wide : ink.width = p.width) :
    ∃ n, standardCounter K ink = .ok n := by
  have finite : ∀ x : K, Scalar.notFinite? x = none →
      Value.truncated x = .ok (Scalar.trunc x) := by
    intro x h
    rw [Value.truncated, h]
  have top := finite _ (clippable ink.height (Or.inl tall))
  have left := finite _ (clippable ink.width (Or.inr wide))
  rw [standardCounter, ColumnSettings.count, top, left]
  simp only [bind, Except.bind]
  split
  · rename_i fault failed
    split at failed <;> cases failed
  · exact ⟨_, rfl⟩

theorem countable_of {p : Page} (whole : p.check = .ok ()) (settings : Settings)
    {injected : Option ColumnCounter}
    (answers : ∀ counter, injected = some counter → ∀ ink, ∃ n, counter ink = .ok n)
    (clippable : injected = none → p.Clippable K) :
    p.Countable K settings (injected.getD (standardCounter K)) := by
  intro _
  obtain ⟨ink, read, tall, wide⟩ := inkOf_eq_ok (K := K) whole
  have counts : ∃ n, injected.getD (standardCounter K) ink = .ok n := by
    cases injected with
    | none => exact standardCounter_eq_ok (clippable rfl) tall wide
    | some counter => exact answers counter rfl ink
  obtain ⟨n, counts⟩ := counts
  refine ⟨n, ?_⟩
  rw [columnCount, read]
  exact counts

end Page

namespace PageModel.Flattens

variable {K : Type} [Scalar K]

theorem sameLayout {settings : Settings} {counter : ColumnCounter} {p out : Page} {m : PageModel K}
    (h : m.Flattens settings counter p out) : p.SameLayout out := by
  obtain ⟨_, _, _, _, both, one⟩ := h.moved
  by_cases two : BothWays settings counter p m
  · obtain ⟨_, _, _, _, done⟩ := both two
    exact Page.displace_layout done
  · exact Page.displace_layout (one two)

end PageModel.Flattens

/-! Rendering with any state of a collection. -/

namespace Collection

variable {K : Type} [Scalar K]

theorem render_of_not_ready {c : Collection K} (h : c.ready = false) (counter : ColumnCounter)
    {image : Source} {p : Page} (loaded : image.load = .ok p) (whole : p.check = .ok ())
    (page : Int) : c.render counter image page = .error .notReady := by
  rw [render, loaded]
  change (p.check >>= fun _ => RenderPlan.make c counter (.page p) page >>= fun plan =>
    plan.apply p) = _
  rw [whole, RenderPlan.make, h]
  rfl

theorem make_of_some {c : Collection K} (ready : c.ready = true) {counter : ColumnCounter}
    {p : Page} (counted : p.Countable K c.settings counter) {page : Int} {m : PageModel K}
    (some : c.effective page = Option.some m) :
    ∃ plan, RenderPlan.make c counter (.page p) page = .ok plan ∧ plan.model = Option.some m ∧
      (plan.horizontal = true → m.horizontalValid = true) := by
  obtain ⟨columns, counts, _⟩ := RenderPlan.countColumns_eq_ok counted
  simp only [RenderPlan.make, ready, some, counts, bind, Except.bind]
  refine ⟨_, rfl, rfl, ?_⟩
  intro both
  simp only [Bool.and_eq_true] at both
  exact both.1.2

omit [Scalar K] in
theorem wellBuilt_of_effective {c : Collection K} (h : c.Consistent)
    (grids : ∀ q m, c.slot? q = some m → m.OneGrid) {page : Int} {m : PageModel K}
    (found : c.effective page = some m) : m.WellBuilt := by
  obtain ⟨built, _, held⟩ := effective_cases found
  have stored : ∃ q, c.slot? q = some m := by
    rcases held with own | ⟨_, q, _, _, donor⟩
    · exact ⟨_, (slot?_of_model? own).2⟩
    · exact ⟨_, (slot?_of_model? donor).2⟩
  obtain ⟨q, stored⟩ := stored
  obtain ⟨_, belongs⟩ := h.slots q m stored
  have drawn : m.Drawn c.settings.build m.page :=
    ⟨⟨rfl, belongs.stride, belongs.reduction, redirect_eq_none built⟩, (grids q m stored).matching⟩
  exact drawn.wellBuilt

structure Renders (c : Collection K) (counter : ColumnCounter) (image : Source) (page : Int)
    (p : Page) : Prop where
  result : ∃ out, c.render counter image page = .ok out ∧ p.SameLayout out
  untouched : c.effective page = none → c.render counter image page = .ok p
  planned : ∀ m, c.effective page = some m →
    ∃ plan, RenderPlan.make c counter (.page p) page = .ok plan ∧ plan.model = some m ∧
      (∃ f, m.vertical.field? = some f) ∧
      (plan.horizontal = true → ∃ g, m.horizontal.field? = some g)

theorem renders_of_countable {c : Collection K} (h : c.Consistent) (ready : c.ready = true)
    (grids : ∀ q m, c.slot? q = some m → m.OneGrid) {image : Source} {p : Page}
    (loaded : image.load = .ok p) (whole : p.check = .ok ()) {counter : ColumnCounter}
    (counted : p.Countable K c.settings counter) (page : Int) :
    c.Renders counter image page p := by
  refine ⟨?_, render_of_none ready loaded whole, ?_⟩
  · cases found : c.effective page with
    | none => exact ⟨p, render_of_none ready loaded whole found, rfl, rfl⟩
    | some m =>
        have valid := (effective_cases found).2.1
        have built := wellBuilt_of_effective h grids found
        obtain ⟨out, rendered, flat⟩ :=
          render_flattens ready loaded whole found valid built counted
        exact ⟨out, rendered, flat.sameLayout⟩
  · intro m found
    obtain ⟨plan, made, model, both⟩ := make_of_some ready counted found
    refine ⟨plan, made, model, Track.field?_of_accepted (effective_cases found).2.1, ?_⟩
    intro horizontal
    exact Track.field?_of_accepted (both horizontal)

/-- Whatever has been done to a collection, as long as the fields of each of its models share a
grid, every page with pixels can be rendered once references are resolved, with a counter that
always answers or with the standard one. Until then it is refused. Models that are built from pages
are of that kind. -/
theorem render_safe {c : Collection K} (h : Reachable (fun _ _ => True) c) {image : Source}
    {p : Page} (loaded : image.load = .ok p) (tall : 0 < p.height) (wide : 0 < p.width)
    (injected : Option ColumnCounter) (page : Int) :
    (c.ready = true → (∀ q m, c.slot? q = some m → m.OneGrid) →
      (∀ counter, injected = some counter → ∀ ink, ∃ n, counter ink = .ok n) →
      (injected = none → p.Clippable K) →
      c.Renders (injected.getD (standardCounter K)) image page p) ∧
    (c.ready = false →
      c.render (injected.getD (standardCounter K)) image page = .error .notReady) ∧
    ∀ b detector source number minLines (report : BuildReport K),
      BuildReport.build b detector source number minLines = .ok report → report.model.OneGrid := by
  have whole := Page.check_eq_ok tall wide
  refine ⟨?_, ?_, fun _ _ _ _ _ _ built => BuildReport.build_oneGrid built⟩
  · intro ready grids answers clippable
    have counted := Page.countable_of (K := K) whole c.settings answers clippable
    exact renders_of_countable h.consistent ready grids loaded whole counted page
  · intro unready
    exact render_of_not_ready unready _ loaded whole page

def countedCalls : List (Call Rat) := bookletCalls ++ [.assign .checkColumns (.bool true)]

def paleSheet : Page := .gray (Grid.replicate 100 70 200)

theorem counted_renders :
    (standardShelf.afterCalls countedCalls).settings.checkColumns = true ∧
      ((standardShelf.afterCalls countedCalls).effective 4).map (·.page) = some 0 ∧
      (standardShelf.afterCalls countedCalls).Renders (standardCounter Rat) (.page paleSheet) 4
        paleSheet := by
  refine ⟨by decide +kernel, by decide +kernel, ?_⟩
  have reachable : Reachable (fun _ _ => True) (standardShelf.afterCalls countedCalls) :=
    (standardShelf_reachable _).afterCalls fun _ _ _ => trivial
  have grids : ∀ q < (standardShelf.afterCalls countedCalls).capacity, ∀ d ∈ Direction.all,
      (((standardShelf.afterCalls countedCalls).slot? q).bind fun m => (m.track d).field?).all
        (fun f => f.rows == 1 && f.columns == 1) = true := by
    decide +kernel
  refine (render_safe reachable (Page.load_page rfl) (by decide) (by decide) none 4).1
    (by decide +kernel) ?_ (by simp) (fun _ _ _ => rfl)
  intro q m held
  refine ⟨1, 1, fun d f field => ?_⟩
  have size := grids q (lt_capacity_of_isSome (by rw [held]; rfl)) d (by cases d <;> decide)
  simpa [held, field] using size

end Collection

end PageFlattening
