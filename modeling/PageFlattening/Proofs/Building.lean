import PageFlattening.Document.Basic
import PageFlattening.Proofs.Rendering

/-! The models that pages are built to. Whatever the lines of a page are, its model is one of the
page, on the grid of the settings, and its fields go together (`Drawn`). An image that a model can
be built from is a page with pixels. -/
namespace PageFlattening

namespace Field

variable {K : Type} [Scalar K]

theorem make_ofGrid {d : Direction} {g : Grid K} {stride : Value K} {f : Field K}
    (h : make (.ok d) (.ofGrid g) stride = .ok f) : f.direction = d ∧ f.samples = g := by
  rw [make, Shaped.grid?_ofGrid] at h
  by_cases empty : g.isEmpty = true
  · simp [empty, bind, Except.bind] at h
  · simp only [empty] at h
    obtain ⟨s, _, h⟩ := exists_of_bind_eq_ok h
    change ofGrid d g s.val s.property = .ok f at h
    rw [ofGrid] at h
    split at h
    · cases h
      exact ⟨rfl, rfl⟩
    · cases h

theorem edgeSamples_size {leftEdge rightEdge unit : K} {left right : List K}
    (same : left.length = right.length) {columns : Nat} {g : Grid K}
    (h : edgeSamples leftEdge rightEdge left right unit columns = .ok g) :
    g.height = left.length ∧ g.width = columns := by
  rw [edgeSamples, commonLength, if_pos same] at h
  split at h
  · cases h
    exact ⟨rfl, rfl⟩
  · cases h
    exact ⟨rfl, rfl⟩

theorem ofEdges_shape {d : Direction} {leftEdge rightEdge : K} {left right : List K}
    (same : left.length = right.length) {stride : Value K} {columns : Int} {f : Field K}
    (h : ofEdges (.ok d) leftEdge rightEdge left right stride columns = .ok f) :
    f.direction = d ∧ f.rows = left.length ∧ f.columns = columns.toNat := by
  rw [ofEdges] at h
  cases step : stride.number? with
  | none => simp [step] at h
  | some unit =>
      rw [step] at h
      obtain ⟨g, samples, made⟩ := exists_of_bind_eq_ok h
      obtain ⟨direction, rfl⟩ := make_ofGrid made
      exact ⟨direction, edgeSamples_size same samples⟩

end Field

namespace EdgeFit

variable {K : Type} [Scalar K]

theorem field_shape {d : Direction} {left right : List K} (same : left.length = right.length)
    {odd : Bool} {columns stride : Nat} {f : Field K}
    (h : field d left right odd columns stride = .ok f) :
    f.direction = d ∧ f.rows = left.length ∧ f.columns = columns := by
  rw [field] at h
  obtain ⟨⟨toLeft, toRight⟩, _, h⟩ := exists_of_bind_eq_ok h
  have shape := Field.ofEdges_shape (by rw [List.length_map, List.length_map, same]) h
  rwa [List.length_map, Int.toNat_natCast] at shape

theorem ofFlush_shape {leftFlush rightFlush : List (Point K)} {allFlush : Bool} {height : Int}
    {odd : Bool} {columns rows stride : Nat} {e : EdgeFit K}
    (h : ofFlush leftFlush rightFlush allFlush height odd columns rows stride = .ok e) :
    (e.horizontal.direction = .horizontal ∧ e.horizontal.rows = rows ∧
      e.horizontal.columns = columns) ∧
    ∀ s, e.slope = some s → s.direction = .slope ∧ s.rows = rows ∧ s.columns = columns := by
  have shape : ∀ {d : Direction} {left right : K → K} {f : Field K},
      field d ((rowHeights rows stride).map left) ((rowHeights rows stride).map right) odd columns
        stride = .ok f → f.direction = d ∧ f.rows = rows ∧ f.columns = columns := by
    intro d left right f made
    have shape := field_shape (by rw [List.length_map, List.length_map]) made
    rwa [List.length_map, rowHeights, List.length_map, List.length_range] at shape
  rw [ofFlush] at h
  obtain ⟨_, _, h⟩ := exists_of_bind_eq_ok h
  obtain ⟨_, _, h⟩ := exists_of_bind_eq_ok h
  obtain ⟨_, _, h⟩ := exists_of_bind_eq_ok h
  obtain ⟨_, _, h⟩ := exists_of_bind_eq_ok h
  obtain ⟨_, _, h⟩ := exists_of_bind_eq_ok h
  obtain ⟨_, _, h⟩ := exists_of_bind_eq_ok h
  obtain ⟨horizontal, made, h⟩ := exists_of_bind_eq_ok h
  split at h
  · cases h
    exact ⟨shape made, by simp⟩
  · obtain ⟨_, _, h⟩ := exists_of_bind_eq_ok h
    obtain ⟨_, _, h⟩ := exists_of_bind_eq_ok h
    obtain ⟨slope, made', h⟩ := exists_of_bind_eq_ok h
    cases h
    refine ⟨shape made, ?_⟩
    rintro s ⟨rfl⟩
    exact shape made'

end EdgeFit

namespace PageModel

variable {K : Type}

structure On (b : BuildSettings) (page : Nat) (m : PageModel K) : Prop where
  page : m.page = page
  stride : m.stride = b.stride
  reduction : m.reduction = b.reduction
  redirect : m.redirect = none

def Matching (m : PageModel K) : Prop :=
  ∀ f s, m.horizontal.field? = some f → m.slope.field? = some s →
    s.rows = f.rows ∧ s.columns = f.columns

/-- A model as it comes out of building a page. -/
structure Drawn (b : BuildSettings) (page : Nat) (m : PageModel K) : Prop extends On b page m where
  matching : m.Matching

theorem On.setTrack {b : BuildSettings} {page : Nat} {m : PageModel K} (h : On b page m)
    (d : Direction) (t : Track K) : On b page (m.setTrack d t) := by
  cases d <;> exact ⟨h.page, h.stride, h.reduction, h.redirect⟩

theorem On.markFailed {b : BuildSettings} {page : Nat} {m : PageModel K} (h : On b page m)
    (directions : List Direction) : On b page (m.markFailed directions) := by
  rw [PageModel.markFailed]
  generalize (if directions.isEmpty = true then Direction.all else directions) = failing
  induction failing generalizing m with
  | nil => exact h
  | cons d rest ih => exact ih (h.setTrack d .failed)

theorem On.setField {b : BuildSettings} {page : Nat} {m next : PageModel K} (h : On b page m)
    {f : Field K} (set : (m.setField f).result = .ok next) :
    On b page next ∧ next = m.setTrack f.direction (.held .pending f) := by
  rw [Outcome.result_eq_ok_iff, PageModel.setField] at set
  split at set
  · cases set
  · split at set
    · cases set
    · cases set
      exact ⟨h.setTrack _ _, rfl⟩

theorem matching_of_horizontal {m : PageModel K} (h : m.horizontal = .failed) : m.Matching := by
  intro f s held
  rw [h] at held
  cases held

theorem Drawn.failed {b : BuildSettings} {page : Nat} {m : PageModel K} (h : On b page m)
    {directions : List Direction} (horizontal : (m.markFailed directions).horizontal = .failed) :
    Drawn b page (m.markFailed directions) :=
  ⟨h.markFailed directions, matching_of_horizontal horizontal⟩

theorem Drawn.wellBuilt {b : BuildSettings} {page : Nat} {m : PageModel K} (h : Drawn b page m) :
    m.WellBuilt := by
  refine ⟨?_, h.matching⟩
  have stride := b.stride_ge
  rw [h.stride, h.reduction]
  rcases b.reduction_eq with one | two
  · rw [one]
    omega
  · rw [two]
    omega

end PageModel

namespace BuildReport

variable {K : Type} [Scalar K]

theorem addEdges_drawn {b : BuildSettings} {page : Nat} {m : PageModel K} (on : m.On b page)
    {lines : List (TextLine K)} {vertical : VerticalFit K} {columns rows stride : Nat}
    {report : BuildReport K} (h : addEdges m lines vertical columns rows stride = .ok report) :
    report.model.Drawn b page := by
  have alone : (m.markFailed [.horizontal, .slope]).Drawn b page := .failed on rfl
  rw [addEdges] at h
  split at h
  · cases h
    exact alone
  · obtain ⟨_, _, h⟩ := exists_of_bind_eq_ok h
    obtain ⟨_, _, h⟩ := exists_of_bind_eq_ok h
    dsimp only at h
    split at h
    · cases h
      exact alone
    · obtain ⟨edges, fitted, h⟩ := exists_of_bind_eq_ok h
      obtain ⟨straight, set, h⟩ := exists_of_bind_eq_ok h
      obtain ⟨⟨direction, tall, wide⟩, slope⟩ := EdgeFit.ofFlush_shape fitted
      have measured : ∀ statistics, { m with statistics }.On b page :=
        fun _ => ⟨on.page, on.stride, on.reduction, on.redirect⟩
      obtain ⟨on, rfl⟩ := (measured _).setField set
      rw [direction] at on h
      cases given : edges.slope with
      | none =>
          rw [given] at h
          cases h
          refine ⟨on.markFailed [.slope], ?_⟩
          intro f s _ held
          cases held
      | some field =>
          rw [given] at h
          obtain ⟨model, set', h⟩ := exists_of_bind_eq_ok h
          obtain ⟨on, rfl⟩ := on.setField set'
          obtain ⟨direction', tall', wide'⟩ := slope field given
          rw [direction'] at on h
          cases h
          refine ⟨on, ?_⟩
          rintro f s ⟨rfl⟩ ⟨rfl⟩
          exact ⟨tall'.trans tall.symm, wide'.trans wide.symm⟩

theorem ofLines_drawn {b : BuildSettings} {ink : Grid Bool} {page : Nat} {minLines : Value K}
    {detected : List (TextLine K)} {report : BuildReport K}
    (h : ofLines b ink page minLines detected = .ok report) : report.model.Drawn b page := by
  rw [ofLines] at h
  generalize detected.filter (fun l => decide (3 ≤ l.length)) = lines at h
  have nothing : ∀ m : PageModel K, m.On b page → (failed m lines).model.Drawn b page :=
    fun m on => .failed on rfl
  obtain ⟨few, _, h⟩ := exists_of_bind_eq_ok h
  cases few with
  | true =>
      cases h
      exact nothing _ ⟨rfl, rfl, rfl, rfl⟩
  | false =>
      obtain ⟨coverage, _, h⟩ := exists_of_bind_eq_ok h
      cases enough : coverage.enough with
      | false =>
          simp only [enough] at h
          cases h
          exact nothing _ ⟨rfl, rfl, rfl, rfl⟩
      | true =>
          simp only [enough] at h
          obtain ⟨fit, _, h⟩ := exists_of_bind_eq_ok h
          cases fit with
          | none =>
              cases h
              exact nothing _ ⟨rfl, rfl, rfl, rfl⟩
          | some vertical =>
              obtain ⟨field, _, h⟩ := exists_of_bind_eq_ok h
              obtain ⟨flat, set, h⟩ := exists_of_bind_eq_ok h
              exact addEdges_drawn (PageModel.On.setField ⟨rfl, rfl, rfl, rfl⟩ set).1 h

theorem build_drawn {b : BuildSettings} {detector : Grid Bool → List (TextLine K)}
    {source : Source} {page : Nat} {report : BuildReport K}
    (h : build b detector source (.int page) .null = .ok report) : report.model.Drawn b page := by
  rw [build] at h
  obtain ⟨ink, _, h⟩ := exists_of_bind_eq_ok h
  have natural : ¬ (page : Int) < 0 := by omega
  simp only [checkPage, natural, if_false, Int.toNat_natCast] at h
  obtain ⟨p, same, h⟩ := exists_of_bind_eq_ok h
  cases same
  obtain ⟨_, _, h⟩ := exists_of_bind_eq_ok h
  exact ofLines_drawn h

end BuildReport

namespace Source

theorem loadBit_bit {ink read : Grid Bool} (h : (Source.page (.bit ink)).loadBit = .ok read) :
    read = ink ∧ (Page.bit ink).check = .ok () := by
  rw [loadBit] at h
  obtain ⟨p, loaded, h⟩ := exists_of_bind_eq_ok h
  obtain ⟨_, whole, same⟩ := exists_of_bind_eq_ok loaded
  cases same
  cases h
  exact ⟨rfl, whole⟩

end Source

theorem Page.load_page {p : Page} (whole : p.check = .ok ()) : (Source.page p).load = .ok p := by
  change (p.check >>= fun _ => .ok p) = _
  rw [whole]
  rfl

theorem Page.check_binarize {K : Type} [Scalar K] (p : Page) (threshold : Int) :
    (Page.bit (p.binarize K threshold)).check = p.check := by
  cases p <;> rfl

namespace Document

variable {K : Type} [Scalar K]

def modelFor (d : Document K) (page : Nat) (image : Source) : Except Fault (PageModel K) := do
  let ink ← d.prepare image
  let report ← BuildReport.build d.build TextLine.detectLong (.page (.bit ink)) (.int page) .null
  return report.model

theorem modelFor_drawn {d : Document K} {page : Nat} {image : Source} {m : PageModel K}
    (h : d.modelFor page image = .ok m) : m.Drawn d.build page := by
  rw [modelFor] at h
  obtain ⟨_, _, h⟩ := exists_of_bind_eq_ok h
  obtain ⟨report, built, h⟩ := exists_of_bind_eq_ok h
  cases h
  exact BuildReport.build_drawn built

theorem load_of_modelFor {d : Document K} {page : Nat} {image : Source} {m : PageModel K}
    (h : d.modelFor page image = .ok m) : ∃ p, image.load = .ok p ∧ p.check = .ok () := by
  rw [modelFor] at h
  obtain ⟨ink, prepared, h⟩ := exists_of_bind_eq_ok h
  obtain ⟨report, built, _⟩ := exists_of_bind_eq_ok h
  obtain ⟨read, pixels, _⟩ := exists_of_bind_eq_ok built
  rw [prepare] at prepared
  obtain ⟨full, binarized, reduced⟩ := exists_of_bind_eq_ok prepared
  obtain ⟨p, loaded, same⟩ := exists_of_bind_eq_ok binarized
  cases same
  refine ⟨p, loaded, ?_⟩
  rw [← Page.check_binarize (K := K) p 0]
  split at reduced
  · obtain ⟨_, _, reduced⟩ := exists_of_bind_eq_ok reduced
    obtain ⟨_, whole, _⟩ := exists_of_bind_eq_ok reduced
    exact (Source.loadBit_bit whole).2
  · cases reduced
    exact (Source.loadBit_bit pixels).2

theorem modelFor_of_prepare {d : Document K} {image : Source} {ink : Grid Bool}
    (prepared : d.prepare image = .ok ink) (whole : (Page.bit ink).check = .ok ()) (page : Nat) :
    d.modelFor page image =
      (BuildReport.ofLines d.build ink page (.int d.build.minLines)
        (TextLine.detectLong ink)).map BuildReport.model := by
  have number : BuildReport.checkPage (.int page : Value K) = .ok page := by
    simp [BuildReport.checkPage]
  simp only [modelFor, prepared, BuildReport.build, Source.loadBit, Page.load_page whole, number,
    BuildReport.checkMinLines, bind, Except.bind, pure, Except.pure]
  cases BuildReport.ofLines d.build ink page (.int d.build.minLines : Value K)
    (TextLine.detectLong ink) <;> rfl

theorem modelFor_bit {d : Document K} (full : d.collection.settings.build.reduction ≠ 2)
    {ink : Grid Bool} (whole : (Page.bit ink).check = .ok ()) (page : Nat) :
    d.modelFor page (.page (.bit ink)) =
      (BuildReport.ofLines d.build ink page (.int d.build.minLines)
        (TextLine.detectLong ink)).map BuildReport.model := by
  have prepared : d.prepare (.page (.bit ink)) = .ok ink := by
    simp only [prepare, Source.binarize, Page.load_page whole, full, if_false]
    rfl
  exact modelFor_of_prepare prepared whole page

end Document

end PageFlattening
