import PageFlattening.Proofs.Adding
import PageFlattening.Proofs.Evaluation

/-! Processing a list of pages. Once its pages are built, resolving gives every page the model that
serves it, and rendering turns it into what `Corrected` says. For a new document this is a
definition page by page, in which the run, the storage and the cache no longer occur. -/
namespace PageFlattening

namespace Document

variable {K : Type} [Scalar K]

structure Processed (d : Document K) (images : List Source) (after : Document K) : Prop
    extends Follows d after where
  sound : after.Sound
  ready : after.collection.ready = true
  passing : ∀ q, after.collection.passing false q = d.validAfter images q
  serves : ∀ i < images.length, Collection.Serves (d.validAfter images)
    d.collection.settings.maxDistance i (after.collection.effective i)

theorem Added.processed {d next : Document K} {images : List Source} (h : Added d images next)
    (sound : d.Sound) (enough : images.length ≤ next.collection.declaredPages) :
    ∃ after, next.resolve false = .done after ∧ Processed d images after := by
  have sound' := h.sound sound
  have workable := h.consistent.workable
  obtain ⟨size, cacheSize⟩ := sound'.bounded
  obtain ⟨c, done, concluded⟩ := Collection.resolve_concluded h.consistent h.covered cacheSize
    false .omitted
  have consistent := Collection.resolve_consistent h.consistent false (.null : Value K)
  have covered := Collection.resolve_covered h.consistent h.covered false (.null : Value K)
  rw [done, Outcome.done_state] at consistent covered
  have below : ∀ p m, next.collection.own? p = some m →
      p < max 0 next.collection.declaredPages := by
    intro p m own
    have := Collection.own?_lt_declaredPages h.covered own
    omega
  have passing : ∀ q, c.passing false q = d.validAfter images q := by
    intro q
    rw [concluded.passing workable below, h.passing]
  have frame : Follows next { next with collection := c } :=
    ⟨concluded.settings, concluded.cacheSize, rfl, rfl, rfl⟩
  refine ⟨{ next with collection := c }, ?_, h.toFollows.trans frame, ?_, concluded.ready, passing,
    ?_⟩
  · simp only [resolve, done]
    rfl
  · refine ⟨consistent, covered, ⟨size, concluded.cacheSize.trans cacheSize⟩, ?_,
      sound'.workers, ?_⟩
    · rw [concluded.settings]
      exact sound'.build
    · intro q m passes
      rw [passing, ← h.passing] at passes
      exact sound'.wellBuilt q m passes
  · intro i inside
    have served := concluded.arranged.serves workable below (p := i) (by omega)
    rw [h.settings] at served
    rwa [funext h.passing] at served

theorem process_of_builds {d : Document K} (sound : d.Sound) {images : List Source}
    (builds : d.Builds images) :
    ∃ after, Processed d images after ∧ d.process images =
      ((numbered images).mapM fun e => after.render e.2 e.1, after) := by
  obtain ⟨results, next, added, h, enough⟩ := addPages_added sound builds
  obtain ⟨after, resolved, processed⟩ := h.processed sound enough
  refine ⟨after, processed, ?_⟩
  simp only [process, added, resolved]
  rfl

theorem builds_of_process {d : Document K} (sound : d.Sound) {images : List Source}
    {pages : List Page} (h : (d.process images).1 = .ok pages) : d.Builds images := by
  cases added : (d.addPages (numbered images) false).1 with
  | ok models => exact builds_of_addPages sound added
  | error fault =>
      simp only [process, added] at h
      cases h

theorem mapM_numbered {images : List Source} {f : Int × Source → Except Fault Page}
    {pages : List Page} :
    (numbered images).mapM f = .ok pages ↔ pages.length = images.length ∧
      ∀ (i : Nat) image, images[i]? = some image →
        ∃ out, pages[i]? = some out ∧ f (i, image) = .ok out := by
  have length : (numbered images).length = images.length := by simp [numbered]
  rw [mapM_eq_ok_iff, List.forall₂_iff_get]
  constructor
  · rintro ⟨same, each⟩
    refine ⟨by omega, fun i image found => ?_⟩
    obtain ⟨inside, rfl⟩ := List.getElem?_eq_some_iff.mp found
    have here := each i (by omega) (by omega)
    exact ⟨pages[i], List.getElem?_eq_getElem _, by simpa [numbered] using here⟩
  · rintro ⟨same, each⟩
    refine ⟨by omega, fun i inside inside' => ?_⟩
    obtain ⟨out, found, done⟩ := each i images[i] (List.getElem?_eq_getElem _)
    obtain ⟨_, rfl⟩ := List.getElem?_eq_some_iff.mp found
    simpa [numbered] using done

/-- What a page becomes, by the valid models of all pages: it is flattened with the model that
serves it, and stays as it is where none does. -/
inductive Corrected (settings : Settings) (counter : ColumnCounter)
    (valid : Nat → Option (PageModel K)) (i : Nat) (p : Page) : Page → Prop
  | flattened {m : PageModel K} {out : Page}
      (served : Collection.Serves valid settings.maxDistance i (some m))
      (flat : m.Flattens settings counter p out) : Corrected settings counter valid i p out
  | untouched (unserved : Collection.Serves valid settings.maxDistance i none) :
      Corrected settings counter valid i p p

theorem Corrected.unique {settings : Settings} {counter : ColumnCounter}
    {valid : Nat → Option (PageModel K)} {i : Nat} {p a b : Page}
    (h : Corrected settings counter valid i p a) (g : Corrected settings counter valid i p b) :
    a = b := by
  cases h with
  | flattened served flat =>
      cases g with
      | flattened served' flat' =>
          cases served.unique served'
          exact flat.unique flat'
      | untouched unserved => cases served.unique unserved
  | untouched unserved =>
      cases g with
      | flattened served => cases unserved.unique served
      | untouched => rfl

theorem Corrected.transfer {settings : Settings} {counter : ColumnCounter}
    {valid valid' : Nat → Option (PageModel K)} {i : Nat} {p out : Page}
    (h : Corrected settings counter valid i p out) {served : Option (PageModel K)}
    (serves : Collection.Serves valid settings.maxDistance i served)
    (serves' : Collection.Serves valid' settings.maxDistance i served) :
    Corrected settings counter valid' i p out := by
  cases h with
  | flattened here flat =>
      cases serves.unique here
      exact .flattened serves' flat
  | untouched unserved =>
      cases serves.unique unserved
      exact .untouched serves'

theorem verticalValid_of_validAfter {d : Document K} {images : List Source} {q : Nat}
    {m : PageModel K} (h : d.validAfter images q = some m) : m.verticalValid = true := by
  rw [validAfter] at h
  split at h
  · obtain ⟨_, _, _, valid⟩ := Collection.keptPart_eq_some_iff.mp h
    exact valid
  · obtain ⟨_, _, _, valid⟩ := Collection.keptPart_eq_some_iff.mp h
    exact valid

theorem Processed.render_eq_ok_iff {d after : Document K} {images : List Source}
    (h : Processed d images after) {i : Nat} (inside : i < images.length) {image : Source}
    {p : Page} (loaded : image.load = .ok p) (whole : p.check = .ok ()) (out : Page) :
    after.render image i = .ok out ↔
      Corrected d.collection.settings d.counter (d.validAfter images) i p out := by
  have served := h.serves i inside
  rw [render]
  cases effective : after.collection.effective i with
  | none =>
      rw [effective] at served
      rw [Collection.render_of_none h.ready loaded whole effective]
      constructor
      · rintro ⟨⟩
        exact .untouched served
      · intro corrected
        rw [corrected.unique (.untouched served)]
  | some m =>
      -- The model stands for a page that may be another one, but is well built in any case.
      rw [effective] at served
      obtain ⟨q, held⟩ := served.exists_valid
      have built := h.sound.wellBuilt q m ((h.passing q).trans held)
      rw [Collection.render_eq_ok_iff h.ready loaded whole effective
        (verticalValid_of_validAfter held) built, h.settings, h.counter]
      constructor
      · exact .flattened served
      · intro corrected
        cases corrected with
        | flattened served' flat =>
            cases served.unique served'
            exact flat
        | untouched unserved => cases served.unique unserved

def CorrectedPages (d : Document K) (valid : Nat → Option (PageModel K)) (images : List Source)
    (pages : List Page) : Prop :=
  pages.length = images.length ∧ ∀ i image p, images[i]? = some image → image.load = .ok p →
    ∃ out, pages[i]? = some out ∧
      Corrected d.collection.settings d.counter valid i p out

theorem process_eq_ok_iff {d : Document K} (sound : d.Sound) {images : List Source}
    (builds : d.Builds images) (pages : List Page) :
    (d.process images).1 = .ok pages ↔ d.CorrectedPages (d.validAfter images) images pages := by
  obtain ⟨after, processed, done⟩ := process_of_builds sound builds
  rw [done, mapM_numbered, CorrectedPages]
  refine and_congr_right fun _ => ?_
  constructor
  · intro rendered i image p found loaded
    obtain ⟨inside, _⟩ := List.getElem?_eq_some_iff.mp found
    obtain ⟨m, built⟩ := builds i image found
    obtain ⟨p', loaded', whole⟩ := load_of_modelFor built
    cases loaded.symm.trans loaded'
    obtain ⟨out, here, shown⟩ := rendered i image found
    exact ⟨out, here, (processed.render_eq_ok_iff inside loaded whole out).mp shown⟩
  · intro corrected i image found
    obtain ⟨inside, _⟩ := List.getElem?_eq_some_iff.mp found
    obtain ⟨m, built⟩ := builds i image found
    obtain ⟨p, loaded, whole⟩ := load_of_modelFor built
    obtain ⟨out, here, shown⟩ := corrected i image p found loaded
    exact ⟨out, here, (processed.render_eq_ok_iff inside loaded whole out).mpr shown⟩

theorem mem_numbered {images : List Source} {e : Int × Source} (h : e ∈ numbered images) :
    ∃ i : Nat, e.1 = i ∧ images[i]? = some e.2 := by
  obtain ⟨⟨image, i⟩, member, rfl⟩ := List.mem_map.mp h
  exact ⟨i, rfl, List.mem_zipIdx_iff_getElem?.mp member⟩

/-- Nothing can go wrong once the models are there, but for the counting of columns. -/
theorem Processed.exists_render_eq_ok {d after : Document K} {images : List Source}
    (h : Processed d images after) {i : Nat} (inside : i < images.length) {image : Source}
    {p : Page} (loaded : image.load = .ok p) (whole : p.check = .ok ())
    (countable : ∀ m, Collection.Serves (d.validAfter images) d.collection.settings.maxDistance i
      (some m) → p.Countable K d.collection.settings d.counter) :
    ∃ out, after.render image i = .ok out := by
  have served := h.serves i inside
  cases effective : after.collection.effective i with
  | none => exact ⟨p, Collection.render_of_none h.ready loaded whole effective⟩
  | some m =>
      rw [effective] at served
      obtain ⟨q, held⟩ := served.exists_valid
      have counted := countable m served
      rw [← h.settings, ← h.counter] at counted
      obtain ⟨out, rendered, _⟩ := Collection.render_flattens h.ready loaded whole effective
        (verticalValid_of_validAfter held)
        (h.sound.wellBuilt q m ((h.passing q).trans held)) counted
      exact ⟨out, rendered⟩

theorem exists_process_eq_ok {d : Document K} (sound : d.Sound) {images : List Source}
    (builds : d.Builds images)
    (countable : ∀ i image p m, images[i]? = some image → image.load = .ok p →
      Collection.Serves (d.validAfter images) d.collection.settings.maxDistance i (some m) →
      p.Countable K d.collection.settings d.counter) :
    ∃ pages, (d.process images).1 = .ok pages := by
  obtain ⟨after, processed, done⟩ := process_of_builds sound builds
  rw [done]
  refine exists_mapM_eq_ok fun e member => ?_
  obtain ⟨i, page, found⟩ := mem_numbered member
  obtain ⟨inside, _⟩ := List.getElem?_eq_some_iff.mp found
  obtain ⟨m, built⟩ := builds i e.2 found
  obtain ⟨p, loaded, whole⟩ := load_of_modelFor built
  rw [page]
  exact processed.exists_render_eq_ok inside loaded whole fun m served =>
    countable i e.2 p m found loaded served

/-! A new document. -/

theorem create_eq {preset : String} {entries : List (String × Value K)} {workers : Option Int}
    {counter : ColumnCounter} {d : Document K} (h : create preset entries workers counter = .ok d) :
    ∃ settings size, d = ⟨.empty settings size, settings.build, workers, counter⟩ := by
  rw [create] at h
  obtain ⟨draft, _, h⟩ := exists_of_bind_eq_ok h
  obtain ⟨collection, opened, h⟩ := exists_of_bind_eq_ok h
  cases h
  obtain ⟨settings, size, rfl⟩ := Collection.ofDraft_eq_empty opened
  exact ⟨settings, size, rfl⟩

theorem create_passing {preset : String} {entries : List (String × Value K)}
    {workers : Option Int} {counter : ColumnCounter} {d : Document K}
    (h : create preset entries workers counter = .ok d) (q : Nat) :
    d.collection.passing false q = none := by
  obtain ⟨settings, size, rfl⟩ := create_eq h
  exact Collection.empty_passing settings size q

theorem create_workers {preset : String} {entries : List (String × Value K)}
    {workers : Option Int} {counter : ColumnCounter} {d : Document K}
    (h : create preset entries workers counter = .ok d) : d.workers = workers := by
  obtain ⟨settings, size, rfl⟩ := create_eq h
  rfl

theorem workforce_iff {workers : Option Int} :
    (∀ n, workers = some n → 0 < n) ↔ workers.any (· ≤ 0) = false := by
  cases workers <;> simp

theorem create_sound {preset : String} {entries : List (String × Value K)}
    {workers : Option Int} {counter : ColumnCounter} {d : Document K}
    (h : create preset entries workers counter = .ok d)
    (workforce : ∀ n, workers = some n → 0 < n) : d.Sound := by
  have none := create_passing h
  obtain ⟨settings, size, rfl⟩ := create_eq h
  refine ⟨(Collection.empty_opened settings size).consistent,
    Collection.empty_covered settings size, ⟨size, rfl⟩, rfl, workforce_iff.mp workforce, ?_⟩
  intro q m passes
  rw [none] at passes
  cases passes

theorem validModel_of_le {d : Document K} {images : List Source} {q : Nat}
    (beyond : images.length ≤ q) : d.validModel images q = none := by
  rw [validModel, List.getElem?_eq_none beyond]
  rfl

theorem validAfter_eq {d : Document K} (none : ∀ q, d.collection.passing false q = none)
    (images : List Source) : d.validAfter images = d.validModel images := by
  funext q
  rw [validAfter]
  split
  · rfl
  · rw [none, validModel_of_le (by omega)]

theorem CorrectedPages.page_eq {d : Document K} {valid valid' : Nat → Option (PageModel K)}
    {images others : List Source} {pages pages' : List Page}
    (h : d.CorrectedPages valid images pages) (g : d.CorrectedPages valid' others pages') {i : Nat}
    (same : others[i]? = images[i]?) (builds : d.Builds images) {served : Option (PageModel K)}
    (serves : Collection.Serves valid d.collection.settings.maxDistance i served)
    (serves' : Collection.Serves valid' d.collection.settings.maxDistance i served) :
    pages'[i]? = pages[i]? := by
  cases found : images[i]? with
  | none =>
      rw [found] at same
      have short := List.getElem?_eq_none_iff.mp found
      have short' := List.getElem?_eq_none_iff.mp same
      rw [← h.1] at short
      rw [← g.1] at short'
      rw [List.getElem?_eq_none short, List.getElem?_eq_none short']
  | some image =>
      obtain ⟨_, built⟩ := builds i image found
      obtain ⟨p, loaded, _⟩ := load_of_modelFor built
      obtain ⟨out, here, corrected⟩ := h.2 i image p found loaded
      obtain ⟨out', here', corrected'⟩ := g.2 i image p (same.trans found) loaded
      rw [here, here', (corrected.transfer serves serves').unique corrected']

theorem Processed.render_congr {d e after after' : Document K} {images others : List Source}
    (h : Processed d images after) (g : Processed e others after')
    (settings : e.collection.settings = d.collection.settings) (counter : e.counter = d.counter)
    {i : Nat} (inside : i < others.length)
    (alike : Collection.Serves (e.validAfter others) d.collection.settings.maxDistance i
      (after.collection.effective i)) (image : Source) :
    after'.render image i = after.render image i := by
  have served := g.serves i inside
  rw [settings] at served
  rw [render, render, h.counter, g.counter, counter]
  exact Collection.render_congr h.ready g.ready
    ((g.settings.trans settings).trans h.settings.symm) (served.unique alike) d.counter image

theorem process_congr {d e : Document K} (sound : d.Sound) (sound' : e.Sound)
    (settings : e.collection.settings = d.collection.settings) (counter : e.counter = d.counter)
    {images : List Source} (builds : d.Builds images)
    (alike : ∀ i served, i < images.length →
      Collection.Serves (d.validAfter images) d.collection.settings.maxDistance i served →
      Collection.Serves (e.validAfter images) d.collection.settings.maxDistance i served) :
    (e.process images).1 = (d.process images).1 := by
  have builds' : e.Builds images := by
    simpa only [Builds, modelFor, prepare, sound'.build, settings, ← sound.build] using builds
  obtain ⟨after, processed, done⟩ := process_of_builds sound builds
  obtain ⟨after', processed', done'⟩ := process_of_builds sound' builds'
  rw [done, done']
  refine mapM_congr fun e member => ?_
  obtain ⟨i, page, found⟩ := mem_numbered member
  obtain ⟨inside, _⟩ := List.getElem?_eq_some_iff.mp found
  rw [page]
  exact processed.render_congr processed' settings counter inside
    (alike i _ inside (processed.serves i inside)) e.2

theorem process_resized {d : Document K} (sound : d.Sound) {images : List Source}
    (builds : d.Builds images) (size : Nat) :
    ({ d with collection := { d.collection with cacheSize := .int size } }.process images).1 =
      (d.process images).1 := by
  have resized : { d with collection := { d.collection with cacheSize := .int size } }.Sound :=
    ⟨⟨⟨sound.consistent.capacity, sound.consistent.slots, sound.consistent.cached,
      sound.consistent.distinct, sound.consistent.apart⟩, sound.consistent.redirects⟩,
      sound.covered, ⟨size, rfl⟩, sound.build, sound.workers, sound.wellBuilt⟩
  exact process_congr sound resized rfl rfl builds fun _ _ _ served => served

theorem process_of_idle {d : Document K} (idle : d.workers.any (· ≤ 0) = true)
    (images : List Source) : (d.process images).1 = .error (.misuse .noWorkers) := by
  simp [process, addPages, idle]

/-- What processing a list of pages comes to, page by page. The pages that are given back are those
that the valid models of the list correct, and with workers they are given back unless the columns
of a page that has a model cannot be counted. A page with a valid model of its own is the same in
any list that has it in its place, and the size of the cache makes no difference. -/
structure PageByPage (d : Document K) (images : List Source) : Prop where
  corrected : ∀ pages, (d.process images).1 = .ok pages →
    d.CorrectedPages (d.validModel images) images pages
  complete : (∀ n, d.workers = some n → 0 < n) → ∀ pages,
    d.CorrectedPages (d.validModel images) images pages → (d.process images).1 = .ok pages
  succeeds : (∀ n, d.workers = some n → 0 < n) →
    (∀ i image p m, images[i]? = some image → image.load = .ok p →
      Collection.Serves (d.validModel images) d.collection.settings.maxDistance i (some m) →
      p.Countable K d.collection.settings d.counter) →
    ∃ pages, (d.process images).1 = .ok pages
  idle : ∀ n, d.workers = some n → n ≤ 0 → (d.process images).1 = .error (.misuse .noWorkers)
  own_page : ∀ others i pages pages', d.Builds others → others[i]? = images[i]? →
    (d.validModel images i).isSome → (d.process images).1 = .ok pages →
    (d.process others).1 = .ok pages' → pages'[i]? = pages[i]?
  cacheSize : ∀ size : Nat,
    ({ d with collection := { d.collection with cacheSize := .int size } }.process images).1 =
      (d.process images).1

theorem pageByPage_of_idle {d : Document K} (idle : d.workers.any (· ≤ 0) = true)
    (images : List Source) : d.PageByPage images := by
  have never : ∀ pages, (d.process images).1 ≠ .ok pages := by
    intro pages done
    rw [process_of_idle idle] at done
    cases done
  have unmanned : ¬ ∀ n, d.workers = some n → 0 < n := by
    rw [workforce_iff, idle]
    decide
  refine ⟨fun pages done => absurd done (never pages), fun workforce => absurd workforce unmanned,
    fun workforce => absurd workforce unmanned, fun _ _ _ => process_of_idle idle images,
    fun _ _ pages _ _ _ _ done => absurd done (never pages), fun size => ?_⟩
  rw [process_of_idle idle, process_of_idle]
  exact idle

/-- A new document corrects every page by itself. -/
theorem process_pageByPage {preset : String} {entries : List (String × Value K)}
    {workers : Option Int} {counter : ColumnCounter} {d : Document K}
    (h : create preset entries workers counter = .ok d) {images : List Source}
    (builds : d.Builds images) : d.PageByPage images := by
  have hired := create_workers h
  by_cases idle : d.workers.any (· ≤ 0) = true
  · exact pageByPage_of_idle idle images
  rw [hired, Bool.not_eq_true, ← workforce_iff] at idle
  have sound := create_sound h idle
  have alone := validAfter_eq (create_passing h)
  have corrected := fun {list} (built : d.Builds list) pages => by
    simpa only [alone] using process_eq_ok_iff sound built pages
  refine ⟨fun pages => (corrected builds pages).mp, fun _ pages => (corrected builds pages).mpr,
    fun _ countable => ?_, fun n some few => ?_, ?_, process_resized sound builds⟩
  · rw [← alone] at countable
    exact exists_process_eq_ok sound builds countable
  · have positive := idle n (hired.symm.trans some)
    omega
  · intro others i pages pages' builds' same own done done'
    obtain ⟨m, held⟩ := Option.isSome_iff_exists.mp own
    have held' : d.validModel others i = some m := by
      rw [validModel, same]
      exact held
    exact ((corrected builds pages).mp done).page_eq ((corrected builds' pages').mp done') same
      builds (.own held) (.own held')

end Document

namespace Stepped

def dot : Source := .page (.bit (Grid.replicate 1 1 true))

def entries : List (String × Value Rat) := [("minlines", .int 4), ("sampling", .int 99)]

def document : Document Rat where
  collection := .empty
    { build := settings, maxDistance := 16, useBoth := true, checkColumns := false,
      thresholds := .standard } 64
  build := settings
  workers := some 1
  counter := fun _ => .ok 1

theorem create_document :
    Document.create "default" entries (some 1) (fun _ => .ok 1) = .ok document := by
  rfl

def images : List Source := [dot, dot, .page (.bit page)]

theorem modelFor_page : ∃ m, document.modelFor 2 (.page (.bit page)) = .ok m ∧
    figures m = (-15, -15, some (-7497 / 5050)) := by
  rw [Document.modelFor_bit (by decide) rfl, detectLong_page]
  exact ofLines_figures (settings, 2) (by simp)

theorem detectLong_dot :
    (TextLine.detectLong (Grid.replicate 1 1 true) : List (TextLine Rat)) = [] := by
  decide +kernel

theorem modelFor_dot (j : Nat) : ∃ m, document.modelFor j dot = .ok m ∧ m.vertical = .failed := by
  rw [dot, Document.modelFor_bit (by decide) rfl, detectLong_dot]
  exact ⟨_, rfl, rfl⟩

theorem builds_images : document.Builds images := by
  intro j image found
  match j, found with
  | 0, rfl => exact (modelFor_dot 0).imp fun _ made => made.1
  | 1, rfl => exact (modelFor_dot 1).imp fun _ made => made.1
  | 2, rfl => exact modelFor_page.imp fun _ made => made.1

theorem validModel_dot {list : List Source} {j : Nat} (found : list[j]? = some dot) :
    document.validModel list j = none := by
  obtain ⟨m, made, failed⟩ := modelFor_dot j
  rw [Document.validModel_of_modelFor found made, PageModel.passes, failed]
  rfl

theorem passes_of_figures {m : PageModel Rat}
    (values : figures m = (-15, -15, some (-7497 / 5050))) :
    m.passes Thresholds.standard false = true := by
  simp only [figures, Prod.mk.injEq] at values
  obtain ⟨low, high, corner⟩ := values
  have held : m.vertical.field?.isSome = true := by
    cases field : m.vertical.field? with
    | none => simp [field] at corner
    | some f => rfl
  rw [PageModel.passes, held, Thresholds.acceptsLines, low, high]
  decide

theorem validModel_page : ∃ m, document.validModel images 2 = some m ∧ m.reduction = 1 ∧
    (m.vertical.field?.map fun f => f.sample 0 0) = some (-7497 / 5050) := by
  obtain ⟨m, made, values⟩ := modelFor_page
  have accepted := passes_of_figures values
  simp only [figures, Prod.mk.injEq] at values
  obtain ⟨-, -, corner⟩ := values
  refine ⟨_, (Document.validModel_of_modelFor rfl made).trans (if_pos accepted), ?_, ?_⟩
  · rw [PageModel.judged_reduction]
    exact (Document.modelFor_drawn made).reduction
  · rw [(PageModel.judged_sameSheet m.adopted _ _).vertical]
    exact corner

theorem images_pageByPage :
    Document.create "default" entries (some 1) (fun _ => .ok 1) = .ok document ∧
      document.Builds images ∧ document.validModel images 0 = none ∧
      (document.validModel images 2).isSome ∧ document.PageByPage images := by
  refine ⟨create_document, builds_images, validModel_dot rfl, ?_,
    Document.process_pageByPage create_document builds_images⟩
  obtain ⟨m, held, _⟩ := validModel_page
  rw [held]
  rfl

end Stepped

end PageFlattening
