import PageFlattening.Proofs.BuildSteps
import PageFlattening.Proofs.Processing

/-! A page flattened by itself. The number of the page reaches its model through its parity and as
a label, and storage through the slots that it takes; what is rendered depends on the parity alone
(`flattenPage_by_parity`). No other page has a model, so the page is flattened with its own or stays
as it is. -/
namespace PageFlattening

namespace PageModel

variable {K : Type}

def numberedAs (m : PageModel K) (page : Nat) : PageModel K := { m with page }

theorem setTrack_numberedAs (m : PageModel K) (page : Nat) (d : Direction) (t : Track K) :
    (m.numberedAs page).setTrack d t = (m.setTrack d t).numberedAs page := by
  cases d <;> rfl

theorem markFailed_numberedAs (m : PageModel K) (page : Nat) (directions : List Direction) :
    (m.numberedAs page).markFailed directions = (m.markFailed directions).numberedAs page := by
  rw [markFailed, markFailed]
  generalize (if directions.isEmpty = true then Direction.all else directions) = failing
  induction failing generalizing m with
  | nil => rfl
  | cons d rest ih => rw [List.foldl_cons, List.foldl_cons, setTrack_numberedAs, ih]

theorem setField_numberedAs {m : PageModel K} (built : m.redirect = none) (page : Nat)
    (f : Field K) : ((m.numberedAs page).setField f).result =
      (m.setField f).result.map fun next => next.numberedAs page := by
  have built' : (m.numberedAs page).redirect = none := built
  rw [setField_result built, setField_result built', setTrack_numberedAs]
  change (if (f.stride : Int) = m.stride then _ else _) = _
  split <;> rfl

theorem setField_label {m next : PageModel K} (built : m.redirect = none) {f : Field K}
    (set : (m.setField f).result = .ok next) : next.page = m.page ∧ next.redirect = none := by
  rw [setField_result built] at set
  split at set
  · cases set
    rw [← built]
    cases f.direction <;> exact ⟨rfl, rfl⟩
  · cases set

theorem addSlope_numberedAs {m : PageModel K} (built : m.redirect = none) (page : Nat)
    (slope : Option (Field K)) : (m.numberedAs page).addSlope slope =
      (m.addSlope slope).map fun next => next.numberedAs page := by
  cases slope with
  | none => exact congrArg Except.ok (markFailed_numberedAs m page [.slope])
  | some f => exact setField_numberedAs built page f

theorem addFields_numberedAs {m : PageModel K} (built : m.redirect = none) (page : Nat)
    (edges : EdgeFit K) : (m.numberedAs page).addFields edges =
      (m.addFields edges).map fun next => next.numberedAs page := by
  have built' : (m.withEdges edges).redirect = none := built
  have label : (m.numberedAs page).withEdges edges = (m.withEdges edges).numberedAs page := rfl
  rw [addFields, addFields, label, setField_numberedAs built']
  cases set : ((m.withEdges edges).setField edges.horizontal).result with
  | error fault => rfl
  | ok straight => exact addSlope_numberedAs (setField_label built' set).2 page edges.slope

theorem judged_numberedAs (m : PageModel K) (page : Nat) (t : Thresholds) (untested : Bool) :
    (m.numberedAs page).judged t untested = (m.judged t untested).numberedAs page := by
  rw [judged, judged]
  change (if m.isRedirect || !m.vertical.succeeded then _ else _) = _
  split <;> rfl

theorem judged_adopted (m : PageModel K) (t : Thresholds) (untested : Bool) :
    m.adopted.judged t untested = (m.judged t untested).adopted := by
  rw [judged, judged]
  change (if m.isRedirect || !m.vertical.succeeded then _ else _) = _
  split <;> rfl

end PageModel

namespace BuildReport

open PageModel

variable {K : Type}

def numberedAs (r : BuildReport K) (page : Nat) : BuildReport K :=
  { r with model := r.model.numberedAs page }

theorem failed_numberedAs (m : PageModel K) (page : Nat) (lines : List (TextLine K)) :
    failed (m.numberedAs page) lines = (failed m lines).numberedAs page := by
  simp only [failed, numberedAs, markFailed_numberedAs]

theorem alone_numberedAs (m : PageModel K) (page : Nat) (lines : List (TextLine K))
    (vertical : VerticalFit K) (flushEnds : Option (List (Point K) × List (Point K))) :
    alone (m.numberedAs page) lines vertical flushEnds =
      (alone m lines vertical flushEnds).numberedAs page := by
  simp only [alone, numberedAs, markFailed_numberedAs]

variable [Scalar K]

theorem addEdges_numberedAs {m : PageModel K} (built : m.redirect = none) {page : Nat}
    (parity : m.page % 2 = page % 2) (lines : List (TextLine K)) (vertical : VerticalFit K)
    (columns rows stride : Nat) :
    addEdges (m.numberedAs page) lines vertical columns rows stride =
      (addEdges m lines vertical columns rows stride).map fun r => r.numberedAs page := by
  have odd : ((m.numberedAs page).page % 2 == 1) = (m.page % 2 == 1) := by
    rw [parity]
    rfl
  rw [addEdges_eq, addEdges_eq, odd]
  dsimp only
  split
  · exact congrArg Except.ok (alone_numberedAs m page lines vertical none)
  · rw [map_bind_eq]
    refine bind_congr fun leftFlush => ?_
    rw [map_bind_eq]
    refine bind_congr fun rightFlush => ?_
    split
    · exact congrArg Except.ok (alone_numberedAs m page lines vertical _)
    · rw [map_bind_eq]
      refine bind_congr fun edges => ?_
      rw [addFields_numberedAs built]
      cases m.addFields edges <;> rfl

theorem ofLines_numberedAs (b : BuildSettings) (ink : Grid Bool) {p q : Nat}
    (parity : p % 2 = q % 2) (minLines : Value K) (detected : List (TextLine K)) :
    ofLines b ink q minLines detected =
      (ofLines b ink p minLines detected).map fun r => r.numberedAs q := by
  have label : ∀ count, (start b ink q count : PageModel K) =
      (start b ink p count).numberedAs q := fun _ => rfl
  rw [ofLines_eq, ofLines_eq]
  generalize detected.filter (fun l => decide (3 ≤ l.length)) = lines
  simp only [label, failed_numberedAs]
  generalize started : (start b ink p lines.length : PageModel K) = m
  have built : m.redirect = none := by rw [← started]; rfl
  have number : m.page = p := by rw [← started]; rfl
  rw [map_bind_eq]
  refine bind_congr fun few => ?_
  cases few with
  | true => rfl
  | false =>
      simp only [Bool.false_eq_true, if_false]
      rw [map_bind_eq]
      refine bind_congr fun coverage => ?_
      split
      · rfl
      · rw [map_bind_eq]
        refine bind_congr fun fit => ?_
        cases fit with
        | none => rfl
        | some vertical =>
            dsimp only
            rw [map_bind_eq]
            refine bind_congr fun field => ?_
            have built' : (m.withLines vertical).redirect = none := built
            have label' : (m.numberedAs q).withLines vertical =
                (m.withLines vertical).numberedAs q := rfl
            rw [label', setField_numberedAs built']
            cases set : ((m.withLines vertical).setField field).result with
            | error fault => rfl
            | ok flat =>
                obtain ⟨page, kind⟩ := setField_label built' set
                exact addEdges_numberedAs kind (by rw [page, ← parity, ← number]; rfl) lines
                  vertical _ _ b.stride

theorem build_numberedAs (b : BuildSettings) (detector : Grid Bool → List (TextLine K))
    (source : Source) {p q : Nat} (parity : p % 2 = q % 2) (minLines : Value K) :
    build b detector source (.int q) minLines =
      (build b detector source (.int p) minLines).map fun r => r.numberedAs q := by
  have number : ∀ page : Nat, checkPage (.int page : Value K) = .ok page := by simp [checkPage]
  rw [build, build, map_bind_eq]
  refine bind_congr fun ink => ?_
  rw [number, number]
  change (checkMinLines b minLines >>= fun least => ofLines b ink q least (detector ink)) =
    (checkMinLines b minLines >>= fun least => ofLines b ink p least (detector ink)).map _
  rw [map_bind_eq]
  exact bind_congr fun least => ofLines_numberedAs b ink parity least (detector ink)

end BuildReport

namespace RenderPlan

variable {K : Type} [Scalar K]

theorem apply_numberedAs (a b : Int) (m : PageModel K) (number : Nat) (vertical horizontal : Bool)
    (columns : Option Int) (p : Page) :
    apply ⟨a, some (m.numberedAs number), vertical, horizontal, columns⟩ p =
      apply ⟨b, some m, vertical, horizontal, columns⟩ p := rfl

end RenderPlan

namespace Collection

variable {K : Type}

theorem keptPart_numberedAs (t : Thresholds) (untested : Bool) (m : PageModel K) (page : Nat) :
    keptPart t untested (some (m.numberedAs page).adopted) =
      (keptPart t untested (some m.adopted)).map fun kept => kept.numberedAs page := by
  have label : (m.numberedAs page).adopted = m.adopted.numberedAs page := rfl
  simp only [keptPart, Option.map_some, label, PageModel.judged_numberedAs, Option.filter_some]
  change (if (m.adopted.judged t untested).verticalValid = true then _ else _) = _
  split <;> rfl

variable [Scalar K]

theorem render_numberedAs {c d : Collection K} (ready : c.ready = true) (ready' : d.ready = true)
    (settings : d.settings = c.settings) {p q : Int} (number : Nat)
    (same : d.effective q = (c.effective p).map fun m => m.numberedAs number)
    (counter : ColumnCounter) (image : Source) :
    d.render counter image q = c.render counter image p := by
  simp only [render]
  refine bind_congr fun sheet => bind_congr fun _ => ?_
  simp only [RenderPlan.make, ready, ready', settings, same]
  cases c.effective p with
  | none => rfl
  | some m =>
      simp only [Option.map_some]
      cases RenderPlan.countColumns K c.settings.checkColumns counter (.page sheet) with
      | error fault => rfl
      | ok columns => exact RenderPlan.apply_numberedAs q p m number _ _ _ sheet

end Collection

namespace Document

variable {K : Type} [Scalar K]

theorem modelFor_numberedAs (d : Document K) {p q : Nat} (parity : p % 2 = q % 2)
    (image : Source) :
    d.modelFor q image = (d.modelFor p image).map fun m => m.numberedAs q := by
  simp only [modelFor, map_bind_eq]
  refine bind_congr fun ink => ?_
  rw [BuildReport.build_numberedAs d.build TextLine.detectLong _ parity]
  cases BuildReport.build d.build TextLine.detectLong (.page (.bit ink)) (.int p : Value K) .null
    <;> rfl

theorem create_counter {preset : String} {entries : List (String × Value K)}
    {workers : Option Int} {counter : ColumnCounter} {d : Document K}
    (opened : create preset entries workers counter = .ok d) : d.counter = counter := by
  obtain ⟨settings, size, rfl⟩ := create_eq opened
  rfl

theorem addPage_page {d next : Document K} (sound : d.Sound) {page : Nat} {image : Source}
    {m result : PageModel K} (built : d.modelFor page image = .ok m)
    (added : d.addPage image (.int page) = (.ok result, next)) : result.page = page := by
  have drawn := modelFor_drawn built
  rw [modelFor] at built
  obtain ⟨ink, prepared, built⟩ := exists_of_bind_eq_ok built
  obtain ⟨report, made, same⟩ := exists_of_bind_eq_ok built
  cases same
  have done := Collection.insert_eq (c := d.collection) (m := report.model)
    (by rw [drawn.stride, sound.build]) (by rw [drawn.reduction, sound.build])
  have listed : ∀ (c : Collection K) p, c.refreshLists.slot? p = c.slot? p := fun _ _ => rfl
  have slot := (Collection.placed_inserted sound.consistent.room report.model).slot?
    report.model.page
  rw [if_pos rfl] at slot
  simp only [addPage, prepared, made, done, bind, Except.bind, Outcome.done_state,
    Outcome.done_fault, Prod.mk.injEq, Except.ok.injEq] at added
  rw [← added.1, listed, slot, Option.getD_some, Collection.entered_page, drawn.page]

theorem resolve_addPage {d : Document K} (sound : d.Sound)
    (none : ∀ q, d.collection.passing false q = Option.none) {image : Source} {page : Nat}
    {m : PageModel K} (built : d.modelFor page image = .ok m) :
    ∃ result next after, d.addPage image (.int page) = (.ok result, next) ∧ result.page = page ∧
      next.resolve false = .done after ∧ after.collection.ready = true ∧
      after.collection.settings = d.collection.settings ∧ after.counter = d.counter ∧
      after.collection.effective page =
        Collection.keptPart d.collection.settings.thresholds false (some m.adopted) := by
  have drawn := modelFor_drawn built
  have kind : m.isRedirect = false := by
    rw [PageModel.isRedirect, drawn.redirect]
    rfl
  obtain ⟨c, result, inserted, added⟩ := addPage_of_ok sound built
  obtain ⟨size, bounded⟩ := sound.bounded
  have consistent : c.refreshLists.Consistent :=
    (inserted.consistent sound.consistent (by rw [drawn.stride, sound.build])
      (by rw [drawn.reduction, sound.build])).refreshLists
  have covered : c.refreshLists.Covered := inserted.covered sound.covered
  obtain ⟨after, done, concluded⟩ := Collection.resolve_concluded consistent covered
    (inserted.cacheSize.trans bounded) false .omitted
  have passing : ∀ q, c.refreshLists.passing false q =
      if q = page then Collection.keptPart d.collection.settings.thresholds false (some m.adopted)
      else Option.none := by
    intro q
    change c.passing false q = _
    rw [inserted.passing kind, drawn.page, none]
  have held : page < c.refreshLists.declaredPages := by
    change page < c.declaredPages
    rw [inserted.declaredPages, drawn.page]
    omega
  have below : ∀ p m, c.refreshLists.own? p = some m →
      p < max 0 c.refreshLists.declaredPages := by
    intro p m own
    have := Collection.own?_lt_declaredPages covered own
    omega
  have serves := concluded.arranged.serves consistent.workable below (p := page) (by omega)
  rw [funext passing] at serves
  refine ⟨result, _, { d with collection := after }, added, addPage_page sound built added, ?_,
    concluded.ready, concluded.settings.trans inserted.settings, rfl, ?_⟩
  · simp only [resolve, done]
    rfl
  · -- Only the page itself can have a valid model, so that nothing is borrowed.
    cases own : Collection.keptPart d.collection.settings.thresholds false (some m.adopted) with
    | some valid => exact serves.unique (.own (by rw [if_pos rfl, own]))
    | none =>
        refine serves.unique (.unserved (by rw [if_pos rfl, own]) fun q valid _ => ?_)
        split at valid
        · rw [own] at valid
          cases valid
        · cases valid

end Document

theorem flattenPage_eq_render {K : Type} [Scalar K] {preset : String}
    {entries : List (String × Value K)} {d : Document K}
    (opened : Document.create preset entries none (standardCounter K) = .ok d) {image : Source}
    {sheet : Page} (loaded : image.load = .ok sheet) {page : Nat} {m : PageModel K}
    (built : d.modelFor page (.page sheet) = .ok m) :
    ∃ c : Collection K, c.ready = true ∧ c.settings = d.collection.settings ∧
      c.effective page =
        Collection.keptPart d.collection.settings.thresholds false (some m.adopted) ∧
      flattenPage image (.int page) preset entries = c.render d.counter (.page sheet) page := by
  obtain ⟨result, next, after, added, number, resolved, ready, settings, counter, effective⟩ :=
    Document.resolve_addPage (Document.create_sound opened (by simp))
      (Document.create_passing opened) built
  refine ⟨after.collection, ready, settings, effective, ?_⟩
  simp only [flattenPage, opened, loaded, added, resolved, bind, Except.bind, number,
    Document.render, counter, Outcome.result, Outcome.done]

theorem flattenPage_of_error {K : Type} [Scalar K] {preset : String}
    {entries : List (String × Value K)} {d : Document K}
    (opened : Document.create preset entries none (standardCounter K) = .ok d) {image : Source}
    {sheet : Page} (loaded : image.load = .ok sheet) {page : Nat} {fault : Fault}
    (failed : d.modelFor page (.page sheet) = .error fault) :
    flattenPage image (.int page) preset entries = .error fault := by
  simp only [flattenPage, opened, loaded, Document.addPage_of_error failed, bind, Except.bind]

theorem flattenPage_congr {K : Type} [Scalar K] (image : Source) (preset : String)
    (entries : List (String × Value K)) {p q : Nat} (parity : p % 2 = q % 2) :
    flattenPage image (.int p) preset entries = flattenPage image (.int q) preset entries := by
  cases opened : Document.create preset entries none (standardCounter K) with
  | error fault => simp only [flattenPage, opened, bind, Except.bind]
  | ok d =>
      cases loaded : image.load with
      | error fault => simp only [flattenPage, opened, loaded, bind, Except.bind]
      | ok sheet =>
          have number := d.modelFor_numberedAs parity (.page sheet)
          cases built : d.modelFor p (.page sheet) with
          | error fault =>
              rw [built] at number
              rw [flattenPage_of_error opened loaded built,
                flattenPage_of_error opened loaded number]
          | ok m =>
              rw [built] at number
              obtain ⟨c, ready, settings, effective, done⟩ :=
                flattenPage_eq_render opened loaded built
              obtain ⟨c', ready', settings', effective', done'⟩ :=
                flattenPage_eq_render opened loaded number
              rw [done, done']
              refine (Collection.render_numberedAs ready ready' (settings'.trans settings.symm)
                q ?_ d.counter _).symm
              rw [effective, effective', Collection.keptPart_numberedAs]

/-- A page by itself: pages of one parity come out alike, whatever their numbers, and fail alike.
What comes out is the page flattened with its own model, or the page as it is if that model is not
valid. -/
theorem flattenPage_by_parity {K : Type} [Scalar K] (image : Source) (preset : String)
    (entries : List (String × Value K)) {p q : Nat} (parity : p % 2 = q % 2) :
    flattenPage image (.int p) preset entries = flattenPage image (.int q) preset entries ∧
      ∀ (d : Document K) sheet m,
        Document.create preset entries none (standardCounter K) = .ok d →
        image.load = .ok sheet → d.modelFor p (.page sheet) = .ok m →
        ((m.judged d.collection.settings.thresholds false).verticalValid = false →
          flattenPage image (.int p) preset entries = .ok sheet) ∧
        ((m.judged d.collection.settings.thresholds false).verticalValid = true →
          ∀ out, flattenPage image (.int p) preset entries = .ok out ↔
            (m.judged d.collection.settings.thresholds false).Flattens d.collection.settings
              (standardCounter K) sheet out) := by
  refine ⟨flattenPage_congr image preset entries parity, fun d sheet m opened loaded built => ?_⟩
  obtain ⟨c, ready, settings, effective, done⟩ := flattenPage_eq_render opened loaded built
  obtain ⟨other, page, whole⟩ := Document.load_of_modelFor built
  have same : other = sheet := by
    obtain ⟨_, _, same⟩ := exists_of_bind_eq_ok page
    exact (Except.ok.inj same).symm
  rw [same] at page whole
  have valid : (m.adopted.judged d.collection.settings.thresholds false).verticalValid =
      (m.judged d.collection.settings.thresholds false).verticalValid := by
    rw [PageModel.judged_adopted]
    rfl
  rw [Collection.keptPart, Option.map_some, Option.filter_some, valid] at effective
  rw [done]
  constructor
  · intro invalid
    rw [invalid] at effective
    exact Collection.render_of_none ready page whole effective
  · intro accepted out
    rw [accepted, if_pos rfl, PageModel.judged_adopted] at effective
    have drawn := (Document.modelFor_drawn built).wellBuilt.judged
      d.collection.settings.thresholds false
    have adopted : (m.judged d.collection.settings.thresholds false).adopted.WellBuilt :=
      ⟨drawn.factor, drawn.grids⟩
    rw [Collection.render_eq_ok_iff ready page whole effective accepted adopted, settings,
      Document.create_counter opened]
    exact ⟨fun flat => ⟨flat.countable, flat.moved⟩, fun flat => ⟨flat.countable, flat.moved⟩⟩

namespace Stepped

def single : Document Rat := { document with workers := none, counter := standardCounter Rat }

theorem create_single :
    Document.create "default" entries none (standardCounter Rat) = .ok single := by
  rfl

/-- The page of four lines comes out the same as page two and as page four, flattened with its own
model; a page without lines stays as it is. -/
theorem page_by_parity :
    2 % 2 = 4 % 2 ∧
      flattenPage (.page (.bit page)) (.int 2) "default" entries =
        flattenPage (.page (.bit page)) (.int 4) "default" entries ∧
      (∃ m : PageModel Rat, m.verticalValid = true ∧
        ∀ out, flattenPage (.page (.bit page)) (.int 2) "default" entries = .ok out ↔
          m.Flattens single.collection.settings (standardCounter Rat) (.bit page) out) ∧
      flattenPage dot (.int 1) "default" entries = .ok (.bit (Grid.replicate 1 1 true)) := by
  obtain ⟨m, built, values⟩ := modelFor_page
  obtain ⟨blank, made, failed⟩ := modelFor_dot 1
  obtain ⟨same, shown⟩ := flattenPage_by_parity (.page (.bit page)) "default" entries
    (show 2 % 2 = 4 % 2 from rfl)
  obtain ⟨_, kept⟩ := flattenPage_by_parity dot "default" entries (show 1 % 2 = 3 % 2 from rfl)
  have kind : m.isRedirect = false := by
    rw [PageModel.isRedirect, (Document.modelFor_drawn built).redirect]
    rfl
  have valid : (m.judged single.collection.settings.thresholds false).verticalValid = true := by
    rw [PageModel.judged_verticalValid kind]
    exact passes_of_figures values
  have invalid : (blank.judged single.collection.settings.thresholds false).verticalValid =
      false := by
    rw [PageModel.judged, failed]
    simp [Track.succeeded, PageModel.verticalValid, failed, Track.accepted]
  exact ⟨rfl, same, ⟨_, valid, (shown single _ m create_single rfl built).2 valid⟩,
    (kept single _ blank create_single rfl made).1 invalid⟩

end Stepped

end PageFlattening
