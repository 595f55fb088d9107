import PageFlattening.Proofs.Building
import PageFlattening.Proofs.Serving

/-! Building the pages of a list one after the other. Each page replaces what there was in its
place, so that afterwards the valid models are those of the images, and beyond the list what there
was before (`validAfter`). The first page that cannot be built shows in the result. -/
namespace PageFlattening

namespace Document

variable {K : Type}

/-- What processing relies on and keeps. -/
structure Sound (d : Document K) : Prop where
  consistent : d.collection.Consistent
  covered : d.collection.Covered
  bounded : ∃ size : Nat, d.collection.cacheSize = .int size
  build : d.build = d.collection.settings.build
  workers : d.workers.any (· ≤ 0) = false
  wellBuilt : ∀ q m, d.collection.passing false q = some m → m.WellBuilt

structure Follows (d next : Document K) : Prop where
  settings : next.collection.settings = d.collection.settings
  cacheSize : next.collection.cacheSize = d.collection.cacheSize
  build : next.build = d.build
  workers : next.workers = d.workers
  counter : next.counter = d.counter

theorem Follows.trans {d e f : Document K} (h : Follows d e) (g : Follows e f) : Follows d f :=
  ⟨g.settings.trans h.settings, g.cacheSize.trans h.cacheSize, g.build.trans h.build,
    g.workers.trans h.workers, g.counter.trans h.counter⟩

variable [Scalar K]

def Builds (d : Document K) (images : List Source) : Prop :=
  ∀ j image, images[j]? = some image → ∃ m, d.modelFor j image = .ok m

/-- The model that is built for a page of a list, if its vertical field passes the check. -/
def validModel (d : Document K) (images : List Source) (page : Nat) : Option (PageModel K) :=
  Collection.keptPart d.collection.settings.thresholds false
    (images[page]?.bind fun image => (d.modelFor page image).toOption.map PageModel.adopted)

def validAfter (d : Document K) (images : List Source) (page : Nat) : Option (PageModel K) :=
  if page < images.length then d.validModel images page else d.collection.passing false page

theorem Follows.modelFor {d next : Document K} (h : Follows d next) (page : Nat) (image : Source) :
    next.modelFor page image = d.modelFor page image := by
  simp only [Document.modelFor, prepare, h.settings, h.build]

theorem Follows.builds {d next : Document K} (h : Follows d next) {images : List Source} :
    next.Builds images ↔ d.Builds images := by
  simp only [Builds, h.modelFor]

theorem Follows.validModel {d next : Document K} (h : Follows d next) (images : List Source)
    (page : Nat) : next.validModel images page = d.validModel images page := by
  simp only [Document.validModel, h.settings, h.modelFor]

theorem validAfter_snoc {d : Document K} {images : List Source} {image : Source} (page : Nat) :
    d.validAfter (images ++ [image]) page =
      if page = images.length then
        Collection.keptPart d.collection.settings.thresholds false
          ((d.modelFor page image).toOption.map PageModel.adopted)
      else d.validAfter images page := by
  simp only [validAfter, Document.validModel, List.length_append, List.length_singleton]
  rcases Nat.lt_trichotomy page images.length with below | here | above
  · rw [if_pos (by omega), if_neg (by omega), if_pos below, List.getElem?_append_left below]
  · rw [if_pos (by omega), if_pos here, here, List.getElem?_concat_length]
    rfl
  · rw [if_neg (by omega), if_neg (by omega), if_neg (by omega)]

theorem validModel_wellBuilt {d : Document K} {images : List Source} {page : Nat}
    {m : PageModel K} (h : d.validModel images page = some m) : m.WellBuilt := by
  obtain ⟨old, found, rfl, _⟩ := Collection.keptPart_eq_some_iff.mp h
  obtain ⟨image, _, found⟩ := Option.bind_eq_some_iff.mp found
  obtain ⟨built, made, rfl⟩ := Option.map_eq_some_iff.mp found
  have whole := (modelFor_drawn (toOption_eq_some_iff.mp made)).wellBuilt
  have adopted : built.adopted.WellBuilt := ⟨whole.factor, whole.grids⟩
  exact adopted.judged _ _

theorem validModel_of_modelFor {d : Document K} {images : List Source} {page : Nat}
    {image : Source} {m : PageModel K} (found : images[page]? = some image)
    (built : d.modelFor page image = .ok m) :
    d.validModel images page =
      if m.passes d.collection.settings.thresholds false then
        some (m.adopted.judged d.collection.settings.thresholds false)
      else none := by
  have kind : m.adopted.isRedirect = false := by
    rw [PageModel.isRedirect, PageModel.adopted, (modelFor_drawn built).redirect]
    rfl
  have valid := PageModel.judged_verticalValid kind d.collection.settings.thresholds false
  rw [validModel, found, Option.bind_some, built]
  change Option.filter _ (some _) = _
  rw [Option.filter_some, valid]
  rfl

structure Added (d : Document K) (images : List Source) (next : Document K) : Prop
    extends Follows d next where
  consistent : next.collection.Consistent
  covered : next.collection.Covered
  declaredPages : d.collection.declaredPages ≤ next.collection.declaredPages
  passing : ∀ q, next.collection.passing false q = d.validAfter images q

theorem Added.sound {d next : Document K} {images : List Source} (h : Added d images next)
    (sound : d.Sound) : next.Sound where
  consistent := h.consistent
  covered := h.covered
  bounded := by
    rw [h.cacheSize]
    exact sound.bounded
  build := by rw [h.build, h.settings, sound.build]
  workers := by rw [h.workers, sound.workers]
  wellBuilt q m passes := by
    rw [h.passing, validAfter] at passes
    split at passes
    · exact validModel_wellBuilt passes
    · exact sound.wellBuilt q m passes

theorem Added.refl {d : Document K} (sound : d.Sound) : Added d [] d where
  settings := rfl
  cacheSize := rfl
  build := rfl
  workers := rfl
  counter := rfl
  consistent := sound.consistent
  covered := sound.covered
  declaredPages := Nat.le_refl _
  passing q := by rw [validAfter, if_neg (by simp)]

theorem addPage_of_ok {d : Document K} (sound : d.Sound) {page : Nat} {image : Source}
    {m : PageModel K} (built : d.modelFor page image = .ok m) :
    ∃ c result, Collection.Inserted d.collection m c ∧
      d.addPage image (.int page) = (.ok result, { d with collection := c.refreshLists }) := by
  have drawn := modelFor_drawn built
  rw [modelFor] at built
  obtain ⟨ink, prepared, built⟩ := exists_of_bind_eq_ok built
  obtain ⟨report, made, same⟩ := exists_of_bind_eq_ok built
  cases same
  obtain ⟨c, inserted, done⟩ : ∃ c, Collection.Inserted d.collection report.model c ∧
      d.collection.insert report.model = .done c.refreshLists :=
    ⟨_, Collection.placed_inserted sound.consistent.room _,
      Collection.insert_eq (by rw [drawn.stride, sound.build])
        (by rw [drawn.reduction, sound.build])⟩
  refine ⟨c, (c.refreshLists.slot? report.model.page).getD report.model, inserted, ?_⟩
  simp only [addPage, prepared, made, done, bind, Except.bind, Outcome.done_state,
    Outcome.done_fault]

theorem addPage_of_error {d : Document K} {page : Nat} {image : Source} {fault : Fault}
    (failed : d.modelFor page image = .error fault) :
    d.addPage image (.int page) = (.error fault, d) := by
  rw [modelFor] at failed
  cases prepared : d.prepare image with
  | error other =>
      rw [prepared] at failed
      cases failed
      simp only [addPage, prepared, bind, Except.bind]
  | ok ink =>
      rw [prepared] at failed
      cases made : BuildReport.build d.build TextLine.detectLong (.page (.bit ink))
          (.int page : Value K) .null with
      | error other =>
          simp only [made, bind, Except.bind] at failed
          cases failed
          simp only [addPage, prepared, made, bind, Except.bind]
      | ok report =>
          simp only [made, bind, Except.bind] at failed
          cases failed

theorem Added.snoc {d next : Document K} (sound : d.Sound) {images : List Source}
    (h : Added d images next) {image : Source} {m : PageModel K}
    (built : d.modelFor images.length image = .ok m) :
    ∃ last result, next.addPage image (.int images.length) = (.ok result, last) ∧
      Added d (images ++ [image]) last := by
  have built' : next.modelFor images.length image = .ok m := by rw [h.modelFor, built]
  have drawn := modelFor_drawn built
  have kind : m.isRedirect = false := by
    rw [PageModel.isRedirect, drawn.redirect]
    rfl
  obtain ⟨c, result, inserted, done⟩ := addPage_of_ok (h.sound sound) built'
  refine ⟨_, result, done, ?_⟩
  exact {
    settings := inserted.settings.trans h.settings
    cacheSize := inserted.cacheSize.trans h.cacheSize
    build := h.build
    workers := h.workers
    counter := h.counter
    consistent := (inserted.consistent h.consistent
      (by rw [drawn.stride, sound.build, h.settings])
      (by rw [drawn.reduction, sound.build, h.settings])).refreshLists
    covered := inserted.covered h.covered
    declaredPages := by
      have := inserted.declaredPages
      have := h.declaredPages
      change d.collection.declaredPages ≤ c.declaredPages
      omega
    passing := fun q => by
      change c.passing false q = _
      rw [inserted.passing kind, validAfter_snoc, drawn.page, h.passing, h.settings]
      by_cases here : q = images.length
      · subst here
        rw [if_pos rfl, if_pos rfl, built]
        rfl
      · rw [if_neg here, if_neg here] }

theorem addEach_snoc (d : Document K) (entries : List (Int × Source)) (page : Int)
    (image : Source) :
    d.addEach (entries ++ [(page, image)]) =
      ((d.addEach entries).1 ++ [((d.addEach entries).2.addPage image (.int page)).1],
        ((d.addEach entries).2.addPage image (.int page)).2) := by
  induction entries generalizing d with
  | nil => rfl
  | cons e rest ih =>
      have later := ih (d.addPage e.2 (.int e.1)).2
      simp only [List.cons_append, addEach, later]

theorem numbered_snoc (images : List Source) (image : Source) :
    numbered (images ++ [image]) = numbered images ++ [((images.length : Int), image)] := by
  simp [numbered, List.zipIdx_append]

theorem Builds.of_snoc {d : Document K} {images : List Source} {image : Source}
    (h : d.Builds (images ++ [image])) :
    d.Builds images ∧ ∃ m, d.modelFor images.length image = .ok m := by
  refine ⟨fun j other found => h j other ?_, h images.length image List.getElem?_concat_length⟩
  obtain ⟨inside, _⟩ := List.getElem?_eq_some_iff.mp found
  rw [List.getElem?_append_left inside, found]

theorem Builds.snoc {d : Document K} {images : List Source} {image : Source}
    (h : d.Builds images) {m : PageModel K} (built : d.modelFor images.length image = .ok m) :
    d.Builds (images ++ [image]) := by
  intro j other found
  rcases Nat.lt_or_ge j images.length with below | above
  · rw [List.getElem?_append_left below] at found
    exact h j other found
  · obtain ⟨inside, _⟩ := List.getElem?_eq_some_iff.mp found
    rw [List.length_append, List.length_singleton] at inside
    have here : j = images.length := by omega
    rw [here, List.getElem?_concat_length] at found
    cases found
    rw [here]
    exact ⟨m, built⟩

theorem addEach_added {d : Document K} (sound : d.Sound) {images : List Source}
    (builds : d.Builds images) :
    Added d images (d.addEach (numbered images)).2 ∧
      ∀ r ∈ (d.addEach (numbered images)).1, ∃ m, r = .ok m := by
  induction images using List.reverseRecOn with
  | nil => exact ⟨.refl sound, by simp [numbered, addEach]⟩
  | append_singleton images image ih =>
      obtain ⟨earlier, m, built⟩ := builds.of_snoc
      obtain ⟨added, results⟩ := ih earlier
      -- The last page is added to what the earlier ones have left.
      obtain ⟨last, result, done, added'⟩ := added.snoc sound built
      rw [numbered_snoc, addEach_snoc, done]
      refine ⟨added', List.forall_mem_append.mpr ⟨results, ?_⟩⟩
      exact List.forall_mem_singleton.mpr ⟨result, rfl⟩

theorem builds_of_addEach {d : Document K} (sound : d.Sound) {images : List Source}
    (results : ∀ r ∈ (d.addEach (numbered images)).1, ∃ m, r = .ok m) : d.Builds images := by
  induction images using List.reverseRecOn with
  | nil =>
      intro j image found
      cases found
  | append_singleton images image ih =>
      rw [numbered_snoc, addEach_snoc] at results
      obtain ⟨earlier, last⟩ := List.forall_mem_append.mp results
      have builds := ih earlier
      have added := (addEach_added sound builds).1
      cases made : d.modelFor images.length image with
      | ok m => exact builds.snoc made
      | error fault =>
          -- The fault would be the last of the results.
          obtain ⟨m, same⟩ := List.forall_mem_singleton.mp last
          have made' := (added.modelFor images.length image).trans made
          rw [addPage_of_error made'] at same
          cases same

theorem announce_added {d : Document K} (sound : d.Sound) (images : List Source) :
    Added d [] (d.announce (numbered images)) ∧
      images.length ≤ (d.announce (numbered images)).collection.declaredPages := by
  cases images using List.reverseRecOn with
  | nil => exact ⟨.refl sound, Nat.zero_le _⟩
  | append_singleton images image =>
      rw [numbered_snoc, announce, List.getLast?_append]
      have same := Added.refl sound
      refine ⟨{ same with
        consistent := sound.consistent.declare _
        covered := sound.covered.declare (Nat.le_max_left _ _)
        declaredPages := ?_ }, ?_⟩
      · have count : d.collection.declaredPages ≤ d.collection.pageCount := Nat.le_max_left _ _
        exact Nat.le_trans count (Nat.le_max_left _ _)
      · rw [List.length_append, List.length_singleton]
        exact Nat.le_max_right _ _

theorem Added.trans {d e f : Document K} {images : List Source} (h : Added d [] e)
    (g : Added e images f) : Added d images f := by
  refine ⟨h.toFollows.trans g.toFollows, g.consistent, g.covered,
    Nat.le_trans h.declaredPages g.declaredPages, fun q => ?_⟩
  have before : e.collection.passing false q = d.collection.passing false q := by
    rw [h.passing, validAfter, if_neg (by simp)]
  rw [g.passing, validAfter, validAfter, h.validModel, before]

theorem addPages_added {d : Document K} (sound : d.Sound) {images : List Source}
    (builds : d.Builds images) :
    ∃ results next, d.addPages (numbered images) false = (.ok results, next) ∧
      Added d images next ∧ images.length ≤ next.collection.declaredPages := by
  obtain ⟨announced, enough⟩ := announce_added sound images
  have builds' := announced.builds.mpr builds
  obtain ⟨added, results⟩ := addEach_added (announced.sound sound) builds'
  obtain ⟨models, done⟩ : ∃ models,
      ((d.announce (numbered images)).addEach (numbered images)).1.mapM
        (fun r => r.map some) = .ok models := by
    refine exists_mapM_eq_ok fun r member => ?_
    obtain ⟨m, rfl⟩ := results r member
    exact ⟨some m, rfl⟩
  refine ⟨models, _, ?_, announced.trans added, Nat.le_trans enough added.declaredPages⟩
  simp only [addPages, sound.workers, Bool.false_eq_true, if_false, done]

theorem builds_of_addPages {d : Document K} (sound : d.Sound) {images : List Source}
    {models : List (Option (PageModel K))}
    (h : (d.addPages (numbered images) false).1 = .ok models) : d.Builds images := by
  obtain ⟨announced, _⟩ := announce_added sound images
  simp only [addPages, sound.workers, Bool.false_eq_true, if_false] at h
  refine announced.builds.mp (builds_of_addEach (announced.sound sound) fun r member => ?_)
  obtain ⟨m, made⟩ := exists_of_mapM_eq_ok h member
  cases r with
  | error fault => cases made
  | ok result => exact ⟨result, rfl⟩

end Document

end PageFlattening
