import PageFlattening.Proofs.Processing

/-! One document after another. Processing a list of pages replaces the models of its own pages and
leaves those beyond its end, where longer documents have been before. So a page is the same as in a
new document unless it has to borrow and the nearest valid model is a leftover (`Lends`). -/
namespace PageFlattening

namespace Collection.Serves

variable {K : Type} {valid part : Nat → Option (PageModel K)} {maxDistance page : Nat}

theorem restrict {served : Option (PageModel K)} (h : Serves valid maxDistance page served)
    (within : ∀ q m, part q = some m → valid q = some m) (own : part page = valid page)
    (donated : valid page = none → ∀ q,
      IsDonor (fun r => (valid r).isSome) maxDistance page q → part q = valid q) :
    Serves part maxDistance page served := by
  have among : ∀ q, (part q).isSome → (valid q).isSome := by
    intro q found
    obtain ⟨m, held⟩ := Option.isSome_iff_exists.mp found
    exact Option.isSome_of_eq_some (within q m held)
  cases h with
  | own held => exact .own (own.trans held)
  | borrowed absent donor held =>
      rename_i q _
      have here := donated absent q donor
      refine .borrowed (own.trans absent) ⟨?_, donor.parity, donor.within, ?_, ?_⟩ (here.trans held)
      · rw [here]
        exact donor.valid
      · exact fun r found => donor.nearest r (among r found)
      · exact fun r found => donor.lower r (among r found)
  | unserved absent far =>
      exact .unserved (own.trans absent) fun q found => far q (among q found)

theorem not_unserved {m : PageModel K} (h : Serves part maxDistance page (some m))
    (within : ∀ q m, part q = some m → valid q = some m) :
    ¬ Serves valid maxDistance page none := by
  rintro ⟨⟩
  rename_i absent far
  cases h with
  | own held => simp [within page m held] at absent
  | borrowed _ donor held =>
      have valid := Option.isSome_of_eq_some (within _ m held)
      have away := far _ valid donor.parity
      have near := donor.within
      omega

end Collection.Serves

/-! A page of one pixel, which shows the displacement in the corner of a field. -/

namespace Grid

theorem between_zero (a b : Rat) (factor : Nat) : between a b 0 factor = a := by
  change a * (1 - 0 / (factor : Rat)) + b * (0 / (factor : Rat)) = a
  rw [Rat.div_def, Rat.zero_mul]
  grind

theorem stretchRows_corner {g : Grid Rat} (columns : 0 < g.width) (factor : Nat) :
    (g.stretchRows factor).value 0 0 = g.value 0 0 := by
  rw [stretchRows]
  split
  · rfl
  · rw [value, get_ofFn _ _ (Nat.succ_pos _) columns]
    simp [between_zero]

theorem stretchColumns_corner {g : Grid Rat} (rows : 0 < g.height) (factor : Nat) :
    (g.stretchColumns factor).value 0 0 = g.value 0 0 := by
  rw [stretchColumns]
  split
  · rfl
  · rw [value, get_ofFn _ _ rows (Nat.succ_pos _)]
    simp [between_zero]

theorem cut_corner {K : Type} [Scalar K] {g : Grid K} (rows : 0 < g.height) (columns : 0 < g.width)
    {width height : Nat} (wide : 0 < width) (tall : 0 < height) :
    (g.cut width height).value 0 0 = g.value 0 0 := by
  rw [cut]
  split
  · rfl
  · rw [value, crop, get_ofFn _ _ (by omega) (by omega)]
    rfl

end Grid

namespace Field

theorem interpolated_corner (f : Field Rat) (factor : Nat) :
    (f.interpolated factor (Scalar.ofInt 1)).value 0 0 = f.sample 0 0 := by
  have same : ((Scalar.ofInt 1 : Rat) == Scalar.ofInt 1) = true := beq_self_eq_true (1 : Rat)
  simp only [interpolated, same, if_true]
  rw [Grid.stretchColumns_corner, Grid.stretchRows_corner f.columns_pos]
  · rfl
  · rw [Grid.height_stretchRows]
    have := f.rows_pos
    split <;> omega

theorem expand_corner (f : Field Rat) {factor : Int} (positive : 1 ≤ factor) {v : Grid Rat}
    (grown : f.expand factor (some (1 : Nat)) (some (1 : Nat)) (Scalar.ofInt 1) none = .ok v) :
    v.value 0 0 = f.sample 0 0 := by
  have tall : 0 < (f.interpolated factor.toNat (Scalar.ofInt 1)).height := by
    have := f.rows_pos
    rw [(f.interpolated_extent _ _).1, rows]
    split <;> omega
  have wide : 0 < (f.interpolated factor.toNat (Scalar.ofInt 1)).width := by
    have := f.columns_pos
    rw [(f.interpolated_extent _ _).2, columns]
    split <;> omega
  rw [f.expand_eq positive 1 1 _ (by simp), Grid.covering, if_pos (by omega)] at grown
  cases grown
  rw [Grid.cut_corner tall wide Nat.one_pos Nat.one_pos, interpolated_corner]

end Field

theorem gather_eq_replicate {K α : Type} [Scalar K] {g : Grid α} {background : α}
    {read : K → K → α} {point : Nat → Nat → K × K}
    (blank : ∀ y < g.height, ∀ x < g.width,
      (offPage (point y x).1 g.width || offPage (point y x).2 g.height) = true ∨
        ∀ u v, read u v = background) :
    gather g background read point = Grid.replicate g.height g.width background := by
  refine Grid.ofFn_congr fun y row x column => ?_
  rcases blank y row x column with off | same
  · exact if_pos off
  · change (if _ then _ else _) = _
    rw [same, ite_self]

theorem nearestPixel_replicate {K α : Type} [Scalar K] (height width : Nat) (a : α) (x y : K) :
    nearestPixel (Grid.replicate height width a) a x y = a := by
  rw [nearestPixel, Grid.replicate, Grid.get_ofFn_eq, ite_self]

theorem Page.displace_blank {K : Type} [Scalar K] {g : Grid Bool} {v : Grid K}
    {h : Option (Shaped K)} {out : Page}
    (off : ∀ y < g.height, ∀ x < g.width,
      offPage (Scalar.ofNat y - v.value y x) g.height = true)
    (done : (Page.bit g).displace (.ofGrid v) h = .ok out) :
    out = .bit (Grid.replicate g.height g.width false) := by
  rw [displace] at done
  obtain ⟨moved, vertical, done⟩ := exists_of_bind_eq_ok done
  obtain ⟨grid, checked, same⟩ := exists_of_bind_eq_ok vertical
  cases same
  have read : grid = v := by
    obtain ⟨_, _, checked⟩ := exists_of_bind_eq_ok checked
    rw [Shaped.grid?_ofGrid] at checked
    dsimp only at checked
    split at checked
    · exact (Except.ok.inj checked).symm
    · cases checked
  have blank : (Page.bit g).moveVertically grid = .bit (Grid.replicate g.height g.width false) := by
    rw [moveVertically, remap, gather_eq_replicate]
    intro y row x column
    left
    rw [read, off y row x column, Bool.or_true]
  rw [blank] at done
  cases h with
  | none =>
      cases done
      rfl
  | some d =>
      obtain ⟨other, _, same⟩ := exists_of_bind_eq_ok done
      cases same
      rw [moveHorizontally, remap, gather_eq_replicate]
      · rfl
      · exact fun _ _ _ _ => .inr (nearestPixel_replicate _ _ _)

/-! The models that earlier documents leave. -/

namespace Document

variable {K : Type} [Scalar K]

inductive Worked (start : Document K) : List (List Source) → Document K → Prop
  | new : Worked start [] start
  | next {docs : List (List Source)} {d : Document K} {images : List Source} {pages : List Page}
      (earlier : Worked start docs d) (done : (d.process images).1 = .ok pages) :
      Worked start (images :: docs) (d.process images).2

/-- The valid model that lists of pages leave for a page: that of the latest list with this
page. -/
def leftover (start : Document K) : List (List Source) → Nat → Option (PageModel K)
  | [], _ => none
  | images :: docs, q =>
      if q < images.length then start.validModel images q else leftover start docs q

structure Leaves (start : Document K) (docs : List (List Source)) (d : Document K) : Prop
    extends Follows start d where
  sound : d.Sound
  passing : ∀ q, d.collection.passing false q = start.leftover docs q

theorem Leaves.validAfter {start d : Document K} {docs : List (List Source)}
    (h : Leaves start docs d) (images : List Source) :
    d.validAfter images = start.leftover (images :: docs) := by
  funext q
  rw [Document.validAfter, leftover, h.passing, h.validModel]

theorem Leaves.next {start d : Document K} {docs : List (List Source)} (h : Leaves start docs d)
    {images : List Source} {pages : List Page} (done : (d.process images).1 = .ok pages) :
    Leaves start (images :: docs) (d.process images).2 := by
  obtain ⟨after, processed, same⟩ := process_of_builds h.sound (builds_of_process h.sound done)
  rw [same]
  refine ⟨h.toFollows.trans processed.toFollows, processed.sound, fun q => ?_⟩
  rw [processed.passing, h.validAfter]

theorem Worked.leaves {start d : Document K} {docs : List (List Source)} (sound : start.Sound)
    (empty : ∀ q, start.collection.passing false q = none) (h : Worked start docs d) :
    Leaves start docs d := by
  induction h with
  | new => exact ⟨(Added.refl sound).toFollows, sound, empty⟩
  | next _ done ih => exact ih.next done

theorem leftover_of_le {start : Document K} {docs : List (List Source)} {q : Nat}
    (short : ∀ images ∈ docs, images.length ≤ q) : start.leftover docs q = none := by
  induction docs with
  | nil => rfl
  | cons images docs ih =>
      obtain ⟨here, rest⟩ := List.forall_mem_cons.mp short
      rw [leftover, if_neg (by omega), ih rest]

theorem leftover_of_validModel {start : Document K} (docs : List (List Source))
    {images : List Source} (q : Nat) (m : PageModel K) (held : start.validModel images q = some m) :
    start.leftover (images :: docs) q = some m := by
  rw [leftover]
  split
  · exact held
  · rw [validModel_of_le (by omega)] at held
    cases held

/-- A page of a list has no valid model, and its donor is a page beyond the list. -/
structure Lends (start : Document K) (docs : List (List Source)) (images : List Source)
    (i q : Nat) : Prop where
  inside : i < images.length
  absent : start.validModel images i = none
  beyond : images.length ≤ q
  donor : Collection.IsDonor (fun r => (start.leftover (images :: docs) r).isSome)
    start.collection.settings.maxDistance i q

theorem not_lends_of_le {start : Document K} {docs : List (List Source)} {images : List Source}
    (short : ∀ earlier ∈ docs, earlier.length ≤ images.length) {i q : Nat} :
    ¬ start.Lends docs images i q := by
  intro lends
  have valid := lends.donor.valid
  rw [leftover, if_neg (Nat.not_lt.mpr lends.beyond), leftover_of_le] at valid
  · cases valid
  · exact fun earlier member => Nat.le_trans (short earlier member) lends.beyond

theorem serves_of_not_lends {start : Document K} {docs : List (List Source)}
    {images : List Source} {i : Nat} (inside : i < images.length)
    (alone : ∀ q, ¬ start.Lends docs images i q) {served : Option (PageModel K)}
    (h : Collection.Serves (start.leftover (images :: docs))
      start.collection.settings.maxDistance i served) :
    Collection.Serves (start.validModel images) start.collection.settings.maxDistance i served := by
  have own : start.validModel images i = start.leftover (images :: docs) i := by
    rw [leftover, if_pos inside]
  refine h.restrict (leftover_of_validModel docs) own fun absent q donor => ?_
  rw [leftover]
  split
  · rfl
  · rename_i above
    exact (alone q ⟨inside, own.trans absent, by omega, donor⟩).elim

/-- What earlier lists of pages can do to a list: where it is processed at all a new document
processes it too, and a page is the same unless a leftover is lent to it, with which it is then
flattened. Lists that are no longer lend nothing. -/
structure OnlyLent (start : Document K) (docs : List (List Source)) (d : Document K)
    (images : List Source) : Prop where
  succeeds : ∀ pages, (d.process images).1 = .ok pages →
    ∃ fresh, (start.process images).1 = .ok fresh
  unlent : ∀ pages fresh, (d.process images).1 = .ok pages → (start.process images).1 = .ok fresh →
    ∀ i, (∀ q, ¬ start.Lends docs images i q) → pages[i]? = fresh[i]?
  lent : ∀ pages, (d.process images).1 = .ok pages → ∀ i q, start.Lends docs images i q →
    ∃ image p m out, images[i]? = some image ∧ image.load = .ok p ∧
      start.leftover docs q = some m ∧ pages[i]? = some out ∧
      m.Flattens start.collection.settings start.counter p out
  apart : (∀ i q, ¬ start.Lends docs images i q) →
    ∀ pages, (d.process images).1 = .ok pages ↔ (start.process images).1 = .ok pages
  longest : (∀ earlier ∈ docs, earlier.length ≤ images.length) →
    ∀ i q, ¬ start.Lends docs images i q

namespace Leaves

variable {start d : Document K} {docs : List (List Source)} {images : List Source}
  {pages : List Page}

theorem builds (h : Leaves start docs d) (done : (d.process images).1 = .ok pages) :
    start.Builds images :=
  h.toFollows.builds.mp (builds_of_process h.sound done)

theorem correctedPages (h : Leaves start docs d) (done : (d.process images).1 = .ok pages) :
    start.CorrectedPages (start.leftover (images :: docs)) images pages := by
  have corrected := (process_eq_ok_iff h.sound (builds_of_process h.sound done) pages).mp done
  rw [h.validAfter] at corrected
  simpa only [CorrectedPages, h.settings, h.counter] using corrected

theorem exists_fresh (h : Leaves start docs d) (sound : start.Sound)
    (empty : ∀ q, start.collection.passing false q = none)
    (done : (d.process images).1 = .ok pages) : ∃ fresh, (start.process images).1 = .ok fresh := by
  refine exists_process_eq_ok sound (h.builds done) fun i image p m found loaded served => ?_
  rw [validAfter_eq empty] at served
  obtain ⟨out, _, corrected⟩ := (h.correctedPages done).2 i image p found loaded
  -- A page that is served in a new document is served here too, so its columns have been counted.
  cases corrected with
  | flattened _ flat => exact flat.countable
  | untouched unserved =>
      exact (served.not_unserved (leftover_of_validModel docs) unserved).elim

theorem flattens_of_lends (h : Leaves start docs d) (done : (d.process images).1 = .ok pages)
    {i q : Nat} (lends : start.Lends docs images i q) :
    ∃ image p m out, images[i]? = some image ∧ image.load = .ok p ∧
      start.leftover docs q = some m ∧ pages[i]? = some out ∧
      m.Flattens start.collection.settings start.counter p out := by
  have found := List.getElem?_eq_getElem lends.inside
  obtain ⟨_, built⟩ := h.builds done i _ found
  obtain ⟨p, loaded, _⟩ := load_of_modelFor built
  obtain ⟨out, here, corrected⟩ := (h.correctedPages done).2 i _ p found loaded
  obtain ⟨m, held⟩ := Option.isSome_iff_exists.mp lends.donor.valid
  have absent : start.leftover (images :: docs) i = none := by
    rw [leftover, if_pos lends.inside, lends.absent]
  have served := Collection.Serves.borrowed absent lends.donor held
  rw [leftover, if_neg (Nat.not_lt.mpr lends.beyond)] at held
  refine ⟨_, p, m, out, found, loaded, held, here, ?_⟩
  cases corrected with
  | flattened served' flat =>
      cases served.unique served'
      exact flat
  | untouched unserved => cases served.unique unserved

theorem process_eq (h : Leaves start docs d) (sound : start.Sound)
    (empty : ∀ q, start.collection.passing false q = none) (builds : start.Builds images)
    (alone : ∀ i q, ¬ start.Lends docs images i q) :
    (d.process images).1 = (start.process images).1 := by
  refine (process_congr h.sound sound h.settings.symm h.counter.symm
    (h.toFollows.builds.mpr builds) fun i served inside used => ?_).symm
  rw [h.validAfter, h.settings] at used
  rw [validAfter_eq empty, h.settings]
  exact serves_of_not_lends inside (alone i) used

theorem page_eq (h : Leaves start docs d) (sound : start.Sound)
    (empty : ∀ q, start.collection.passing false q = none) {fresh : List Page}
    (done : (d.process images).1 = .ok pages) (done' : (start.process images).1 = .ok fresh)
    {i : Nat} (alone : ∀ q, ¬ start.Lends docs images i q) : pages[i]? = fresh[i]? := by
  have builds := h.builds done
  have corrected := h.correctedPages done
  have corrected' := (process_eq_ok_iff sound builds fresh).mp done'
  rw [validAfter_eq empty] at corrected'
  rcases Nat.lt_or_ge i images.length with inside | beyond
  · obtain ⟨served, serves⟩ := Collection.exists_serves (start.leftover (images :: docs))
      start.collection.settings.maxDistance i
    exact (corrected.page_eq corrected' rfl builds serves
      (serves_of_not_lends inside alone serves)).symm
  · rw [List.getElem?_eq_none (by rwa [corrected.1]),
      List.getElem?_eq_none (by rwa [corrected'.1])]

theorem process_ok_iff (h : Leaves start docs d) (sound : start.Sound)
    (empty : ∀ q, start.collection.passing false q = none)
    (alone : ∀ i q, ¬ start.Lends docs images i q) :
    (d.process images).1 = .ok pages ↔ (start.process images).1 = .ok pages := by
  constructor
  · intro done
    rw [← h.process_eq sound empty (h.builds done) alone, done]
  · intro done
    rw [h.process_eq sound empty (builds_of_process sound done) alone, done]

end Leaves

/-! Without workers no list is ever processed. -/

theorem Worked.eq_of_idle {start d : Document K} {docs : List (List Source)}
    (idle : start.workers.any (· ≤ 0) = true) (h : Worked start docs d) : d = start := by
  induction h with
  | new => rfl
  | next _ done ih =>
      rw [ih, process_of_idle idle] at done
      cases done

/-- Earlier documents change a page in no other way than by lending it a model. -/
theorem process_onlyLent {preset : String} {entries : List (String × Value K)}
    {workers : Option Int} {counter : ColumnCounter} {start d : Document K}
    (h : create preset entries workers counter = .ok start) {docs : List (List Source)}
    (worked : start.Worked docs d) (images : List Source) : start.OnlyLent docs d images := by
  by_cases idle : start.workers.any (· ≤ 0) = true
  · have never : ∀ pages, (start.process images).1 ≠ .ok pages := by
      intro pages done
      rw [process_of_idle idle] at done
      cases done
    rw [worked.eq_of_idle idle]
    exact ⟨fun pages done => (never pages done).elim,
      fun pages _ done => (never pages done).elim, fun pages done => (never pages done).elim,
      fun _ _ => Iff.rfl, fun short i q => not_lends_of_le short⟩
  · have empty := create_passing h
    have workforce : ∀ n, workers = some n → 0 < n := by
      rw [workforce_iff, ← create_workers h, ← Bool.not_eq_true]
      exact idle
    have sound := create_sound h workforce
    have leaves := worked.leaves sound empty
    exact ⟨fun pages done => leaves.exists_fresh sound empty done,
      fun pages fresh done done' i alone => leaves.page_eq sound empty done done' alone,
      fun pages done i q lends => leaves.flattens_of_lends done lends,
      fun alone pages => leaves.process_ok_iff sound empty alone,
      fun short i q => not_lends_of_le short⟩

end Document

namespace Stepped

theorem flattens_dot {m : PageModel Rat} (built : m.WellBuilt) (reduction : m.reduction = 1)
    (corner : (m.vertical.field?.map fun f => f.sample 0 0) = some (-7497 / 5050))
    {settings : Settings} {counter : ColumnCounter} {out : Page}
    (flat : m.Flattens settings counter (.bit (Grid.replicate 1 1 true)) out) :
    out = .bit (Grid.replicate 1 1 false) := by
  obtain ⟨f, v, held, full, both, one⟩ := flat.moved
  rw [held] at corner
  have sample : f.sample 0 0 = -7497 / 5050 := Option.some.inj corner
  have positive := built.factor
  rw [reduction] at positive
  rw [PageModel.fullSize, reduction] at full
  have value := (f.expand_corner positive full).trans sample
  -- The only pixel would come from about a row and a half further down.
  have off : ∀ y < 1, ∀ x < 1, offPage (Scalar.ofNat y - v.value y x) 1 = true := by
    intro y row x column
    rw [Nat.lt_one_iff.mp row, Nat.lt_one_iff.mp column, value]
    decide +kernel
  by_cases two : PageModel.BothWays settings counter (.bit (Grid.replicate 1 1 true)) m
  · obtain ⟨_, _, _, _, done⟩ := both two
    exact Page.displace_blank off done
  · exact Page.displace_blank off (one two)

theorem leftover_page (q : Nat) : document.leftover [[dot], images] q =
    if q = 2 then document.validModel images 2 else none := by
  have one : [dot].length = 1 := rfl
  have three : images.length = 3 := rfl
  have first : document.validModel [dot] 0 = none := validModel_dot rfl
  have second : document.validModel images 1 = none := validModel_dot rfl
  simp only [Document.leftover, one, three]
  match q with
  | 0 => simp [first]
  | 1 => simp [second]
  | 2 => simp
  | q + 3 => simp

theorem lends_dot : document.Lends [images] [dot] 0 2 := by
  obtain ⟨m, held, _⟩ := validModel_page
  have only : ∀ q, (document.leftover [[dot], images] q).isSome ↔ q = 2 := by
    intro q
    rw [leftover_page, held]
    split <;> simp_all
  refine ⟨Nat.one_pos, validModel_dot rfl, by decide, (only 2).mpr rfl, rfl, by decide,
    fun q found _ => ?_, fun q found _ _ => ?_⟩
  · rw [(only q).mp found]
  · rw [(only q).mp found]

theorem sound_document : document.Sound := Document.create_sound create_document (by simp)

theorem worked_images : document.Worked [images] (document.process images).2 := by
  obtain ⟨pages, done⟩ := Document.exists_process_eq_ok sound_document builds_images
    fun _ _ _ _ _ _ _ checked => nomatch checked
  exact .next .new done

theorem dot_onlyLent :
    Document.create "default" entries (some 1) (fun _ => .ok 1) = .ok document ∧
      document.Worked [images] (document.process images).2 ∧
      document.Lends [images] [dot] 0 2 ∧
      document.OnlyLent [images] (document.process images).2 [dot] :=
  ⟨create_document, worked_images, lends_dot,
    Document.process_onlyLent create_document worked_images [dot]⟩

theorem builds_dot : document.Builds [dot] := by
  intro j image found
  match j, found with
  | 0, rfl => exact (modelFor_dot 0).imp fun _ made => made.1

/-- A page without lines stays as it is in a new document, and is moved away after a longer one. -/
theorem dot_moved_away :
    Document.create "default" entries (some 1) (fun _ => .ok 1) = .ok document ∧
      document.Worked [images] (document.process images).2 ∧
      (document.process [dot]).1 = .ok [.bit (Grid.replicate 1 1 true)] ∧
      ((document.process images).2.process [dot]).1 = .ok [.bit (Grid.replicate 1 1 false)] ∧
      (Grid.replicate 1 1 true).get false 0 0 ≠ (Grid.replicate 1 1 false).get false 0 0 := by
  have empty := Document.create_passing create_document
  have leaves := worked_images.leaves sound_document empty
  refine ⟨create_document, worked_images, ?_, ?_, by decide⟩
  · have none : ∀ q, document.validModel [dot] q = none
      | 0 => validModel_dot rfl
      | q + 1 => Document.validModel_of_le (Nat.succ_pos q)
    rw [Document.process_eq_ok_iff sound_document builds_dot, Document.validAfter_eq empty]
    refine ⟨rfl, fun i image p found loaded => ?_⟩
    match i, found with
    | 0, rfl =>
        cases loaded
        refine ⟨_, rfl, .untouched (.unserved (none 0) fun q held => ?_)⟩
        rw [none q] at held
        cases held
  · have builds := leaves.toFollows.builds.mpr builds_dot
    obtain ⟨pages, done⟩ := Document.exists_process_eq_ok leaves.sound builds
      fun _ _ _ _ _ _ _ checked => by
        rw [leaves.settings] at checked
        cases checked
    obtain ⟨image, p, m, out, found, loaded, held, here, flat⟩ :=
      leaves.flattens_of_lends done lends_dot
    cases found
    cases loaded
    obtain ⟨_, valid, reduction, corner⟩ := validModel_page
    rw [Document.leftover, if_pos (by decide)] at held
    cases held.symm.trans valid
    have blank := flattens_dot (Document.validModel_wellBuilt held) reduction corner flat
    obtain ⟨only, rfl⟩ := List.length_eq_one_iff.mp (leaves.correctedPages done).1
    cases here
    rw [done, blank]

end Stepped

end PageFlattening
