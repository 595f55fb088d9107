import Mathlib.Data.List.DropRight
import PageFlattening.Proofs.Resolution

/-!
A completed resolution in closed form. Storage is given page by page by the models that pass,
`passing`, and the cache is the end of the list of those that do not, `rejects`. Two resolutions
that agree in these two agree in everything that a collection shows, whatever storage, redirects
and cache were before. This is stated up to a map of the models, so that copies can be compared.
-/
namespace PageFlattening

namespace Track

variable {K : Type}

@[simp] theorem judge_judge (t : Track K) (a b : Bool) : (t.judge a).judge b = t.judge b := by
  cases t <;> rfl

@[simp] theorem succeeded_judge (t : Track K) (a : Bool) :
    (t.judge a).succeeded = t.succeeded := by
  cases t <;> rfl

end Track

namespace PageModel

variable {K : Type}

@[simp] theorem judged_judged (m : PageModel K) {t' : Thresholds} {untested' : Bool}
    (t : Thresholds) (untested : Bool) :
    (m.judged t' untested').judged t untested = m.judged t untested := by
  by_cases skipped : (m.isRedirect || !m.vertical.succeeded) = true
  · simp only [judged, skipped, if_true]
  · simp only [judged, skipped]
    simp [isRedirect] at skipped ⊢
    simp [skipped]

end PageModel

theorem rtake_append_rtake {α : Type} (xs ys : List α) (n : Nat) :
    (xs.rtake n ++ ys).rtake n = (xs ++ ys).rtake n := by
  simp only [List.rtake_eq_reverse_take_reverse, List.reverse_append, List.reverse_reverse,
    List.take_append, List.take_take]
  congr 3
  omega

theorem rtake_of_length_le {α : Type} {xs : List α} {n : Nat} (h : xs.length ≤ n) :
    xs.rtake n = xs := by
  rw [List.rtake, Nat.sub_eq_zero_of_le h, List.drop_zero]

namespace Collection

variable {K : Type}

/-! What passes and what does not. -/

def rejectedPart (t : Thresholds) (untested : Bool) (slot : Option (PageModel K)) :
    Option (PageModel K) :=
  (slot.map fun m => m.judged t untested).filter fun m => !m.verticalValid

def passing (c : Collection K) (untested : Bool) (page : Nat) : Option (PageModel K) :=
  keptPart c.settings.thresholds untested (c.own? page)

def failing (c : Collection K) (untested : Bool) (page : Nat) : Option (PageModel K) :=
  rejectedPart c.settings.thresholds untested (c.own? page)

def rejects (c : Collection K) (untested : Bool) (bound : Nat) : List (PageModel K) :=
  (List.range bound).filterMap (c.failing untested)

/-- What a page holds after a resolution: the model that passes, or else a redirect if any page
serves as donor. -/
def assigned (c : Collection K) (untested : Bool) (bound page : Nat) : Option (PageModel K) :=
  if page < bound then
    filledPart c.settings ((List.range bound).filter fun q => (c.passing untested q).isSome) page
      (c.passing untested page)
  else none

theorem keptPart_eq_some_iff {t : Thresholds} {untested : Bool} {slot : Option (PageModel K)}
    {m : PageModel K} : keptPart t untested slot = some m ↔
      ∃ old, slot = some old ∧ m = old.judged t untested ∧ m.verticalValid = true := by
  cases slot with
  | none => simp [keptPart]
  | some old =>
      simp only [keptPart, Option.map_some, Option.filter_eq_some_iff, Option.some.injEq,
        exists_eq_left']
      exact and_congr_left fun _ => eq_comm

theorem rejectedPart_eq_some_iff {t : Thresholds} {untested : Bool} {slot : Option (PageModel K)}
    {m : PageModel K} : rejectedPart t untested slot = some m ↔
      ∃ old, slot = some old ∧ m = old.judged t untested ∧ m.verticalValid = false := by
  cases slot with
  | none => simp [rejectedPart]
  | some old =>
      simp only [rejectedPart, Option.map_some, Option.filter_eq_some_iff, Option.some.injEq,
        exists_eq_left', Bool.not_eq_true']
      exact and_congr_left fun _ => eq_comm

theorem own?_page {c : Collection K} (h : c.Stocked) {p : Nat} {m : PageModel K}
    (own : c.own? p = some m) : m.page = p := by
  rcases own?_cases own with ⟨stored, _⟩ | ⟨_, page⟩
  · exact (h.slots p m stored).1
  · exact page

theorem passing_isRedirect {c : Collection K} (h : c.Workable) {untested : Bool} {p : Nat}
    {m : PageModel K} (passes : c.passing untested p = some m) : m.isRedirect = false := by
  obtain ⟨old, own, rfl, _⟩ := keptPart_eq_some_iff.mp passes
  rw [PageModel.judged_isRedirect]
  exact h.own?_isRedirect own

theorem passing_page {c : Collection K} (h : c.Stocked) {untested : Bool} {p : Nat}
    {m : PageModel K} (passes : c.passing untested p = some m) : m.page = p := by
  obtain ⟨old, own, rfl, _⟩ := keptPart_eq_some_iff.mp passes
  rw [PageModel.judged_page]
  exact own?_page h own

theorem failing_page {c : Collection K} (h : c.Stocked) {untested : Bool} {p : Nat}
    {m : PageModel K} (fails : c.failing untested p = some m) : m.page = p := by
  obtain ⟨old, own, rfl, _⟩ := rejectedPart_eq_some_iff.mp fails
  rw [PageModel.judged_page]
  exact own?_page h own

theorem builtPart_assigned {c : Collection K} (h : c.Workable) {bound : Nat}
    (below : ∀ p m, c.own? p = some m → p < bound) (untested : Bool) (p : Nat) :
    builtPart (c.assigned untested bound p) = c.passing untested p := by
  cases passes : c.passing untested p with
  | some m =>
      obtain ⟨old, own, _⟩ := keptPart_eq_some_iff.mp passes
      simp [assigned, filledPart, passes, below p old own, passing_isRedirect h passes]
  | none =>
      rw [assigned]
      split
      · rw [filledPart, passes, Option.none_or]
        cases nearest? c.settings.maxDistance p _ with
        | none => rfl
        | some target => rfl
      · rfl

theorem rejects_sorted {c : Collection K} (h : c.Stocked) (untested : Bool) (bound : Nat) :
    (c.rejects untested bound).Pairwise fun m other => m.page < other.page := by
  refine List.pairwise_filterMap.mpr (List.pairwise_lt_range.imp ?_)
  intro p q less m fails other fails'
  rwa [failing_page h fails, failing_page h fails']

theorem mem_rejects {c : Collection K} {untested : Bool} {bound : Nat} {m : PageModel K} :
    m ∈ c.rejects untested bound ↔ ∃ p < bound, c.failing untested p = some m := by
  simp [rejects, List.mem_filterMap]

/-! The cache while pages are checked. -/

section Checks

variable [Scalar K]

theorem setAside_cache_int {c : Collection K} {size : Nat} (h : c.cacheSize = .int size)
    (fits : c.cache.length ≤ size) (m : PageModel K) :
    (c.setAside m).state.cache = (c.uncached m.page ++ [m]).rtake size := by
  rw [setAside, h]
  by_cases zero : size = 0
  · subst zero
    have empty : c.cache = [] := List.eq_nil_of_length_eq_zero (Nat.le_zero.mp fits)
    simp [Value.equalsInt, empty]
  · have other : (Value.int (size : Int) : Value K).equalsInt 0 = false := by
      simp [Value.equalsInt, zero]
    rw [other]
    exact (trim_int size c _).2

theorem checkPage_cache {c : Collection K} (opened : c.Opened) {size : Nat}
    (h : c.cacheSize = .int size) (fits : c.cache.length ≤ size) (untested : Bool) (page : Nat) :
    (checkPage untested c page).state.cache = (c.cache ++
      (rejectedPart c.settings.thresholds untested (c.slot? page)).toList).rtake size := by
  rw [checkPage_eq]
  cases held : c.slot? page with
  | none => simp [rejectedPart, rtake_of_length_le fits]
  | some m =>
      by_cases valid : (m.judged c.settings.thresholds untested).verticalValid = true
      · simp [rejectedPart, Option.filter, valid, rtake_of_length_le fits]
      · -- The page had its model in storage, so that there was none in the cache for it.
        have absent := opened.not_mem_cachedPages held (opened.built page m held)
        have others : c.uncached m.page = c.cache := by
          rw [uncached, List.filter_eq_self]
          intro other member
          have away : other.page ≠ page :=
            fun same => absent (same ▸ List.mem_map_of_mem member)
          have apart : (other.page : Int) ≠ page := by omega
          simpa [(opened.slots page m held).1] using apart
        have aside := setAside_cache_int (c := c.setSlot page none) h fits
          (m.judged c.settings.thresholds untested)
        rw [PageModel.judged_page] at aside
        change _ = (c.uncached m.page ++ _).rtake size at aside
        simpa [rejectedPart, Option.filter, valid, others] using aside

theorem each_checkPage_cache {c : Collection K} (opened : c.Opened) {size : Nat}
    (h : c.cacheSize = .int size) (fits : c.cache.length ≤ size) (untested : Bool)
    {pages : List Nat} (distinct : pages.Nodup) :
    (Outcome.each (checkPage untested) c pages).state.cache =
      (c.cache ++ pages.filterMap fun p =>
        rejectedPart c.settings.thresholds untested (c.slot? p)).rtake size := by
  induction pages generalizing c with
  | nil => simp [Outcome.each, rtake_of_length_le fits]
  | cons p rest ih =>
      obtain ⟨fresh, distinct⟩ := List.nodup_cons.mp distinct
      have bounded := checkPage_bounded untested p ⟨h, fits⟩
      have settings := (checkPage_ledger untested c p).settings
      have later : ∀ q ∈ rest, (checkPage untested c p).state.slot? q = c.slot? q := by
        intro q member
        have away : q ≠ p := fun same => fresh (same ▸ member)
        rw [checkPage_slot?, if_neg away]
      rw [Outcome.each_cons_of_done (Outcome.eq_done_of_fault (checkPage_fault h untested p)),
        ih (checkPage_opened opened untested p) bounded.1 bounded.2 distinct, settings,
        List.filterMap_congr fun q member => by rw [later q member],
        checkPage_cache opened h fits, rtake_append_rtake, List.append_assoc,
        List.filterMap_cons]
      cases rejectedPart c.settings.thresholds untested (c.slot? p) <;> rfl

end Checks

/-! Room. -/

theorem capacityFor_capacityFor {p q : Nat} (h : p ≤ q) (size : Nat) :
    capacityFor (capacityFor size p) q = capacityFor size q := by
  fun_induction capacityFor size p with
  | case1 => rfl
  | case2 size grows ih =>
      have more : ¬ (q < size ∨ size = 0) := by omega
      rw [ih, capacityFor.eq_def size q, if_neg more]

theorem foldl_restoreOne_capacityFor {models : List (PageModel K)} {page : Nat}
    (below : ∀ m ∈ models, m.page ≤ page) (c : Collection K) :
    capacityFor (models.foldl restoreOne c).capacity page = capacityFor c.capacity page := by
  induction models generalizing c with
  | nil => rfl
  | cons m rest ih =>
      rw [List.foldl_cons, ih fun other member => below other (by simp [member]),
        restoreOne_capacity, capacityFor_capacityFor (below m (by simp))]

/-- Bringing models back makes no more room than the announced pages need. -/
theorem reopened_capacity {c : Collection K} (h : c.Covered) (workable : c.Workable) :
    c.reopened.capacity = capacityFor c.capacity (c.declaredPages - 1) := by
  have count : c.dropRedirects.restoreCached.pageCount = c.declaredPages := by
    rw [← reopened_pageCount h workable, reopened, (reserve_ledger _ _).pageCount]
  have below : ∀ m ∈ c.dropRedirects.cache, m.page ≤ c.declaredPages - 1 := by
    intro m member
    rw [dropRedirects_cache] at member
    have := h m.page (Or.inr (List.mem_map_of_mem member))
    omega
  have grown := foldl_restoreOne_capacityFor below c.dropRedirects
  rw [dropRedirects_capacity] at grown
  rw [reopened, reserve_capacity, count]
  exact grown

/-! The whole resolution. -/

structure Concluded (c : Collection K) (untested : Bool) (bound size : Nat)
    (after : Collection K) : Prop where
  settings : after.settings = c.settings
  cacheSize : after.cacheSize = c.cacheSize
  declaredPages : after.declaredPages = bound
  capacity : after.capacity = capacityFor c.capacity (bound - 1)
  ready : after.ready = true
  slot? : ∀ p, after.slot? p = c.assigned untested bound p
  cache : after.cache = (c.rejects untested bound).rtake size
  top : Top after after.maxPage
  listed : Listed after

structure Arranged (c : Collection K) (untested : Bool) (bound : Nat) (after : Collection K) :
    Prop where
  slot? : ∀ p, after.slot? p = c.assigned untested bound p
  top : Top after after.maxPage
  listed : Listed after

theorem Concluded.arranged {c after : Collection K} {untested : Bool} {bound size : Nat}
    (h : Concluded c untested bound size after) : Arranged c untested bound after :=
  ⟨h.slot?, h.top, h.listed⟩

theorem settled_settings (c : Collection K) (bound : Nat) :
    (c.settled bound).settings = c.settings := (redirectPages_ledger c bound).settings

theorem settled_cacheSize (c : Collection K) (bound : Nat) :
    (c.settled bound).cacheSize = c.cacheSize := (redirectPages_ledger c bound).cacheSize

theorem settled_capacity (c : Collection K) (bound : Nat) :
    (c.settled bound).capacity = c.capacity := by
  change (c.redirectPages bound).capacity = c.capacity
  rw [redirectPages]
  generalize (List.range bound).filter (fun p => (c.slot? p).isSome) = candidates
  generalize List.range bound = pages
  induction pages generalizing c with
  | nil => rfl
  | cons p rest ih => rw [List.foldl_cons, ih, redirectPage_capacity]

theorem settled_listed (c : Collection K) (bound : Nat) : Listed (c.settled bound) :=
  (refresh_listed (c.redirectPages bound)).congr rfl rfl fun _ => rfl

theorem own?_lt_declaredPages {c : Collection K} (h : c.Covered) {p : Nat} {m : PageModel K}
    (own : c.own? p = some m) : p < c.declaredPages := h p (holds_of_own? own)

section Checks

variable [Scalar K]

theorem checked_arranged {c : Collection K} (workable : c.Workable) (covered : c.Covered)
    {untested : Bool}
    (runs : (Outcome.each (checkPage untested) c.reopened
      (List.range c.declaredPages)).fault = none) :
    Arranged c untested c.declaredPages
      ((Outcome.each (checkPage untested) c.reopened
        (List.range c.declaredPages)).state.settled c.declaredPages) := by
  refine ⟨fun p => ?_, settled_top _ _, settled_listed _ _⟩
  have bound := reopened_pageCount covered workable
  have fits := reopened_pageCount_le workable
  have slots := each_checkPage_slot? untested c.reopened List.nodup_range runs
  obtain ⟨ledger, capacity⟩ := each_checkPage_frame untested c.reopened
    (List.range c.declaredPages)
  simp only [reopened_slot? workable, reopened_settings, List.mem_range] at slots
  generalize (Outcome.each (checkPage untested) c.reopened
    (List.range c.declaredPages)).state = checked at slots ledger capacity
  have settings := ledger.settings.trans (reopened_settings c)
  have room : c.declaredPages ≤ checked.capacity := by
    rw [capacity, ← bound]
    exact fits
  have candidates : ((List.range c.declaredPages).filter fun q => (checked.slot? q).isSome) =
      (List.range c.declaredPages).filter fun q => (c.passing untested q).isSome := by
    refine List.filter_congr fun q member => ?_
    rw [slots, if_pos (List.mem_range.mp member), passing]
  rw [settled_slot?, redirectPages_slot? room, candidates, assigned, settings, slots]
  by_cases below : p < c.declaredPages
  · simp only [below, if_true]
    rfl
  · simp only [below, if_false]
    rw [Option.eq_none_iff_forall_not_mem]
    exact fun m own => below (own?_lt_declaredPages covered own)

theorem checked_concluded {c : Collection K} (consistent : c.Consistent) (covered : c.Covered)
    {size : Nat} (h : c.cacheSize = .int size) (untested : Bool) :
    Concluded c untested c.declaredPages size
      ((Outcome.each (checkPage untested) c.reopened
        (List.range c.declaredPages)).state.settled c.declaredPages) := by
  have workable := consistent.workable
  have size' : c.reopened.cacheSize = .int size := (reopened_cacheSize c).trans h
  have runs := each_checkPage_fault size' untested (List.range c.declaredPages)
  have arranged := checked_arranged workable covered runs
  have cache := each_checkPage_cache (reopened_opened consistent) size' (Nat.zero_le _) untested
    (List.nodup_range (n := c.declaredPages))
  obtain ⟨ledger, capacity⟩ := each_checkPage_frame untested c.reopened
    (List.range c.declaredPages)
  simp only [reopened_slot? workable, reopened_settings] at cache
  refine ⟨?_, ?_, ?_, ?_, rfl, arranged.slot?, ?_, arranged.top, arranged.listed⟩
  · rw [settled_settings, ledger.settings, reopened_settings]
  · rw [settled_cacheSize, ledger.cacheSize, reopened_cacheSize]
  · rw [settled_declaredPages, ledger.declaredPages, reopened_declaredPages]
  · rw [settled_capacity, capacity, reopened_capacity covered workable]
  · rw [settled_cache, cache]
    rfl

theorem resolve_concluded {c : Collection K} (consistent : c.Consistent) (covered : c.Covered)
    {size : Nat} (h : c.cacheSize = .int size) (untested : Bool) {pages : Value K} {n : Nat}
    (announced : Announces pages n) :
    ∃ after, c.resolve untested pages = .done after ∧
      Concluded c untested (max n c.declaredPages) size after := by
  have wider := announcing_covered covered n
  have opened : (c.announcing n).Consistent := consistent.declare _
  have bound : (c.announcing n).reopened.pageCount = max n c.declaredPages :=
    reopened_pageCount wider opened.workable
  have runs := each_checkPage_fault (c := (c.announcing n).reopened)
    ((reopened_cacheSize _).trans h) untested (List.range (max n c.declaredPages))
  have done := resolve_eq announced (c := c) untested
  rw [bound, Outcome.eq_done_of_fault runs, Outcome.done_andThen] at done
  have same : (c.announcing n).cacheSize = .int size := h
  have concluded := checked_concluded opened wider same untested
  exact ⟨_, done, ⟨concluded.settings, concluded.cacheSize, concluded.declaredPages,
    concluded.capacity, concluded.ready, concluded.slot?, concluded.cache, concluded.top,
    concluded.listed⟩⟩

end Checks

/-! Two resolutions. -/

theorem Top.unique {c d : Collection K} {top top' : Int} (h : Top c top) (g : Top d top')
    (same : ∀ p, (d.slot? p).isSome = (c.slot? p).isSome) : top' = top := by
  have lower : ∀ p : Nat, (p : Int) ≤ top ↔ (p : Int) ≤ top' := by
    intro p
    rw [h.le_iff, (g.congr fun q => (same q).symm).le_iff]
  have := h.neg_one_le
  have := g.neg_one_le
  have := lower top.toNat
  have := lower top'.toNat
  omega

theorem Listed.unique {c d : Collection K} (h : Listed c) (g : Listed d)
    (same : ∀ p, (d.slot? p).map (·.isRedirect) = (c.slot? p).map (·.isRedirect)) :
    d.heldPages = c.heldPages ∧ d.builtPages = c.builtPages := by
  constructor
  · refine g.held_sorted.eq_of_mem_iff h.held_sorted fun p => ?_
    rw [g.mem_held, h.mem_held, ← Option.isSome_map, same, Option.isSome_map]
  · refine g.built_sorted.eq_of_mem_iff h.built_sorted fun p => ?_
    rw [g.mem_built, h.mem_built, ← Option.map_eq_some_iff, same, Option.map_eq_some_iff]

structure Alike (f : PageModel K → PageModel K) (a b : Collection K) : Prop where
  slot? : ∀ p, b.slot? p = (a.slot? p).map f
  cache : b.cache = a.cache.map f
  maxPage : b.maxPage = a.maxPage
  pageCount : b.pageCount = a.pageCount
  builtPages : b.builtPages = a.builtPages
  heldPages : b.heldPages = a.heldPages
  ready : b.ready = a.ready

theorem filledPart_map {settings : Settings} {f : PageModel K → PageModel K}
    (redirects : ∀ p q, f (redirectTo settings p q) = redirectTo settings p q)
    (candidates : List Nat) (page : Nat) (slot : Option (PageModel K)) :
    filledPart settings candidates page (slot.map f) =
      (filledPart settings candidates page slot).map f := by
  cases slot with
  | some m => rfl
  | none =>
      simp only [filledPart, Option.map_none, Option.none_or, Option.map_map]
      congr 1
      funext target
      exact (redirects page target).symm

theorem assigned_map {c d : Collection K} {f : PageModel K → PageModel K} {untested : Bool}
    (settings : d.settings = c.settings)
    (redirects : ∀ p q, f (redirectTo c.settings p q) = redirectTo c.settings p q)
    (passing : ∀ p, d.passing untested p = (c.passing untested p).map f) (bound page : Nat) :
    d.assigned untested bound page = (c.assigned untested bound page).map f := by
  simp only [assigned, settings, passing, Option.isSome_map]
  split
  · exact filledPart_map redirects _ page _
  · rfl

theorem Concluded.alike {c d a b : Collection K} {f : PageModel K → PageModel K} {untested : Bool}
    {bound size : Nat} (hc : Concluded c untested bound size a)
    (hd : Concluded d untested bound size b) (settings : d.settings = c.settings)
    (redirects : ∀ p q, f (redirectTo c.settings p q) = redirectTo c.settings p q)
    (kinds : ∀ m, (f m).isRedirect = m.isRedirect)
    (passing : ∀ p, d.passing untested p = (c.passing untested p).map f)
    (rejects : (d.rejects untested bound).rtake size =
      ((c.rejects untested bound).rtake size).map f) : Alike f a b := by
  have slots : ∀ p, b.slot? p = (a.slot? p).map f := by
    intro p
    rw [hd.slot?, hc.slot?, assigned_map settings redirects passing]
  have top := hc.top.unique hd.top fun p => by rw [slots, Option.isSome_map]
  have lists := hc.listed.unique hd.listed fun p => by
    rw [slots, Option.map_map]
    congr 1
    funext m
    exact kinds m
  refine ⟨slots, ?_, top, ?_, lists.2, lists.1, hd.ready.trans hc.ready.symm⟩
  · rw [hd.cache, hc.cache, rejects]
  · rw [pageCount, pageCount, top, hd.declaredPages, hc.declaredPages]

end Collection

end PageFlattening
