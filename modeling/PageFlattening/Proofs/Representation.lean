import Mathlib.Data.List.Sort
import PageFlattening.Proofs.Contents

/-! The views that a collection keeps of its contents: the highest page, the two page lists and the
bound on the cache. They are up to date after every call as long as the size of the cache stays as
it was set up; otherwise a resolution can stop half way and leave them behind. The main statement
collects what holds of every state that is reached so, the counts of the report included. -/
namespace PageFlattening

namespace Collection

variable {K : Type}

structure Current (c : Collection K) : Prop where
  top : Top c c.maxPage
  listed : Listed c
  bounded : ∃ size : Nat, c.cacheSize = .int size ∧ c.cache.length ≤ size

theorem empty_current (settings : Settings) (cacheSize : Nat) :
    (empty settings cacheSize : Collection K).Current where
  top := ⟨fun p occupied => by simp at occupied, Or.inl rfl⟩
  listed := by
    refine ⟨List.Pairwise.nil, fun p => ?_, List.Pairwise.nil, fun p => ?_⟩
    · rw [empty_slot?]
      simp [empty]
    · simp only [empty_slot?]
      simp [empty]
  bounded := ⟨cacheSize, rfl, Nat.zero_le _⟩

theorem refresh_current {c : Collection K}
    (bounded : ∃ size : Nat, c.cacheSize = .int size ∧ c.cache.length ≤ size) :
    c.refreshMaxPage.refreshLists.Current where
  top := refresh_top c
  listed := refresh_listed c
  bounded := bounded

theorem Current.withReady {c : Collection K} (h : c.Current) (ready : Bool) :
    { c with ready }.Current :=
  ⟨h.top.congr fun _ => rfl, h.listed.congr rfl rfl fun _ => rfl, h.bounded⟩

theorem Current.declare {c : Collection K} (h : c.Current) (n : Nat) :
    { c with declaredPages := n }.Current :=
  ⟨h.top.congr fun _ => rfl, h.listed.congr rfl rfl fun _ => rfl, h.bounded⟩

theorem settled_current {c : Collection K}
    (bounded : ∃ size : Nat, c.cacheSize = .int size ∧ c.cache.length ≤ size) (bound : Nat) :
    (c.settled bound).Current := by
  have kept : ∃ size : Nat, (c.redirectPages bound).cacheSize = .int size ∧
      (c.redirectPages bound).cache.length ≤ size := by
    rw [(redirectPages_ledger _ _).cacheSize, redirectPages_cache]
    exact bounded
  exact (refresh_current kept).withReady true

theorem uncached_length_le (c : Collection K) (page : Int) :
    (c.uncached page).length ≤ c.cache.length := List.length_filter_le _ _

theorem Inserted.top {c d : Collection K} {m : PageModel K} (i : Inserted c m d)
    (h : Top c c.maxPage) : Top d d.maxPage := by
  rw [i.maxPage]
  refine ⟨fun q occupied => ?_, Or.inr ?_⟩
  · rw [i.slot?] at occupied
    split at occupied
    · omega
    · have below := h.above q occupied
      omega
  · rcases Int.le_total (m.page : Int) c.maxPage with below | above
    · -- The page that was highest stays so, if another model stands there than before.
      have lowest := h.neg_one_le
      rcases h.attained with none | ⟨q, highest, occupied⟩
      · omega
      · refine ⟨q, by omega, ?_⟩
        rw [i.slot?]
        split
        · rfl
        · exact occupied
    · exact ⟨m.page, by omega, by simp [i.slot?]⟩

theorem Inserted.current {c d : Collection K} {m : PageModel K} (i : Inserted c m d)
    (h : c.Current) : d.refreshLists.Current := by
  have top := i.top h.top
  obtain ⟨size, cacheSize, fits⟩ := h.bounded
  refine ⟨top.congr fun _ => rfl, refreshLists_listed top, size, ?_, ?_⟩
  · exact i.cacheSize.trans cacheSize
  · change d.cache.length ≤ size
    rw [i.cache]
    exact Nat.le_trans (uncached_length_le c _) fits

theorem remove_current {c : Collection K} (h : c.Current) (page : Int) :
    (c.remove page).2.Current := by
  obtain ⟨d, same, ledger, _, _, cache⟩ := remove_cases c page
  obtain ⟨size, cacheSize, fits⟩ := h.bounded
  rw [same]
  refine refresh_current ⟨size, ledger.cacheSize.trans cacheSize, ?_⟩
  rw [cache]
  split
  · exact fits
  · exact Nat.le_trans (uncached_length_le c page) fits

theorem consult_current {c : Collection K} (h : c.Current) (page : Int) :
    (c.consult page).2.Current := by
  rcases consult_cases c page with same | ⟨m, member, same⟩
  · rw [same]
    exact h
  · obtain ⟨size, cacheSize, fits⟩ := h.bounded
    have shorter : (c.uncached m.page).length < c.cache.length := by
      rw [uncached, List.length_filter_lt_length_iff_exists]
      exact ⟨m, member, by simp⟩
    rw [same]
    refine ⟨h.top.congr fun _ => rfl, h.listed.congr rfl rfl fun _ => rfl, size, cacheSize, ?_⟩
    rw [List.length_append, List.length_singleton]
    omega

theorem strip_current {c : Collection K} (h : c.Current) : c.strip.Current := by
  have top := dropRedirects_top c
  obtain ⟨size, cacheSize, fits⟩ := h.bounded
  refine ⟨top.congr fun _ => rfl, refreshLists_listed (top.congr fun _ => rfl), size, ?_, ?_⟩
  · exact (dropRedirects_cacheSize c).trans cacheSize
  · change c.dropRedirects.cache.length ≤ size
    rw [dropRedirects_cache]
    exact fits

theorem restore_current {c : Collection K} (h : c.Current) : c.restore.Current := by
  obtain ⟨size, cacheSize, _⟩ := h.bounded
  have kept : c.dropRedirects.restoreCached.cacheSize = .int size := by
    rw [(restoreCached_ledger _).cacheSize, dropRedirects_cacheSize, cacheSize]
  exact (refresh_current ⟨size, kept, Nat.zero_le _⟩).withReady false

theorem revalidatePage_kinds (untested : Bool) (c : Collection K) (page p : Nat) :
    ((revalidatePage untested c page).state.slot? p).map (·.isRedirect) =
      (c.slot? p).map (·.isRedirect) := by
  rcases revalidatePage_cases untested c page with same | ⟨m, held, _, same⟩
  · rw [same, Outcome.done_state]
  · rw [same, Outcome.done_state, setSlot_slot?]
    split
    · rename_i here
      rw [here.1, held, Option.map_some, Option.map_some, PageModel.judged_isRedirect]
    · rfl

theorem revalidatePage_top {c : Collection K} (h : Top c c.maxPage) (untested : Bool)
    (page : Nat) :
    Top (revalidatePage untested c page).state (revalidatePage untested c page).state.maxPage := by
  have highest : (revalidatePage untested c page).state.maxPage = c.maxPage := by
    rcases revalidatePage_cases untested c page with same | ⟨m, _, _, same⟩ <;> rw [same] <;> rfl
  rw [highest]
  refine h.congr fun p => ?_
  rw [← Option.isSome_map, revalidatePage_kinds, Option.isSome_map]

theorem revalidatePage_current {c : Collection K} (h : c.Current) (untested : Bool) (page : Nat) :
    (revalidatePage untested c page).state.Current := by
  have kinds := revalidatePage_kinds untested c page
  refine ⟨revalidatePage_top h.top untested page, ?_, ?_⟩
  · rcases revalidatePage_cases untested c page with same | ⟨m, _, _, same⟩ <;>
      rw [same] at kinds ⊢ <;> exact h.listed.congr rfl rfl kinds
  · rcases revalidatePage_cases untested c page with same | ⟨m, _, _, same⟩ <;>
      rw [same] <;> exact h.bounded

theorem SameShelf.current {c d : Collection K} (same : SameShelf c d)
    (cacheSize : d.cacheSize = c.cacheSize) (h : c.Current) : d.Current where
  top := by
    rw [same.maxPage]
    exact h.top.congr fun p => by rw [same.slot?]
  listed := h.listed.congr same.heldPages same.builtPages fun p => by rw [same.slot?]
  bounded := by
    rw [cacheSize, same.cache]
    exact h.bounded

section Checks

variable [Scalar K]

theorem checkPage_bounded {c : Collection K} {size : Nat} (untested : Bool) (page : Nat)
    (h : c.cacheSize = .int size ∧ c.cache.length ≤ size) :
    (checkPage untested c page).state.cacheSize = .int size ∧
      (checkPage untested c page).state.cache.length ≤ size := by
  refine ⟨(checkPage_ledger untested c page).cacheSize.trans h.1, ?_⟩
  rw [checkPage_eq]
  split
  · exact h.2
  · split
    · exact h.2
    · exact setAside_cache_length (c := c.setSlot page none) h.1 h.2 _

theorem resolve_current {c : Collection K} (h : c.Current) (untested : Bool) (pages : Value K) :
    (c.resolve untested pages).state.Current := by
  obtain ⟨size, cacheSize, _⟩ := h.bounded
  by_cases accepted : ∃ n, Announces pages n
  · obtain ⟨n, announces⟩ := accepted
    have reopened : (c.announcing n).reopened.cacheSize = .int size ∧
        (c.announcing n).reopened.cache.length ≤ size :=
      ⟨(reopened_cacheSize _).trans cacheSize, Nat.zero_le _⟩
    have runs := each_checkPage_fault reopened.1 untested
      (List.range (c.announcing n).reopened.pageCount)
    have bounded := Outcome.each_invariant
      (P := fun d : Collection K => d.cacheSize = .int size ∧ d.cache.length ≤ size)
      (fun _ p fits => checkPage_bounded untested p fits)
      (List.range (c.announcing n).reopened.pageCount) reopened
    rw [resolve_eq announces, Outcome.eq_done_of_fault runs, Outcome.done_andThen,
      Outcome.done_state]
    exact settled_current ⟨size, bounded⟩ _
  · obtain ⟨fault, same⟩ := resolve_of_rejected c (not_exists.mp accepted) untested
    rw [same]
    exact h

theorem run_current {c : Collection K} (room : 0 < c.capacity) (h : c.Current) {a : Call K}
    (ha : ∀ v, a ≠ .assign .cacheSize v) : (c.run a).state.Current := by
  cases a with
  | insert m =>
      rcases insert_cases room m with ⟨same, _⟩ | ⟨_, _, d, inserted, same⟩
      · rw [run, same]
        exact h
      · rw [run, same]
        exact inserted.current h
  | remove page => exact remove_current h page
  | consult page => exact consult_current h page
  | relist => exact ⟨h.top.congr fun _ => rfl, refreshLists_listed h.top, h.bounded⟩
  | revalidate untested =>
      exact Outcome.each_invariant (P := Current)
        (fun _ p current => revalidatePage_current current untested p) c.span h
  | strip => exact strip_current h
  | restore => exact restore_current h
  | resolve untested pages => exact resolve_current h untested pages
  | setThresholds entries =>
      have frame := setThresholds_frame c entries
      exact frame.1.current frame.2.1 h
  | assign setting v =>
      have other : setting ≠ .cacheSize := by
        rintro rfl
        exact ha v rfl
      exact (assign_shelf c setting v).current (assign_cacheSize c other v) h

end Checks

/-! The counts of the report. -/

theorem Current.heldPages_eq {c : Collection K} (h : c.Current) :
    c.heldPages = c.span.filter fun p => (c.slot? p).isSome := by
  refine h.listed.held_sorted.eq_of_mem_iff ((span_sorted c).filter _) fun p => ?_
  rw [h.listed.mem_held, List.mem_filter]
  exact ⟨fun held => ⟨mem_span_of_isSome h.top held, held⟩, fun both => both.2⟩

theorem Current.builtPages_eq {c : Collection K} (h : c.Current) :
    c.builtPages = c.span.filter c.holdsBuilt := by
  refine h.listed.built_sorted.eq_of_mem_iff ((span_sorted c).filter _) fun p => ?_
  rw [h.listed.mem_built, List.mem_filter, holdsBuilt_iff]
  constructor
  · intro built
    have occupied : (c.slot? p).isSome := by
      obtain ⟨m, held, _⟩ := built
      simp [held]
    exact ⟨mem_span_of_isSome h.top occupied, built⟩
  · intro both
    exact both.2

theorem Current.models_length {c : Collection K} (h : c.Current) :
    c.models.length = c.heldPages.length := by
  rw [h.heldPages_eq, models, List.length_filterMap_eq_countP, List.countP_eq_length_filter]

theorem Current.models_built {c : Collection K} (h : c.Current) :
    (c.models.countP fun m => !m.isRedirect) = c.builtPages.length := by
  have verdict : ∀ p, ((c.slot? p).map fun m => !m.isRedirect).getD false = c.holdsBuilt p := by
    intro p
    rw [holdsBuilt]
    cases c.slot? p <;> rfl
  rw [h.builtPages_eq, models, List.countP_filterMap, ← List.countP_eq_length_filter]
  simp only [verdict]

theorem Current.counts_built {c : Collection K} (h : c.Current) :
    c.counts.built = c.builtPages.length + c.cachedPages.length := by
  have stored := h.models_built
  rw [List.countP_eq_length_filter] at stored
  rw [counts, builtModels, List.length_append, stored, cachedPages, List.length_map]

theorem Current.counts_redirects {c : Collection K} (h : c.Current) :
    c.counts.redirects = c.heldPages.length - c.builtPages.length := by
  have split := List.length_eq_countP_add_countP
    (fun m : PageModel K => m.isRedirect) (l := c.models)
  have built : (c.models.countP fun m => decide ¬ m.isRedirect = true) = c.builtPages.length := by
    rw [← h.models_built]
    congr 1
    funext m
    cases m.isRedirect <;> rfl
  rw [h.models_length, built] at split
  change (c.models.countP fun m => m.isRedirect) = _
  omega

/-- What a collection keeps up. Storage doubles from its first capacity on; the highest page lies in
it. The model in a slot is that of its page, and has the grid of the collection. The page lists are
those of storage. The cache is within its size and holds built models that are not valid, one for a
page at most and none for a page with a built model in storage. The report counts accordingly. -/
structure Represented (c : Collection K) : Prop where
  capacity : ∃ k, c.capacity = initialCapacity * 2 ^ k
  top : Top c c.maxPage
  inside : c.maxPage < c.capacity
  slots : ∀ p m, c.slot? p = some m →
    m.page = p ∧ m.stride = c.settings.build.stride ∧ m.reduction = c.settings.build.reduction
  listed : Listed c
  bounded : ∃ size : Nat, c.cacheSize = .int size ∧ c.cache.length ≤ size
  distinct : c.cachedPages.Nodup
  cached : ∀ m ∈ c.cache, m.isRedirect = false ∧ m.verticalValid = false ∧
    (c.slot? m.page = none ∨ ∃ r, c.slot? m.page = some r ∧ r.isRedirect = true)
  built : c.counts.built = c.builtPages.length + c.cachedPages.length
  redirects : c.counts.redirects = c.heldPages.length - c.builtPages.length

section Calls

variable [Scalar K]

theorem Reachable.current {c : Collection K}
    (h : Reachable (fun _ a => ∀ v, a ≠ .assign .cacheSize v) c) : c.Current := by
  refine Reachable.invariant (P := Current) ?_ empty_current ?_ ?_ h
  · intro d stored m _ v same
    cases same
  · intro d n old _
    exact old.declare n
  · intro d a consistent old allowed
    exact run_current consistent.room old allowed

/-- As long as the size of the cache is left as it was set up, every call leaves a collection as it
should be, in whatever order calls are made and whether or not they are refused. -/
theorem represented_of_reachable {c : Collection K}
    (h : Reachable (fun _ a => ∀ v, a ≠ .assign .cacheSize v) c) : Represented c := by
  have stocked := h.consistent.toStocked
  have current := h.current
  refine ⟨stocked.capacity, current.top, current.top.lt_capacity, ?_, current.listed,
    current.bounded, stocked.distinct, ?_, current.counts_built, current.counts_redirects⟩
  · intro p m held
    have stands := stocked.slots p m held
    exact ⟨stands.1, stands.2.stride, stands.2.reduction⟩
  · intro m member
    have aside := (stocked.cached m member).2
    refine ⟨aside.1, aside.2, ?_⟩
    have vacant := stocked.apart m member
    cases held : c.slot? m.page with
    | none => exact Or.inl rfl
    | some r =>
        rw [held, builtPart_some] at vacant
        split at vacant
        · rename_i redirect
          exact Or.inr ⟨r, rfl, redirect⟩
        · cases vacant

end Calls

def standardShelf : Collection Rat := empty ⟨.standard, 16, true, false, .standard⟩ 64

theorem standardShelf_reachable (Allowed : Collection Rat → Call Rat → Prop) :
    Reachable Allowed standardShelf :=
  .made (d := ⟨[], .standard⟩) rfl

def sheet (page : Nat) (vertical : Track Rat) : PageModel Rat :=
  { PageModel.blank page 60 90 30 1 with vertical }

def bookletCalls : List (Call Rat) :=
  [.insert (sheet 0 (.held .pending (PageModel.stillField .vertical))), .insert (sheet 4 .failed),
    .resolve false .null]

theorem booklet_represented :
    (standardShelf.afterCalls bookletCalls).heldPages = [0, 2, 4] ∧
      (standardShelf.afterCalls bookletCalls).cachedPages = [4] ∧
      Represented (standardShelf.afterCalls bookletCalls) := by
  refine ⟨by decide +kernel, by decide +kernel, represented_of_reachable ?_⟩
  refine (standardShelf_reachable _).afterCalls ?_
  intro d a member v same
  simp [bookletCalls, same] at member

end Collection

end PageFlattening
