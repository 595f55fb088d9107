import Mathlib.Tactic.Common
import PageFlattening.Proofs.Calls
import PageFlattening.Proofs.Insertion
import PageFlattening.Proofs.Review

/-! The contents of a collection. `Stocked` says that every model stands where it belongs and that
no page has two built ones; together with `RedirectsBelow` it survives every call, also one that
stops half way or changes the size of the cache, and so holds of every state that is ever reached.
-/
namespace PageFlattening

namespace Collection

variable {K : Type}

structure Belongs (build : BuildSettings) (m : PageModel K) : Prop where
  stride : m.stride = build.stride
  reduction : m.reduction = build.reduction
  attached : m.attached = true

/-- Every model stands at its own page, what is set aside are built models that are not valid, and
no page has a built model both in storage and in the cache. -/
structure Stocked (c : Collection K) : Prop where
  capacity : ∃ k, c.capacity = initialCapacity * 2 ^ k
  slots : ∀ p m, c.slot? p = some m → m.page = p ∧ Belongs c.settings.build m
  cached : ∀ m ∈ c.cache,
    Belongs c.settings.build m ∧ m.isRedirect = false ∧ m.verticalValid = false
  distinct : c.cachedPages.Nodup
  apart : ∀ m ∈ c.cache, builtPart (c.slot? m.page) = none

structure Consistent (c : Collection K) : Prop extends Stocked c where
  redirects : c.RedirectsBelow

theorem exists_pow_of_doubled {start n m : Nat} (h : ∃ k, n = start * 2 ^ k)
    (g : ∃ k, m = n * 2 ^ k) : ∃ k, m = start * 2 ^ k := by
  obtain ⟨j, rfl⟩ := h
  obtain ⟨k, rfl⟩ := g
  exact ⟨j + k, by rw [Nat.pow_add, Nat.mul_assoc]⟩

theorem Stocked.room {c : Collection K} (h : c.Stocked) : 0 < c.capacity := by
  obtain ⟨k, hk⟩ := h.capacity
  rw [hk]
  exact Nat.mul_pos (by decide) (Nat.two_pow_pos k)

theorem Stocked.workable {c : Collection K} (h : c.Stocked) (redirects : c.RedirectsBelow) :
    c.Workable where
  room := h.room
  redirects := redirects
  attached p m held := (h.slots p m held).2.attached
  cached m member := ⟨(h.cached m member).2.1, (h.cached m member).1.attached⟩

theorem Consistent.workable {c : Collection K} (h : c.Consistent) : c.Workable :=
  h.toStocked.workable h.redirects

theorem Stocked.mono {c d : Collection K} (h : c.Stocked)
    (stride : d.settings.build.stride = c.settings.build.stride)
    (reduction : d.settings.build.reduction = c.settings.build.reduction)
    (capacity : d.capacity = c.capacity)
    (slots : ∀ p m, d.slot? p = some m → c.slot? p = some m)
    (cache : d.cache.Sublist c.cache) : d.Stocked := by
  have belongs : ∀ m : PageModel K, Belongs c.settings.build m → Belongs d.settings.build m := by
    intro m b
    exact ⟨by rw [b.stride, stride], by rw [b.reduction, reduction], b.attached⟩
  refine ⟨?_, ?_, ?_, ?_, ?_⟩
  · rw [capacity]
    exact h.capacity
  · intro p m held
    have old := h.slots p m (slots p m held)
    exact ⟨old.1, belongs m old.2⟩
  · intro m member
    have old := h.cached m (cache.subset member)
    exact ⟨belongs m old.1, old.2⟩
  · exact h.distinct.sublist (cache.map _)
  · intro m member
    rw [Option.eq_none_iff_forall_not_mem]
    intro built held
    have stored := builtPart_eq_some_iff.mp held
    have old : builtPart (c.slot? m.page) = some built :=
      builtPart_eq_some_iff.mpr ⟨slots _ _ stored.1, stored.2⟩
    rw [h.apart m (cache.subset member)] at old
    cases old

theorem redirectsBelow_of_top {c : Collection K} (h : Top c c.maxPage) : c.RedirectsBelow := by
  intro p m held _
  exact h.above p (by simp [held])

theorem Stocked.consistent {c : Collection K} (h : c.Stocked) :
    c.refreshMaxPage.refreshLists.Consistent where
  toStocked := h.mono rfl rfl rfl (fun _ _ held => held) (List.Sublist.refl _)
  redirects := redirectsBelow_of_top (refresh_top c)

theorem Stocked.setSlot {c : Collection K} (h : c.Stocked) {p : Nat} {m : PageModel K}
    (page : m.page = p) (belongs : Belongs c.settings.build m)
    (apart : m.isRedirect = false → p ∉ c.cachedPages) : (c.setSlot p (some m)).Stocked where
  capacity := by
    rw [setSlot_capacity]
    exact h.capacity
  slots q other held := by
    rw [setSlot_slot?] at held
    split at held
    · rename_i here
      cases held
      exact ⟨page.trans here.1.symm, belongs⟩
    · exact h.slots q other held
  cached := h.cached
  distinct := h.distinct
  apart other member := by
    rw [setSlot_slot?]
    split
    · rename_i here
      have redirect : m.isRedirect = true := by
        by_contra built
        exact apart (by simpa using built) (here.1 ▸ List.mem_map_of_mem member)
      simp [redirect]
    · exact h.apart other member

theorem Stocked.append {c : Collection K} (h : c.Stocked) {m : PageModel K}
    (belongs : Belongs c.settings.build m) (built : m.isRedirect = false)
    (invalid : m.verticalValid = false) (vacant : builtPart (c.slot? m.page) = none) :
    { c with cache := c.uncached m.page ++ [m] }.Stocked where
  capacity := h.capacity
  slots := h.slots
  cached other member := by
    rcases List.mem_append.mp member with old | new
    · exact h.cached other (mem_uncached.mp old).1
    · rw [List.mem_singleton.mp new]
      exact ⟨belongs, built, invalid⟩
  distinct := by
    have others : ((c.uncached m.page).map (·.page)).Nodup :=
      h.distinct.sublist (List.filter_sublist.map _)
    rw [cachedPages, List.map_append, List.nodup_append]
    refine ⟨others, by simp, ?_⟩
    intro p hp q hq
    obtain ⟨other, member, rfl⟩ := List.mem_map.mp hp
    have away := (mem_uncached.mp member).2
    simp only [List.map_cons, List.map_nil, List.mem_singleton] at hq
    omega
  apart other member := by
    rcases List.mem_append.mp member with old | new
    · exact h.apart other (mem_uncached.mp old).1
    · rw [List.mem_singleton.mp new]
      exact vacant

theorem Stocked.not_mem_cachedPages {c : Collection K} (h : c.Stocked) {p : Nat} {m : PageModel K}
    (held : c.slot? p = some m) (built : m.isRedirect = false) : p ∉ c.cachedPages := by
  intro member
  obtain ⟨other, cached, rfl⟩ := List.mem_map.mp member
  have vacant := h.apart other cached
  rw [held, builtPart_some, built] at vacant
  cases vacant

theorem Belongs.judged {build : BuildSettings} {m : PageModel K} (h : Belongs build m)
    (t : Thresholds) (untested : Bool) : Belongs build (m.judged t untested) where
  stride := by rw [PageModel.judged_stride, h.stride]
  reduction := by rw [PageModel.judged_reduction, h.reduction]
  attached := by rw [PageModel.judged_attached, h.attached]

theorem Stocked.judged {c : Collection K} (h : c.Stocked) {p : Nat} {m : PageModel K}
    (held : c.slot? p = some m) (t : Thresholds) (untested : Bool) :
    (c.setSlot p (some (m.judged t untested))).Stocked := by
  have stands := h.slots p m held
  refine h.setSlot ?_ (stands.2.judged t untested) ?_
  · rw [PageModel.judged_page, stands.1]
  · intro built
    rw [PageModel.judged_isRedirect] at built
    exact h.not_mem_cachedPages held built

/-! Single models. -/

theorem Inserted.consistent {c d : Collection K} {m : PageModel K} (h : c.Consistent)
    (i : Inserted c m d) (stride : m.stride = c.settings.build.stride)
    (reduction : m.reduction = c.settings.build.reduction) : d.Consistent where
  capacity := by
    rw [i.capacity]
    exact exists_pow_of_doubled h.capacity (capacityFor_eq_mul_pow c.capacity m.page)
  slots q other held := by
    rw [i.slot?] at held
    rw [i.settings]
    split at held
    · rename_i here
      cases held
      exact ⟨by rw [entered_page, here], by simpa using stride, by simpa using reduction, by simp⟩
    · exact h.slots q other held
  cached other member := by
    rw [i.cache] at member
    rw [i.settings]
    exact h.cached other (mem_uncached.mp member).1
  distinct := by
    rw [cachedPages, i.cache]
    exact h.distinct.sublist (List.filter_sublist.map _)
  apart other member := by
    rw [i.cache] at member
    have old := mem_uncached.mp member
    have away : other.page ≠ m.page := by omega
    rw [i.slot?, if_neg away]
    exact h.apart other old.1
  redirects q other held redirect := by
    rw [i.slot?] at held
    rw [i.maxPage]
    split at held
    · omega
    · have below := h.redirects q other held redirect
      omega

theorem Consistent.refreshLists {c : Collection K} (h : c.Consistent) :
    c.refreshLists.Consistent :=
  ⟨⟨h.capacity, h.slots, h.cached, h.distinct, h.apart⟩, h.redirects⟩

theorem Consistent.withReady {c : Collection K} (h : c.Consistent) (ready : Bool) :
    { c with ready }.Consistent :=
  ⟨⟨h.capacity, h.slots, h.cached, h.distinct, h.apart⟩, h.redirects⟩

theorem insert_consistent {c : Collection K} (h : c.Consistent) (m : PageModel K) :
    (c.insert m).state.Consistent := by
  rcases insert_cases h.room m with ⟨same, _⟩ | ⟨stride, reduction, d, inserted, same⟩
  · rw [same]
    exact h
  · rw [same]
    exact (inserted.consistent h stride reduction).refreshLists

theorem remove_consistent {c : Collection K} (h : c.Consistent) (page : Int) :
    (c.remove page).2.Consistent := by
  obtain ⟨d, same, ledger, capacity, slots, cache⟩ := remove_cases c page
  have stocked : d.Stocked := by
    refine h.mono (by rw [ledger.settings]) (by rw [ledger.settings]) capacity ?_ ?_
    · intro p m held
      rw [slots] at held
      split at held
      · cases held
      · exact held
    · rw [cache]
      split
      · exact List.Sublist.refl _
      · exact List.filter_sublist
  rw [same]
  exact stocked.consistent

theorem consult_consistent {c : Collection K} (h : c.Consistent) (page : Int) :
    (c.consult page).2.Consistent := by
  rcases consult_cases c page with same | ⟨m, member, same⟩
  · rw [same]
    exact h
  · have cached := h.cached m member
    rw [same]
    exact ⟨h.append cached.1 cached.2.1 cached.2.2 (h.apart m member), h.redirects⟩

/-! The passes of a resolution. -/

theorem dropRedirects_stocked {c : Collection K} (h : c.Consistent) : c.dropRedirects.Stocked := by
  have settings := dropRedirects_settings c
  refine h.mono (by rw [settings]) (by rw [settings]) (dropRedirects_capacity c) ?_ ?_
  · intro p m held
    rw [dropRedirects_slot? h.redirects] at held
    exact (builtPart_eq_some_iff.mp held).1
  · exact dropRedirects_cache c ▸ List.Sublist.refl _

theorem strip_consistent {c : Collection K} (h : c.Consistent) : c.strip.Consistent := by
  have dropped : c.dropRedirects.Consistent :=
    ⟨dropRedirects_stocked h, redirectsBelow_of_top (dropRedirects_top c)⟩
  exact (dropped.withReady false).refreshLists

/-- Storage alone holds every built model, and no redirect. -/
structure Opened (c : Collection K) : Prop extends Stocked c where
  built : ∀ p m, c.slot? p = some m → m.isRedirect = false

theorem Opened.consistent {c : Collection K} (h : c.Opened) : c.Consistent where
  toStocked := h.toStocked
  redirects p m held redirect := by
    rw [h.built p m held] at redirect
    cases redirect

theorem empty_opened (settings : Settings) (cacheSize : Nat) :
    (empty settings cacheSize : Collection K).Opened := by
  refine ⟨⟨⟨0, ?_⟩, ?_, ?_, List.nodup_nil, ?_⟩, ?_⟩
  · simp [capacity, empty]
  · intro p m held
    rw [empty_slot?] at held
    cases held
  · intro m member
    cases member
  · intro m member
    cases member
  · intro p m held
    rw [empty_slot?] at held
    cases held

theorem restored_opened {c : Collection K} (h : c.Consistent) :
    c.dropRedirects.restoreCached.Opened where
  capacity := by
    have doubled := restoreCached_capacity c.dropRedirects
    rw [dropRedirects_capacity] at doubled
    exact exists_pow_of_doubled h.capacity doubled
  slots p m held := by
    rw [restored_slot? h.workable] at held
    rw [(restoreCached_ledger _).settings, dropRedirects_settings]
    rcases own?_cases held with ⟨stored, _⟩ | ⟨member, page⟩
    · exact h.slots p m stored
    · exact ⟨page, (h.cached m member).1⟩
  cached m member := by cases member
  distinct := List.nodup_nil
  apart m member := by cases member
  built p m held := by
    rw [restored_slot? h.workable] at held
    exact h.workable.own?_isRedirect held

theorem Opened.reserve {c : Collection K} (h : c.Opened) (page : Nat) :
    (c.reserve page).Opened where
  capacity := by
    rw [reserve_capacity]
    exact exists_pow_of_doubled h.capacity (capacityFor_eq_mul_pow c.capacity page)
  slots p m held := by
    rw [reserve_slot?] at held
    exact h.slots p m held
  cached := h.cached
  distinct := h.distinct
  apart m member := by
    rw [reserve_slot?]
    exact h.apart m member
  built p m held := by
    rw [reserve_slot?] at held
    exact h.built p m held

theorem reopened_opened {c : Collection K} (h : c.Consistent) : c.reopened.Opened :=
  (restored_opened h).reserve _

theorem restore_consistent {c : Collection K} (h : c.Consistent) : c.restore.Consistent :=
  (restored_opened h).toStocked.consistent.withReady false

theorem redirectTo_belongs (settings : Settings) (page target : Nat) :
    Belongs settings.build (redirectTo settings page target : PageModel K) := ⟨rfl, rfl, rfl⟩

theorem redirectPage_stocked {c : Collection K} (h : c.Stocked) (candidates : List Nat)
    (page : Nat) : (redirectPage candidates c page).Stocked := by
  simp only [redirectPage]
  split
  · exact h
  · split
    · exact h
    · rename_i target _
      refine h.setSlot rfl (redirectTo_belongs c.settings page target) ?_
      intro built
      cases built

theorem redirectPages_stocked {c : Collection K} (h : c.Stocked) (bound : Nat) :
    (c.redirectPages bound).Stocked := by
  rw [redirectPages]
  generalize (List.range bound).filter (fun p => (c.slot? p).isSome) = candidates
  generalize List.range bound = pages
  induction pages generalizing c with
  | nil => exact h
  | cons p rest ih => exact ih (redirectPage_stocked h candidates p)

theorem settled_consistent {c : Collection K} (h : c.Stocked) (bound : Nat) :
    (c.settled bound).Consistent :=
  (redirectPages_stocked h bound).consistent.withReady true

theorem revalidatePage_cases (untested : Bool) (c : Collection K) (page : Nat) :
    revalidatePage untested c page = .done c ∨
      ∃ m, c.slot? page = some m ∧ m.isRedirect = false ∧
        revalidatePage untested c page =
          .done (c.setSlot page (some (m.judged c.settings.thresholds untested))) := by
  rw [revalidatePage]
  cases held : c.slot? page with
  | none => exact Or.inl rfl
  | some m =>
      cases redirect : m.isRedirect with
      | true => exact Or.inl (by simp [redirect])
      | false => exact Or.inr ⟨m, rfl, redirect, by simp [redirect, PageModel.validate_eq]⟩

theorem revalidatePage_consistent {c : Collection K} (h : c.Consistent) (untested : Bool)
    (page : Nat) : (revalidatePage untested c page).state.Consistent := by
  rcases revalidatePage_cases untested c page with same | ⟨m, held, built, same⟩
  · rw [same]
    exact h
  · rw [same]
    refine ⟨h.judged held _ untested, ?_⟩
    intro p other stored redirect
    rw [Outcome.done_state, setSlot_slot?] at stored
    split at stored
    · cases stored
      rw [PageModel.judged_isRedirect, built] at redirect
      cases redirect
    · exact h.redirects p other stored redirect

theorem revalidate_consistent {c : Collection K} (h : c.Consistent) (untested : Bool) :
    (c.revalidate untested).state.Consistent :=
  Outcome.each_invariant (P := Consistent)
    (fun _ p consistent => revalidatePage_consistent consistent untested p) c.span h

theorem Consistent.declare {c : Collection K} (h : c.Consistent) (n : Nat) :
    { c with declaredPages := n }.Consistent :=
  ⟨⟨h.capacity, h.slots, h.cached, h.distinct, h.apart⟩, h.redirects⟩

theorem SameShelf.consistent {c d : Collection K} (same : SameShelf c d) (h : c.Consistent) :
    d.Consistent where
  toStocked := h.mono same.stride same.reduction same.capacity
    (fun p m held => by rwa [same.slot?] at held) (same.cache ▸ List.Sublist.refl _)
  redirects p m held redirect := by
    rw [same.slot?] at held
    rw [same.maxPage]
    exact h.redirects p m held redirect

section Checks

variable [Scalar K]

theorem setAside_stocked {c : Collection K} (h : c.Stocked) {m : PageModel K}
    (belongs : Belongs c.settings.build m) (built : m.isRedirect = false)
    (invalid : m.verticalValid = false) (vacant : builtPart (c.slot? m.page) = none) :
    (c.setAside m).state.Stocked := by
  have frame := setAside_frame c m
  have settings := frame.1.settings
  have slots : ∀ p other, (c.setAside m).state.slot? p = some other → c.slot? p = some other := by
    intro p other held
    rwa [setAside_slot?] at held
  rcases setAside_cache c m with same | kept
  · exact h.mono (by rw [settings]) (by rw [settings]) (setAside_capacity c m) slots
      (same ▸ List.Sublist.refl _)
  · exact (h.append belongs built invalid vacant).mono (by rw [settings]) (by rw [settings])
      (setAside_capacity c m) slots kept.sublist

theorem checkPage_opened {c : Collection K} (h : c.Opened) (untested : Bool) (page : Nat) :
    (checkPage untested c page).state.Opened := by
  have built : ∀ p m, (checkPage untested c page).state.slot? p = some m →
      m.isRedirect = false := by
    intro p m held
    rw [checkPage_slot?] at held
    split at held
    · rw [keptPart, Option.filter_eq_some_iff, Option.map_eq_some_iff] at held
      obtain ⟨⟨old, stored, rfl⟩, _⟩ := held
      rw [PageModel.judged_isRedirect]
      exact h.built page old stored
    · exact h.built p m held
  refine ⟨?_, built⟩
  rw [checkPage_eq]
  split
  · exact h.toStocked
  · rename_i m held
    have stands := h.slots page m held
    split
    · exact h.judged held _ untested
    · rename_i invalid
      have emptied : (c.setSlot page none).Stocked := by
        refine h.mono rfl rfl (setSlot_capacity c page none) ?_ (List.Sublist.refl _)
        intro p other stored
        rw [setSlot_none_slot?] at stored
        split at stored
        · cases stored
        · exact stored
      refine setAside_stocked emptied (stands.2.judged _ untested) ?_ (by simpa using invalid) ?_
      · rw [PageModel.judged_isRedirect]
        exact h.built page m held
      · rw [PageModel.judged_page, stands.1, setSlot_none_slot?, if_pos rfl]
        rfl

theorem each_checkPage_opened {c : Collection K} (h : c.Opened) (untested : Bool)
    (pages : List Nat) : (Outcome.each (checkPage untested) c pages).state.Opened :=
  Outcome.each_invariant (P := Opened)
    (fun _ p opened => checkPage_opened opened untested p) pages h

theorem resolve_consistent {c : Collection K} (h : c.Consistent) (untested : Bool)
    (pages : Value K) : (c.resolve untested pages).state.Consistent := by
  by_cases accepted : ∃ n, Announces pages n
  · obtain ⟨n, announces⟩ := accepted
    have opened := reopened_opened (c := c.announcing n) (h.declare _)
    have checked := each_checkPage_opened opened untested
      (List.range (c.announcing n).reopened.pageCount)
    rw [resolve_eq announces, Outcome.andThen]
    split
    · exact settled_consistent checked.toStocked _
    · exact checked.consistent
  · obtain ⟨fault, same⟩ := resolve_of_rejected c (not_exists.mp accepted) untested
    rw [same]
    exact h

theorem run_consistent {c : Collection K} (h : c.Consistent) (a : Call K) :
    (c.run a).state.Consistent := by
  cases a with
  | insert m => exact insert_consistent h m
  | remove page => exact remove_consistent h page
  | consult page => exact consult_consistent h page
  | relist => exact h.refreshLists
  | revalidate untested => exact revalidate_consistent h untested
  | strip => exact strip_consistent h
  | restore => exact restore_consistent h
  | resolve untested pages => exact resolve_consistent h untested pages
  | setThresholds entries => exact (setThresholds_frame c entries).1.consistent h
  | assign setting v => exact (assign_shelf c setting v).consistent h

theorem Reachable.consistent {Allowed : Collection K → Call K → Prop} {c : Collection K}
    (h : Reachable Allowed c) : c.Consistent := by
  refine Reachable.induction (P := Consistent) ?_ ?_ ?_ ?_ h
  · intro settings cacheSize
    exact (empty_opened settings cacheSize).consistent
  · intro d n old _
    exact old.declare n
  · intro d v m _ old
    exact insert_consistent old m
  · intro d a old _
    exact run_consistent old a

theorem Reachable.invariant {Allowed : Collection K → Call K → Prop} {P : Collection K → Prop}
    (inserts : ∀ c v m, PageModel.ofRecord v = .ok m → Allowed c (.insert m))
    (start : ∀ settings cacheSize, P (empty settings cacheSize))
    (announce : ∀ c n, P c → c.pageCount ≤ n → P { c with declaredPages := n })
    (step : ∀ c a, c.Consistent → P c → Allowed c a → P (c.run a).state) {c : Collection K}
    (h : Reachable Allowed c) : P c := by
  have both : c.Consistent ∧ P c := by
    refine Reachable.induction (P := fun d => d.Consistent ∧ P d) ?_ ?_ ?_ ?_ h
    · intro settings cacheSize
      exact ⟨(empty_opened settings cacheSize).consistent, start settings cacheSize⟩
    · intro d n old enough
      exact ⟨old.1.declare n, announce d n old.2 enough⟩
    · intro d v m read old
      exact ⟨insert_consistent old.1 m, step d (.insert m) old.1 old.2 (inserts d v m read)⟩
    · intro d a old allowed
      exact ⟨run_consistent old.1 a, step d a old.1 old.2 allowed⟩
  exact both.2

end Checks

end Collection

end PageFlattening
