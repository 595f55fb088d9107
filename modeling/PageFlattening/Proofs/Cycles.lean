import PageFlattening.Proofs.Settlement

/-!
Resolving again, and undoing a resolution. A second resolution finds in storage what passed and in
the cache the end of what did not, in page order, so that it comes to the same. Undoing one brings
all of this back; what the cache had no room for is lost, and that are the first pages that did not
pass.
-/
namespace PageFlattening

namespace Collection

variable {K : Type}

/-! What a resolution leaves for the next one. -/

theorem find?_page_eq_some_iff {models : List (PageModel K)} {p : Nat} {m : PageModel K}
    (distinct : (models.map (·.page)).Nodup) :
    (models.find? fun other => (other.page : Int) == p) = some m ↔ m ∈ models ∧ m.page = p := by
  constructor
  · intro found
    have page := List.find?_some found
    rw [beq_iff_eq] at page
    exact ⟨List.mem_of_find?_eq_some found, by omega⟩
  · rintro ⟨member, rfl⟩
    have some : (models.find? fun other => (other.page : Int) == m.page).isSome := by
      rw [List.find?_isSome]
      exact ⟨m, member, by simp⟩
    obtain ⟨other, found⟩ := Option.isSome_iff_exists.mp some
    have page := List.find?_some found
    rw [beq_iff_eq] at page
    have same : other = m := List.inj_on_of_nodup_map distinct (List.mem_of_find?_eq_some found)
      member (by omega)
    rw [found, same]

theorem cached?_eq_some_iff {c : Collection K} (distinct : c.cachedPages.Nodup) {p : Nat}
    {m : PageModel K} : c.cached? p = some m ↔ m ∈ c.cache ∧ m.page = p :=
  find?_page_eq_some_iff distinct

theorem filterMap_cached? {c : Collection K} {bound : Nat}
    (sorted : c.cache.Pairwise fun m other => m.page < other.page)
    (below : ∀ m ∈ c.cache, m.page < bound) :
    (List.range bound).filterMap (fun p : Nat => c.cached? p) = c.cache := by
  have distinct : c.cachedPages.Nodup := by
    refine List.pairwise_map.mpr (sorted.imp ?_)
    intro m other less
    omega
  have irreflexive : Std.Irrefl fun m other : PageModel K => m.page < other.page :=
    ⟨fun m => Nat.lt_irrefl m.page⟩
  refine List.Pairwise.eq_of_mem_iff (r := fun m other => m.page < other.page) ?_ sorted ?_
  · refine List.pairwise_filterMap.mpr (List.pairwise_lt_range.imp ?_)
    intro p q less m found other found'
    rwa [((cached?_eq_some_iff distinct).mp found).2, ((cached?_eq_some_iff distinct).mp found').2]
  · intro m
    simp only [List.mem_filterMap, List.mem_range, cached?_eq_some_iff distinct]
    constructor
    · rintro ⟨p, _, member, _⟩
      exact member
    · intro member
      exact ⟨m.page, below m member, member, rfl⟩

namespace Concluded

variable {c after : Collection K} {untested : Bool} {bound size : Nat}

theorem mem_cache (h : Concluded c untested bound size after) {m : PageModel K}
    (member : m ∈ after.cache) : ∃ p < bound, c.failing untested p = some m := by
  rw [h.cache] at member
  exact mem_rejects.mp (List.mem_of_mem_drop member)

theorem cache_sorted (h : Concluded c untested bound size after) (stocked : c.Stocked) :
    after.cache.Pairwise fun m other => m.page < other.page := by
  rw [h.cache]
  exact (rejects_sorted stocked untested bound).sublist (List.drop_sublist _ _)

theorem own? (h : Concluded c untested bound size after) (workable : c.Workable)
    (below : ∀ p m, c.own? p = some m → p < bound) (p : Nat) :
    after.own? p = (c.passing untested p).or (after.cached? p) := by
  rw [Collection.own?, h.slot?, builtPart_assigned workable below]

theorem cached?_of_passing (h : Concluded c untested bound size after) (stocked : c.Stocked)
    {p : Nat} {m : PageModel K} (passes : c.passing untested p = some m) :
    after.cached? p = none := by
  rw [Option.eq_none_iff_forall_not_mem]
  intro other found
  obtain ⟨member, page⟩ := mem_cache_of_cached? found
  obtain ⟨q, _, fails⟩ := h.mem_cache member
  have same : q = p := by
    have := failing_page stocked fails
    omega
  subst same
  obtain ⟨old, own, rfl, valid⟩ := keptPart_eq_some_iff.mp passes
  obtain ⟨old', own', rfl, invalid⟩ := rejectedPart_eq_some_iff.mp fails
  rw [own] at own'
  cases own'
  rw [valid] at invalid
  cases invalid

theorem judged_of_cached? (h : Concluded c untested bound size after) {p : Nat} {m : PageModel K}
    (found : after.cached? p = some m) :
    m.judged c.settings.thresholds untested = m ∧ m.verticalValid = false := by
  obtain ⟨q, _, fails⟩ := h.mem_cache (mem_cache_of_cached? found).1
  obtain ⟨old, _, rfl, invalid⟩ := rejectedPart_eq_some_iff.mp fails
  exact ⟨PageModel.judged_judged old _ _, invalid⟩

theorem passing (h : Concluded c untested bound size after) (workable : c.Workable)
    (below : ∀ p m, c.own? p = some m → p < bound) (p : Nat) :
    after.passing untested p = c.passing untested p := by
  rw [Collection.passing, h.own? workable below, h.settings]
  cases passes : c.passing untested p with
  | some m =>
      obtain ⟨old, _, rfl, valid⟩ := keptPart_eq_some_iff.mp passes
      exact keptPart_eq_some_iff.mpr ⟨_, rfl, (PageModel.judged_judged old _ _).symm, valid⟩
  | none =>
      rw [Option.none_or, Option.eq_none_iff_forall_not_mem]
      intro m kept
      obtain ⟨old, found, rfl, valid⟩ := keptPart_eq_some_iff.mp kept
      have cached := h.judged_of_cached? found
      rw [cached.1, cached.2] at valid
      cases valid

theorem failing (h : Concluded c untested bound size after) (stocked : c.Stocked)
    (workable : c.Workable) (below : ∀ p m, c.own? p = some m → p < bound) (p : Nat) :
    after.failing untested p = after.cached? p := by
  rw [Collection.failing, h.own? workable below, h.settings]
  cases passes : c.passing untested p with
  | some m =>
      obtain ⟨old, _, rfl, valid⟩ := keptPart_eq_some_iff.mp passes
      rw [h.cached?_of_passing stocked passes, Option.or_none]
      simp [rejectedPart, Option.filter, valid]
  | none =>
      rw [Option.none_or]
      cases found : after.cached? p with
      | none => rfl
      | some m =>
          have cached := h.judged_of_cached? found
          simp [rejectedPart, Option.filter, cached]

theorem rejects (h : Concluded c untested bound size after) (stocked : c.Stocked)
    (workable : c.Workable) (below : ∀ p m, c.own? p = some m → p < bound) :
    after.rejects untested bound = (c.rejects untested bound).rtake size := by
  have pages : ∀ m ∈ after.cache, m.page < bound := by
    intro m member
    obtain ⟨p, inside, fails⟩ := h.mem_cache member
    rwa [failing_page stocked fails]
  rw [← h.cache, ← filterMap_cached? (h.cache_sorted stocked) pages, Collection.rejects]
  exact List.filterMap_congr fun p _ => h.failing stocked workable below p

end Concluded

/-! Equal states. -/

def unlogged (c : Collection K) : Collection K := { c with departed := [] }

theorem slots_eq {c d : Collection K} (capacity : d.capacity = c.capacity)
    (same : ∀ p, d.slot? p = c.slot? p) : d.slots = c.slots := by
  apply Array.ext capacity
  intro p inside inside'
  have entry := same p
  simpa [slot?, Array.getD, inside, inside'] using entry

theorem unlogged_eq {c d a b : Collection K} {untested : Bool} {bound size : Nat}
    (hc : Concluded c untested bound size a) (hd : Concluded d untested bound size b)
    (settings : d.settings = c.settings) (cacheSize : d.cacheSize = c.cacheSize)
    (capacity : capacityFor d.capacity (bound - 1) = capacityFor c.capacity (bound - 1))
    (passing : ∀ p, d.passing untested p = c.passing untested p)
    (rejects : (d.rejects untested bound).rtake size = (c.rejects untested bound).rtake size) :
    b.unlogged = a.unlogged := by
  have alike : Alike id a b := by
    refine hc.alike hd settings (fun _ _ => rfl) (fun _ => rfl) ?_ ?_
    · intro p
      rw [passing, Option.map_id]
      rfl
    · rw [rejects, List.map_id]
  have slots : b.slots = a.slots := by
    refine slots_eq ?_ fun p => ?_
    · rw [hd.capacity, hc.capacity, capacity]
    · rw [alike.slot?, Option.map_id]
      rfl
  have cache : b.cache = a.cache := by rw [alike.cache, List.map_id]
  rw [unlogged, unlogged, hd.settings, hc.settings, settings, hd.cacheSize, hc.cacheSize, cacheSize,
    hd.declaredPages, hc.declaredPages, slots, cache, alike.maxPage, alike.builtPages,
    alike.heldPages, alike.ready]

/-! Pages that do not pass. -/

def invalidPages (c : Collection K) (untested : Bool) (bound : Nat) : List Nat :=
  (List.range bound).filter fun p =>
    (c.own? p).any fun m => !m.passes c.settings.thresholds untested

theorem failing_isSome {c : Collection K} (h : c.Workable) (untested : Bool) (p : Nat) :
    (c.failing untested p).isSome =
      (c.own? p).any fun m => !m.passes c.settings.thresholds untested := by
  rw [failing, rejectedPart]
  cases own : c.own? p with
  | none => rfl
  | some m =>
      have verdict := PageModel.judged_verticalValid (h.own?_isRedirect own)
        c.settings.thresholds untested
      rw [Option.map_some, Option.any_some, Option.filter, verdict]
      cases m.passes c.settings.thresholds untested <;> rfl

theorem passing_or_failing (c : Collection K) (untested : Bool) (p : Nat) :
    (c.passing untested p).or (c.failing untested p) =
      (c.own? p).map fun m => m.judged c.settings.thresholds untested := by
  rw [passing, failing, keptPart, rejectedPart]
  cases c.own? p with
  | none => rfl
  | some m =>
      cases valid : (m.judged c.settings.thresholds untested).verticalValid <;>
        simp [Option.filter, valid]

theorem passing_eq_none_of_failing {c : Collection K} {untested : Bool} {p : Nat}
    (h : (c.failing untested p).isSome) : c.passing untested p = none := by
  rw [failing, rejectedPart] at h
  rw [passing, keptPart]
  cases own : c.own? p with
  | none => rfl
  | some m =>
      rw [own] at h
      cases valid : (m.judged c.settings.thresholds untested).verticalValid with
      | false => simp [Option.filter, valid]
      | true => simp [Option.filter, valid] at h

theorem mem_invalidPages {c : Collection K} (h : c.Workable) {untested : Bool} {bound : Nat}
    (below : ∀ p m, c.own? p = some m → p < bound) (p : Nat) :
    p ∈ c.invalidPages untested bound ↔ (c.failing untested p).isSome := by
  rw [failing_isSome h, invalidPages, List.mem_filter, List.mem_range, and_iff_right_iff_imp]
  intro fails
  cases own : c.own? p with
  | none => simp [own] at fails
  | some m => exact below p m own

theorem map_page_rejects {c : Collection K} (stocked : c.Stocked) (workable : c.Workable)
    (untested : Bool) (bound : Nat) :
    (c.rejects untested bound).map (·.page) = c.invalidPages untested bound := by
  rw [rejects, List.map_filterMap, invalidPages, ← List.filterMap_eq_filter]
  refine List.filterMap_congr fun p _ => ?_
  simp only [Option.guard, ← failing_isSome workable]
  cases fails : c.failing untested p with
  | none => rfl
  | some m => simp [failing_page stocked fails]

/-- The pages whose model a cache of a given size has no room for: the first ones that do not
pass. -/
def lostPages (c : Collection K) (untested : Bool) (bound size : Nat) : List Nat :=
  (c.invalidPages untested bound).take ((c.invalidPages untested bound).length - size)

/-- Storage after a resolution has been undone: no redirect is left, nothing is set aside, and every
built model that was held is back with its verdict, but for those that were lost. -/
structure Undone (c : Collection K) (untested : Bool) (bound size : Nat) (after : Collection K) :
    Prop where
  built : ∀ p m, after.slot? p = some m → m.isRedirect = false
  cache : after.cache = []
  ready : after.ready = false
  lost : ∀ p ∈ c.lostPages untested bound size, after.slot? p = none
  kept : ∀ p, p ∉ c.lostPages untested bound size →
    after.slot? p = (c.own? p).map fun m => m.judged c.settings.thresholds untested

theorem cached?_isSome (c : Collection K) (p : Nat) :
    (c.cached? p).isSome ↔ p ∈ c.cachedPages := by
  rw [cached?, List.find?_isSome, cachedPages, List.mem_map]
  simp only [beq_iff_eq]
  constructor <;> rintro ⟨m, member, same⟩ <;> exact ⟨m, member, by omega⟩

namespace Concluded

variable {c after : Collection K} {untested : Bool} {bound size : Nat}

theorem cachedPages_eq (h : Concluded c untested bound size after) (stocked : c.Stocked)
    (workable : c.Workable) :
    after.cachedPages = (c.invalidPages untested bound).drop
      ((c.invalidPages untested bound).length - size) := by
  have length : (c.rejects untested bound).length = (c.invalidPages untested bound).length := by
    rw [← map_page_rejects stocked workable, List.length_map]
  rw [cachedPages, h.cache, List.rtake, List.map_drop, map_page_rejects stocked workable, length]

theorem mem_cachedPages (h : Concluded c untested bound size after) (stocked : c.Stocked)
    (workable : c.Workable) (p : Nat) :
    p ∈ after.cachedPages ↔
      p ∈ c.invalidPages untested bound ∧ p ∉ c.lostPages untested bound size := by
  have distinct : (c.invalidPages untested bound).Nodup := List.nodup_range.filter _
  rw [h.cachedPages_eq stocked workable, lostPages]
  constructor
  · intro last
    exact ⟨List.mem_of_mem_drop last,
      fun first => List.disjoint_take_drop distinct (Nat.le_refl _) first last⟩
  · rintro ⟨member, later⟩
    rw [← List.take_append_drop ((c.invalidPages untested bound).length - size)
      (c.invalidPages untested bound), List.mem_append] at member
    exact member.resolve_left later

theorem cached?_eq (h : Concluded c untested bound size after) (stocked : c.Stocked) {p : Nat}
    (cached : p ∈ after.cachedPages) : after.cached? p = c.failing untested p := by
  obtain ⟨m, found⟩ := Option.isSome_iff_exists.mp ((cached?_isSome after p).mpr cached)
  obtain ⟨member, page⟩ := mem_cache_of_cached? found
  obtain ⟨q, _, fails⟩ := h.mem_cache member
  have same : q = p := by
    have := failing_page stocked fails
    omega
  rw [found, ← same, fails]

theorem undone (h : Concluded c untested bound size after) (stocked : c.Stocked)
    (workable : c.Workable) (after_workable : after.Workable)
    (below : ∀ p m, c.own? p = some m → p < bound) :
    Undone c untested bound size after.restore := by
  have slots : ∀ p, after.restore.slot? p = (c.passing untested p).or (after.cached? p) := by
    intro p
    rw [restore_slot? after_workable, h.own? workable below]
  have uncached : ∀ p, p ∉ after.cachedPages → after.cached? p = none := by
    intro p absent
    rw [← Option.not_isSome_iff_eq_none, cached?_isSome]
    exact absent
  have invalid : ∀ p, p ∈ c.invalidPages untested bound ↔ (c.failing untested p).isSome :=
    mem_invalidPages workable below
  have mem := h.mem_cachedPages stocked workable
  refine ⟨?_, rfl, rfl, ?_, ?_⟩
  · intro p m held
    rw [restore_slot? after_workable] at held
    exact after_workable.own?_isRedirect held
  · intro p lost
    have fails := (invalid p).mp (List.mem_of_mem_take lost)
    rw [slots, passing_eq_none_of_failing fails, uncached p fun cached => ((mem p).mp cached).2 lost]
    rfl
  · intro p found
    rw [slots, ← passing_or_failing]
    by_cases fails : p ∈ c.invalidPages untested bound
    · rw [h.cached?_eq stocked ((mem p).mpr ⟨fails, found⟩)]
    · rw [uncached p fun cached => fails ((mem p).mp cached).1]
      rw [invalid, Option.not_isSome_iff_eq_none] at fails
      rw [fails]

end Concluded

/-! Restoring first. -/

theorem restore_own? {c : Collection K} (workable : c.Workable) (p : Nat) :
    c.restore.own? p = c.own? p := by
  rw [own?, restore_slot? workable]
  change (builtPart (c.own? p)).or none = c.own? p
  rw [Option.or_none]
  cases own : c.own? p with
  | none => rfl
  | some m => simp [workable.own?_isRedirect own]

theorem restore_settings (c : Collection K) : c.restore.settings = c.settings := by
  change c.dropRedirects.restoreCached.settings = c.settings
  rw [(restoreCached_ledger _).settings, dropRedirects_settings]

theorem restore_cacheSize (c : Collection K) : c.restore.cacheSize = c.cacheSize := by
  change c.dropRedirects.restoreCached.cacheSize = c.cacheSize
  rw [(restoreCached_ledger _).cacheSize, dropRedirects_cacheSize]

theorem restore_capacityFor {c : Collection K} (covered : c.Covered) {page : Nat}
    (above : c.declaredPages ≤ page + 1) :
    capacityFor c.restore.capacity page = capacityFor c.capacity page := by
  have below : ∀ m ∈ c.dropRedirects.cache, m.page ≤ page := by
    intro m member
    rw [dropRedirects_cache] at member
    have := covered m.page (Or.inr (List.mem_map_of_mem member))
    omega
  have grown := foldl_restoreOne_capacityFor below c.dropRedirects
  rw [dropRedirects_capacity] at grown
  exact grown

/-! Every state that is ever reached. -/

section Checks

variable [Scalar K]

/-- The calls that never assign fewer pages than there are. -/
def Extending (c : Collection K) : Call K → Prop
  | .assign .pageCount v => ∀ n, checkPageCount v = .ok n → c.pageCount ≤ n
  | _ => True

theorem Extending.cases {c : Collection K} {a : Call K} (h : c.Extending a) :
    c.Growing a ∨ ∃ v, a = .assign .cacheSize v := by
  cases a with
  | assign setting v =>
      cases setting with
      | cacheSize => exact Or.inr ⟨v, rfl⟩
      | pageCount => exact Or.inl h
      | minLines => exact Or.inl trivial
      | useBoth => exact Or.inl trivial
      | checkColumns => exact Or.inl trivial
      | limit l => exact Or.inl trivial
  | _ => exact Or.inl trivial

theorem Extending.covered {c : Collection K} {a : Call K} (extends_ : c.Extending a)
    (consistent : c.Consistent) (h : c.Covered) : (c.run a).state.Covered := by
  rcases extends_.cases with grows | ⟨v, rfl⟩
  · exact run_covered consistent h grows
  · exact h

theorem Reachable.covered_of_extending {c : Collection K} (h : Reachable Extending c) :
    c.Covered := by
  refine Reachable.invariant (P := Covered) (fun _ _ _ _ => trivial) empty_covered ?_ ?_ h
  · intro d n old enough
    exact old.declare enough
  · intro d a consistent old extends_
    exact extends_.covered consistent old

/-! Resolving what has been resolved or restored. -/

theorem Concluded.resolve_again {c once : Collection K} {untested : Bool} {pages : Value K}
    {n size : Nat} (announced : Announces pages n)
    (h : Concluded c untested (max n c.declaredPages) size once) (stocked : c.Stocked)
    (workable : c.Workable) (covered : c.Covered) (consistent : once.Consistent)
    (within : once.Covered) (cacheSize : c.cacheSize = .int size) :
    ∃ twice, once.resolve untested pages = .done twice ∧ twice.unlogged = once.unlogged := by
  have below : ∀ p m, c.own? p = some m → p < max n c.declaredPages := by
    intro p m own
    have := own?_lt_declaredPages covered own
    omega
  obtain ⟨twice, done, again⟩ := resolve_concluded consistent within
    (h.cacheSize.trans cacheSize) untested announced
  have bound : max n once.declaredPages = max n c.declaredPages := by
    rw [h.declaredPages]
    omega
  rw [bound] at again
  refine ⟨twice, done, unlogged_eq h again h.settings h.cacheSize ?_ (h.passing workable below) ?_⟩
  · rw [h.capacity, capacityFor_capacityFor (Nat.le_refl _)]
  · rw [h.rejects stocked workable below]
    refine rtake_of_length_le ?_
    rw [List.rtake, List.length_drop]
    omega

theorem Concluded.resolve_restored {c once : Collection K} {untested : Bool} {pages : Value K}
    {n size : Nat} (announced : Announces pages n)
    (h : Concluded c untested (max n c.declaredPages) size once) (consistent : c.Consistent)
    (covered : c.Covered) (cacheSize : c.cacheSize = .int size) :
    ∃ again, c.restore.resolve untested pages = .done again ∧
      again.unlogged = once.unlogged := by
  have workable := consistent.workable
  obtain ⟨again, done, concluded⟩ := resolve_concluded (restore_consistent consistent)
    (restore_covered covered workable) ((restore_cacheSize c).trans cacheSize) untested announced
  rw [restore_declaredPages] at concluded
  have settings := restore_settings c
  refine ⟨again, done, unlogged_eq h concluded settings (restore_cacheSize c) ?_ ?_ ?_⟩
  · exact restore_capacityFor covered (by omega)
  · intro p
    rw [Collection.passing, Collection.passing, settings, restore_own? workable]
  · congr 1
    refine List.filterMap_congr fun p _ => ?_
    rw [Collection.failing, Collection.failing, settings, restore_own? workable]

/-- However a collection has come about, as long as no smaller number of pages was assigned: a
resolution succeeds; another one after it, or a restoration before it, makes no difference; and a
restoration after it undoes it, up to the first models that did not pass and for which the cache
had no room. -/
theorem resolve_cycles {c : Collection K} (h : Reachable Extending c) {size : Nat}
    (cacheSize : c.cacheSize = .int size) (untested : Bool) {pages : Value K} {n : Nat}
    (announced : Announces pages n) :
    ∃ once, c.resolve untested pages = .done once ∧
      (∃ twice, once.resolve untested pages = .done twice ∧ twice.unlogged = once.unlogged) ∧
      (∃ again, c.restore.resolve untested pages = .done again ∧
        again.unlogged = once.unlogged) ∧
      Undone c untested once.pageCount size once.restore := by
  have consistent := h.consistent
  have covered := h.covered_of_extending
  have workable := consistent.workable
  obtain ⟨once, done, concluded⟩ := resolve_concluded consistent covered cacheSize untested
    announced
  have kept := resolve_consistent consistent untested pages
  have within := resolve_covered consistent covered untested pages
  rw [done, Outcome.done_state] at kept within
  have below : ∀ p m, c.own? p = some m → p < max n c.declaredPages := by
    intro p m own
    have := own?_lt_declaredPages covered own
    omega
  refine ⟨once, done, ?_, ?_, ?_⟩
  · exact concluded.resolve_again announced consistent.toStocked workable covered kept within
      cacheSize
  · exact concluded.resolve_restored announced consistent covered cacheSize
  · rw [within.pageCount concluded.top, concluded.declaredPages]
    exact concluded.undone consistent.toStocked workable kept.workable below

end Checks

def narrowedCalls : List (Call Rat) :=
  [.insert (sheet 0 (.held .pending (PageModel.stillField .vertical))), .insert (sheet 2 .failed),
    .insert (sheet 4 .failed), .resolve false .null, .assign .cacheSize (.int 1)]

/-- The next resolution has no room for the first of them. -/
theorem narrowed_cycles :
    Reachable Extending (standardShelf.afterCalls narrowedCalls) ∧
      (standardShelf.afterCalls narrowedCalls).cachedPages = [2, 4] ∧
      (standardShelf.afterCalls narrowedCalls).cacheSize = .int (1 : Nat) ∧
      (standardShelf.afterCalls narrowedCalls).lostPages false 5 1 = [2] ∧
      Announces (.null : Value Rat) 0 ∧
      ∃ once, (standardShelf.afterCalls narrowedCalls).resolve false .null = .done once ∧
        (∃ twice, once.resolve false .null = .done twice ∧ twice.unlogged = once.unlogged) ∧
        (∃ again, (standardShelf.afterCalls narrowedCalls).restore.resolve false .null =
          .done again ∧ again.unlogged = once.unlogged) ∧
        Undone (standardShelf.afterCalls narrowedCalls) false once.pageCount 1 once.restore := by
  have reachable : Reachable Extending (standardShelf.afterCalls narrowedCalls) := by
    refine (standardShelf_reachable _).afterCalls ?_
    intro d a member
    simp only [narrowedCalls, List.mem_cons, List.not_mem_nil, or_false] at member
    rcases member with rfl | rfl | rfl | rfl | rfl <;> trivial
  exact ⟨reachable, by decide +kernel, rfl, by decide +kernel, .omitted,
    resolve_cycles reachable rfl false .omitted⟩

end Collection

end PageFlattening
