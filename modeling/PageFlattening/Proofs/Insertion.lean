import PageFlattening.Proofs.Passes

/-! Inserting and removing single models: what each does to the slots and to the cache. -/
namespace PageFlattening

namespace Collection

variable {K : Type}

theorem mem_uncached {c : Collection K} {page : Int} {m : PageModel K} :
    m ∈ c.uncached page ↔ m ∈ c.cache ∧ (m.page : Int) ≠ page := by
  simp [uncached]

theorem vacate_ledger (c : Collection K) (m : PageModel K) : SameLedger c (c.vacate m) := by
  simp only [vacate]
  cases c.slot? m.page with
  | none => exact ⟨rfl, rfl, rfl, rfl, rfl, rfl, rfl⟩
  | some old =>
      by_cases same : sameModel old m = true
      · simp only [same, if_true]
        exact ⟨rfl, rfl, rfl, rfl, rfl, rfl, rfl⟩
      · simp only [same]
        exact ⟨rfl, rfl, rfl, rfl, rfl, rfl, rfl⟩

theorem vacate_slots (c : Collection K) (m : PageModel K) : (c.vacate m).slots = c.slots := by
  simp only [vacate]
  cases c.slot? m.page with
  | none => rfl
  | some old => by_cases same : sameModel old m = true <;> simp [same, release]

theorem vacate_slot? (c : Collection K) (m : PageModel K) (q : Nat) :
    (c.vacate m).slot? q = c.slot? q := by
  rw [slot?, vacate_slots, slot?]

theorem vacate_capacity (c : Collection K) (m : PageModel K) :
    (c.vacate m).capacity = c.capacity := by
  rw [capacity, vacate_slots, capacity]

theorem vacate_cache (c : Collection K) (m : PageModel K) :
    (c.vacate m).cache = c.uncached m.page := rfl

def entered (c : Collection K) (m : PageModel K) : PageModel K :=
  if c.ready && !m.isRedirect then m.adopted.judged c.settings.thresholds false else m.adopted

@[simp] theorem entered_page (c : Collection K) (m : PageModel K) :
    (c.entered m).page = m.page := by
  rw [entered]
  split
  · rw [PageModel.judged_page, PageModel.adopted]
  · rfl

@[simp] theorem entered_stride (c : Collection K) (m : PageModel K) :
    (c.entered m).stride = m.stride := by
  rw [entered]
  split
  · rw [PageModel.judged_stride, PageModel.adopted]
  · rfl

@[simp] theorem entered_reduction (c : Collection K) (m : PageModel K) :
    (c.entered m).reduction = m.reduction := by
  rw [entered]
  split
  · rw [PageModel.judged_reduction, PageModel.adopted]
  · rfl

@[simp] theorem entered_attached (c : Collection K) (m : PageModel K) :
    (c.entered m).attached = true := by
  rw [entered]
  split
  · rw [PageModel.judged_attached, PageModel.adopted]
  · rfl

structure Inserted (c : Collection K) (m : PageModel K) (d : Collection K) : Prop where
  settings : d.settings = c.settings
  cacheSize : d.cacheSize = c.cacheSize
  ready : d.ready = c.ready
  capacity : d.capacity = capacityFor c.capacity m.page
  slot? : ∀ q, d.slot? q = if q = m.page then some (c.entered m) else c.slot? q
  cache : d.cache = c.uncached m.page
  maxPage : d.maxPage = max c.maxPage m.page
  declaredPages : d.declaredPages = max c.declaredPages (m.page + 1)

def placed (c : Collection K) (m : PageModel K) : Collection K :=
  { ((c.reserve m.page).vacate m).setSlot m.page (some m.adopted) with
    maxPage := max ((c.reserve m.page).vacate m).maxPage m.page
    declaredPages := max ((c.reserve m.page).vacate m).declaredPages (m.page + 1) }

theorem placed_slots (c : Collection K) (m : PageModel K) :
    (c.placed m).slots =
      (((c.reserve m.page).vacate m).setSlot m.page (some m.adopted)).slots := by
  unfold placed
  rfl

theorem placed_capacity (c : Collection K) (m : PageModel K) :
    (c.placed m).capacity = capacityFor c.capacity m.page := by
  rw [capacity, placed_slots, ← capacity, setSlot_capacity, vacate_capacity, reserve_capacity]

theorem placed_slot?_of_ne (c : Collection K) (m : PageModel K) {q : Nat} (h : q ≠ m.page) :
    (c.placed m).slot? q = c.slot? q := by
  rw [slot?, placed_slots, ← slot?, setSlot_slot?, if_neg fun here => h here.1, vacate_slot?,
    reserve_slot?]

theorem insert_eq {c : Collection K} {m : PageModel K} (stride : m.stride = c.settings.build.stride)
    (reduction : m.reduction = c.settings.build.reduction) :
    c.insert m = .done ((c.placed m).setSlot m.page (some (c.entered m))).refreshLists := by
  have own : ¬ (m.stride ≠ c.settings.build.stride ∨ m.reduction ≠ c.settings.build.reduction) := by
    simp [stride, reduction]
  have checked : (if (c.ready && !m.isRedirect) = true
      then PageModel.validate { m with attached := true } c.settings.thresholds false
      else .done { m with attached := true }) = .done (c.entered m) := by
    rw [entered, PageModel.validate_eq]
    split <;> rfl
  simp only [insert, if_neg own]
  rw [checked]
  rfl

theorem placed_inserted {c : Collection K} (room : 0 < c.capacity) (m : PageModel K) :
    Inserted c m ((c.placed m).setSlot m.page (some (c.entered m))) := by
  have vacated := (reserve_ledger c m.page).trans (vacate_ledger (c.reserve m.page) m)
  have filled := vacated.trans (setSlot_ledger _ m.page (some m.adopted))
  have checked := setSlot_ledger (c.placed m) m.page (some (c.entered m))
  have inside : m.page < (c.placed m).capacity := by
    rw [placed_capacity]
    exact lt_capacityFor room m.page
  exact {
    settings := by
      rw [checked.settings]
      unfold placed
      exact filled.settings
    cacheSize := by
      rw [checked.cacheSize]
      unfold placed
      exact filled.cacheSize
    ready := by
      rw [checked.ready]
      unfold placed
      exact filled.ready
    capacity := by rw [setSlot_capacity, placed_capacity]
    slot? := fun q => by
      rw [setSlot_slot?_of_lt inside]
      split
      · rfl
      · rename_i away
        exact placed_slot?_of_ne c m away
    cache := by
      rw [setSlot_cache]
      unfold placed
      exact vacate_cache (c.reserve m.page) m
    maxPage := by
      rw [checked.maxPage]
      unfold placed
      dsimp only
      rw [vacated.maxPage]
    declaredPages := by
      rw [checked.declaredPages]
      unfold placed
      dsimp only
      rw [vacated.declaredPages] }

/-- A model of a foreign grid is refused and changes nothing; any other is inserted. -/
theorem insert_cases {c : Collection K} (room : 0 < c.capacity) (m : PageModel K) :
    ((c.insert m).state = c ∧ (c.insert m).fault ≠ none) ∨
    (m.stride = c.settings.build.stride ∧ m.reduction = c.settings.build.reduction ∧
      ∃ d, Inserted c m d ∧ c.insert m = .done d.refreshLists) := by
  by_cases foreign : m.stride ≠ c.settings.build.stride ∨ m.reduction ≠ c.settings.build.reduction
  · left
    simp [insert, foreign]
  · right
    have own := not_or.mp foreign
    have stride := not_not.mp own.1
    have reduction := not_not.mp own.2
    exact ⟨stride, reduction, _, placed_inserted room m, insert_eq stride reduction⟩

/-! Removing a model, and consulting the cache. -/

theorem uncached_eq_of_cached?_eq_none {c : Collection K} {page : Int}
    (h : c.cached? page = none) : c.uncached page = c.cache := by
  rw [cached?, List.find?_eq_none] at h
  rw [uncached, List.filter_eq_self]
  intro m member
  simpa using h m member

theorem model?_eq_slot? (c : Collection K) (p : Nat) (below : (p : Int) ≤ c.maxPage) :
    c.model? p = c.slot? p := by
  have inside : ¬ ((p : Int) < 0 ∨ c.maxPage < p) := by omega
  rw [model?, if_neg inside, Int.toNat_natCast]

theorem slot?_of_model? {c : Collection K} {page : Int} {m : PageModel K}
    (h : c.model? page = some m) : 0 ≤ page ∧ c.slot? page.toNat = some m := by
  rw [model?] at h
  split at h
  · cases h
  · rename_i inside
    exact ⟨by omega, h⟩

/-- A removal takes one model out of storage, or one out of the cache, or none, and then brings the
highest page and the lists up to date. -/
theorem remove_cases (c : Collection K) (page : Int) :
    ∃ d : Collection K, (c.remove page).2 = d.refreshMaxPage.refreshLists ∧ SameLedger c d ∧
      d.capacity = c.capacity ∧
      (∀ q : Nat, d.slot? q =
        if (q : Int) = page ∧ (q : Int) ≤ c.maxPage then none else c.slot? q) ∧
      d.cache = if (c.model? page).isSome then c.cache else c.uncached page := by
  rw [remove]
  cases stored : c.model? page with
  | some m =>
      have inside : ¬ (page < 0 ∨ c.maxPage < page) := by
        intro outside
        simp [model?, outside] at stored
      refine ⟨(c.setSlot page.toNat none).release m, rfl,
        (setSlot_ledger c _ _).trans (release_ledger _ _), by simp, fun q => ?_, by simp⟩
      have same : q = page.toNat ↔ (q : Int) = page ∧ (q : Int) ≤ c.maxPage := by omega
      rw [release_slot?, setSlot_none_slot?]
      simp only [same]
  | none =>
      -- Storage stays as it is: the slot of the page is empty already, or beyond the highest page.
      have vacant : ∀ q : Nat, c.slot? q =
          if (q : Int) = page ∧ (q : Int) ≤ c.maxPage then none else c.slot? q := by
        intro q
        split
        · rename_i here
          obtain ⟨rfl, below⟩ := here
          rw [← model?_eq_slot? c q below, stored]
        · rfl
      cases found : c.cached? page with
      | some m =>
          exact ⟨{ c with cache := c.uncached page }.release m, rfl,
            ⟨rfl, rfl, rfl, rfl, rfl, rfl, rfl⟩, rfl, vacant, by simp⟩
      | none =>
          exact ⟨c, rfl, SameLedger.refl c, rfl, vacant,
            by simp [uncached_eq_of_cached?_eq_none found]⟩

theorem consult_cases (c : Collection K) (page : Int) :
    (c.consult page).2 = c ∨
      ∃ m ∈ c.cache, (c.consult page).2 = { c with cache := c.uncached m.page ++ [m] } := by
  rw [consult]
  cases found : c.cached? page with
  | none => exact Or.inl rfl
  | some m =>
      obtain ⟨member, same⟩ := mem_cache_of_cached? found
      exact Or.inr ⟨m, member, by rw [same]⟩

end Collection

end PageFlattening
