import Mathlib.Algebra.Group.Nat.Defs
import Mathlib.Tactic.Common
import PageFlattening.Collection.Resolution

/-! Storage as a map from pages to models. Every operation on the slots is described by what it does
to `slot?`; what it leaves alone is collected in `SameLedger`. The highest page and the two page
lists are views of the slots: `Top` and `Listed` say which, and bringing them up to date makes both
hold whatever the slots are. -/
namespace PageFlattening

namespace Collection

variable {K : Type}

theorem slot?_eq_none_of_le {c : Collection K} {p : Nat} (h : c.capacity ≤ p) :
    c.slot? p = none := by
  have beyond : ¬ p < c.slots.size := Nat.not_lt.mpr h
  simp [slot?, Array.getD, beyond]

theorem lt_capacity_of_isSome {c : Collection K} {p : Nat} (h : (c.slot? p).isSome) :
    p < c.capacity := by
  by_contra away
  rw [slot?_eq_none_of_le (Nat.not_lt.mp away)] at h
  simp at h

@[simp] theorem empty_slot? (settings : Settings) (cacheSize p : Nat) :
    (empty settings cacheSize : Collection K).slot? p = none := by
  rw [slot?, empty, Array.getD_eq_getD_getElem?, Array.getElem?_replicate]
  split <;> rfl

/-- Two states with the same settings, bounds, page lists and readiness: they differ at most in
their slots, their cache and the log of what has left. -/
structure SameLedger (c d : Collection K) : Prop where
  settings : d.settings = c.settings
  cacheSize : d.cacheSize = c.cacheSize
  maxPage : d.maxPage = c.maxPage
  declaredPages : d.declaredPages = c.declaredPages
  builtPages : d.builtPages = c.builtPages
  heldPages : d.heldPages = c.heldPages
  ready : d.ready = c.ready

theorem SameLedger.refl (c : Collection K) : SameLedger c c := ⟨rfl, rfl, rfl, rfl, rfl, rfl, rfl⟩

theorem SameLedger.trans {a b c : Collection K} (h : SameLedger a b) (g : SameLedger b c) :
    SameLedger a c where
  settings := g.settings.trans h.settings
  cacheSize := g.cacheSize.trans h.cacheSize
  maxPage := g.maxPage.trans h.maxPage
  declaredPages := g.declaredPages.trans h.declaredPages
  builtPages := g.builtPages.trans h.builtPages
  heldPages := g.heldPages.trans h.heldPages
  ready := g.ready.trans h.ready

theorem SameLedger.pageCount {c d : Collection K} (h : SameLedger c d) :
    d.pageCount = c.pageCount := by
  rw [Collection.pageCount, Collection.pageCount, h.declaredPages, h.maxPage]

/-! Putting into a slot, making room, and noting departures. -/

theorem setSlot_ledger (c : Collection K) (p : Nat) (m : Option (PageModel K)) :
    SameLedger c (c.setSlot p m) := ⟨rfl, rfl, rfl, rfl, rfl, rfl, rfl⟩

@[simp] theorem setSlot_cache (c : Collection K) (p : Nat) (m : Option (PageModel K)) :
    (c.setSlot p m).cache = c.cache := rfl

@[simp] theorem setSlot_capacity (c : Collection K) (p : Nat) (m : Option (PageModel K)) :
    (c.setSlot p m).capacity = c.capacity := by
  simp [setSlot, capacity]

theorem setSlot_slot? (c : Collection K) (p q : Nat) (m : Option (PageModel K)) :
    (c.setSlot p m).slot? q = if q = p ∧ p < c.capacity then m else c.slot? q := by
  simp only [setSlot, slot?, capacity, Array.getD_eq_getD_getElem?,
    Array.getElem?_setIfInBounds]
  by_cases same : p = q
  · subst same
    by_cases room : p < c.slots.size <;> simp [room]
  · simp [same, Ne.symm same]

theorem setSlot_slot?_of_lt {c : Collection K} {p : Nat} (h : p < c.capacity) (q : Nat)
    (m : Option (PageModel K)) :
    (c.setSlot p m).slot? q = if q = p then m else c.slot? q := by
  rw [setSlot_slot?]
  simp [h]

theorem setSlot_none_slot? (c : Collection K) (p q : Nat) :
    (c.setSlot p none).slot? q = if q = p then none else c.slot? q := by
  rw [setSlot_slot?]
  by_cases room : p < c.capacity
  · simp [room]
  · by_cases same : q = p
    · simp [same, room, slot?_eq_none_of_le (Nat.not_lt.mp room)]
    · simp [same]

theorem release_ledger (c : Collection K) (m : PageModel K) : SameLedger c (c.release m) :=
  ⟨rfl, rfl, rfl, rfl, rfl, rfl, rfl⟩

@[simp] theorem release_cache (c : Collection K) (m : PageModel K) :
    (c.release m).cache = c.cache := rfl

@[simp] theorem release_capacity (c : Collection K) (m : PageModel K) :
    (c.release m).capacity = c.capacity := rfl

@[simp] theorem release_slot? (c : Collection K) (m : PageModel K) (q : Nat) :
    (c.release m).slot? q = c.slot? q := rfl

theorem le_capacityFor (size page : Nat) : size ≤ capacityFor size page := by
  fun_induction capacityFor size page with
  | case1 => exact Nat.le_refl _
  | case2 size _ ih => omega

theorem lt_capacityFor {size : Nat} (h : 0 < size) (page : Nat) : page < capacityFor size page := by
  fun_induction capacityFor size page with
  | case1 size stop => omega
  | case2 size _ ih => exact ih (by omega)

theorem capacityFor_eq_mul_pow (size page : Nat) : ∃ k, capacityFor size page = size * 2 ^ k := by
  fun_induction capacityFor size page with
  | case1 size => exact ⟨0, by simp⟩
  | case2 size _ ih =>
      obtain ⟨k, hk⟩ := ih
      exact ⟨k + 1, by rw [hk, Nat.pow_succ, Nat.mul_comm 2 size, Nat.mul_assoc, Nat.mul_comm 2]⟩

theorem reserve_ledger (c : Collection K) (p : Nat) : SameLedger c (c.reserve p) :=
  ⟨rfl, rfl, rfl, rfl, rfl, rfl, rfl⟩

@[simp] theorem reserve_cache (c : Collection K) (p : Nat) : (c.reserve p).cache = c.cache := rfl

@[simp] theorem reserve_capacity (c : Collection K) (p : Nat) :
    (c.reserve p).capacity = capacityFor c.capacity p := by
  have grown := le_capacityFor c.capacity p
  simp only [reserve, capacity, Array.size_append, Array.size_replicate] at grown ⊢
  omega

@[simp] theorem reserve_slot? (c : Collection K) (p q : Nat) :
    (c.reserve p).slot? q = c.slot? q := by
  simp only [reserve, slot?, Array.getD_eq_getD_getElem?, Array.getElem?_append]
  split
  · rfl
  · rename_i beyond
    rw [Array.getElem?_eq_none (Nat.not_lt.mp beyond), Array.getElem?_replicate]
    split <;> rfl

/-! The highest page. -/

theorem le_highest {slots : Array (Option (PageModel K))} {n p : Nat} (h : p < n)
    (occupied : (slots.getD p none).isSome) : (p : Int) ≤ highest slots n := by
  induction n with
  | zero => omega
  | succ n ih =>
      rw [highest]
      split
      · omega
      · rename_i empty
        have below : p ≠ n := by
          rintro rfl
          exact empty occupied
        exact ih (by omega)

theorem highest_occupied (slots : Array (Option (PageModel K))) (n : Nat) :
    highest slots n = -1 ∨ ∃ p : Nat, highest slots n = p ∧ (slots.getD p none).isSome := by
  induction n with
  | zero => exact Or.inl rfl
  | succ n ih =>
      rw [highest]
      split
      · rename_i occupied
        exact Or.inr ⟨n, rfl, occupied⟩
      · exact ih

structure Top (c : Collection K) (top : Int) : Prop where
  above : ∀ p : Nat, (c.slot? p).isSome → (p : Int) ≤ top
  attained : top = -1 ∨ ∃ p : Nat, top = p ∧ (c.slot? p).isSome

theorem refreshMaxPage_top (c : Collection K) :
    Top c.refreshMaxPage c.refreshMaxPage.maxPage where
  above _ occupied := le_highest (lt_capacity_of_isSome occupied) occupied
  attained := highest_occupied c.slots c.slots.size

theorem Top.neg_one_le {c : Collection K} {top : Int} (h : Top c top) : -1 ≤ top := by
  rcases h.attained with none | ⟨p, hp, _⟩ <;> omega

theorem Top.lt_capacity {c : Collection K} {top : Int} (h : Top c top) : top < c.capacity := by
  rcases h.attained with none | ⟨p, hp, occupied⟩
  · omega
  · have := lt_capacity_of_isSome occupied
    omega

theorem Top.congr {c d : Collection K} {top : Int} (h : Top c top)
    (same : ∀ p, (d.slot? p).isSome = (c.slot? p).isSome) : Top d top where
  above p occupied := h.above p (by rwa [← same])
  attained := by
    rcases h.attained with none | ⟨p, hp, occupied⟩
    · exact Or.inl none
    · exact Or.inr ⟨p, hp, by rwa [same]⟩

theorem Top.le_iff {c : Collection K} {top : Int} (h : Top c top) (p : Nat) :
    (p : Int) ≤ top ↔ ∃ q, p ≤ q ∧ (c.slot? q).isSome := by
  constructor
  · intro below
    rcases h.attained with none | ⟨q, hq, occupied⟩
    · omega
    · exact ⟨q, by omega, occupied⟩
  · rintro ⟨q, le, occupied⟩
    have := h.above q occupied
    omega

theorem refreshMaxPage_slot? (c : Collection K) (p : Nat) :
    c.refreshMaxPage.slot? p = c.slot? p := rfl

/-! The page lists. -/

structure Listed (c : Collection K) : Prop where
  held_sorted : c.heldPages.Pairwise (· < ·)
  mem_held : ∀ p, p ∈ c.heldPages ↔ (c.slot? p).isSome
  built_sorted : c.builtPages.Pairwise (· < ·)
  mem_built : ∀ p, p ∈ c.builtPages ↔ ∃ m, c.slot? p = some m ∧ m.isRedirect = false

theorem holdsBuilt_iff (c : Collection K) (p : Nat) :
    c.holdsBuilt p = true ↔ ∃ m, c.slot? p = some m ∧ m.isRedirect = false := by
  rw [holdsBuilt]
  cases c.slot? p with
  | none => simp
  | some m => simp

theorem span_sorted (c : Collection K) : c.span.Pairwise (· < ·) := List.pairwise_lt_range

theorem span_nodup (c : Collection K) : c.span.Nodup := List.nodup_range

theorem mem_span_of_isSome {c : Collection K} (h : Top c c.maxPage) {p : Nat}
    (occupied : (c.slot? p).isSome) : p ∈ c.span := by
  have := h.above p occupied
  rw [span, List.mem_range]
  omega

theorem refreshLists_listed {c : Collection K} (h : Top c c.maxPage) : Listed c.refreshLists where
  held_sorted := (span_sorted c).filter _
  mem_held p := by
    have inside : (c.slot? p).isSome → p ∈ c.span := mem_span_of_isSome h
    simpa [refreshLists, slot?] using inside
  built_sorted := (span_sorted c).filter _
  mem_built p := by
    rw [← holdsBuilt_iff]
    have inside : c.holdsBuilt p = true → p ∈ c.span := by
      intro built
      obtain ⟨m, held, _⟩ := (holdsBuilt_iff c p).mp built
      exact mem_span_of_isSome h (by simp [held])
    change p ∈ c.span.filter c.holdsBuilt ↔ c.holdsBuilt p = true
    simpa using inside

theorem refresh_top (c : Collection K) :
    Top c.refreshMaxPage.refreshLists c.refreshMaxPage.refreshLists.maxPage :=
  (refreshMaxPage_top c).congr fun _ => rfl

theorem Listed.congr {c d : Collection K} (h : Listed c) (held : d.heldPages = c.heldPages)
    (built : d.builtPages = c.builtPages)
    (same : ∀ p, (d.slot? p).map (·.isRedirect) = (c.slot? p).map (·.isRedirect)) : Listed d where
  held_sorted := by
    rw [held]
    exact h.held_sorted
  mem_held p := by
    rw [held, h.mem_held, ← Option.isSome_map, ← same, Option.isSome_map]
  built_sorted := by
    rw [built]
    exact h.built_sorted
  mem_built p := by
    rw [built, h.mem_built, ← Option.map_eq_some_iff, ← same, Option.map_eq_some_iff]

theorem refresh_listed (c : Collection K) : Listed c.refreshMaxPage.refreshLists :=
  refreshLists_listed (refreshMaxPage_top c)

end Collection

end PageFlattening
