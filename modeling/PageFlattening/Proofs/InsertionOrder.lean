import PageFlattening.Proofs.Serving

/-!
Models for different pages may be inserted in any order. Two insertions that follow each other can
change places: each takes its own slot and its own entry of the cache, and what both of them raise,
capacity, highest page and announced pages, is raised to a maximum. Only the log of what has left
the collection is written in another order.
-/
namespace PageFlattening

namespace Collection

variable {K : Type}

/-! One insertion. -/

def leaving (c : Collection K) (m : PageModel K) : List (PageModel K) :=
  ((c.cached? m.page).toList.filter fun old => !sameModel old m) ++
    ((c.slot? m.page).toList.filter fun old => !sameModel old m).map
      fun old => { old with attached := false }

theorem vacate_departed (c : Collection K) (m : PageModel K) :
    (c.vacate m).departed = c.leaving m ++ c.departed := by
  unfold vacate leaving
  cases c.cached? m.page with
  | none =>
      cases c.slot? m.page with
      | none => rfl
      | some old => by_cases same : sameModel old m = true <;> simp [same, release]
  | some set =>
      by_cases again : sameModel set m = true <;> cases c.slot? m.page with
      | none => simp [again]
      | some old => by_cases same : sameModel old m = true <;> simp [again, same, release]

def shelved (c : Collection K) (m : PageModel K) : Collection K :=
  ((c.placed m).setSlot m.page (some (c.entered m))).refreshLists

theorem shelved_departed (c : Collection K) (m : PageModel K) :
    (c.shelved m).departed = c.leaving m ++ c.departed := by
  change ((c.reserve m.page).vacate m).departed = _
  rw [vacate_departed, leaving, leaving, reserve_slot?]
  rfl

theorem Inserted.refreshLists {c d : Collection K} {m : PageModel K} (h : Inserted c m d) :
    Inserted c m d.refreshLists :=
  ⟨h.settings, h.cacheSize, h.ready, h.capacity, h.slot?, h.cache, h.maxPage, h.declaredPages⟩

theorem shelved_inserted {c : Collection K} (room : 0 < c.capacity) (m : PageModel K) :
    Inserted c m (c.shelved m) :=
  (placed_inserted room m).refreshLists

theorem shelved_room {c : Collection K} (room : 0 < c.capacity) (m : PageModel K) :
    0 < (c.shelved m).capacity := by
  rw [(shelved_inserted room m).capacity]
  exact Nat.lt_of_lt_of_le room (le_capacityFor _ _)

theorem refreshLists_unlogged {c d : Collection K} (settings : d.settings = c.settings)
    (cacheSize : d.cacheSize = c.cacheSize) (ready : d.ready = c.ready)
    (capacity : d.capacity = c.capacity) (slot? : ∀ q, d.slot? q = c.slot? q)
    (cache : d.cache = c.cache) (maxPage : d.maxPage = c.maxPage)
    (declaredPages : d.declaredPages = c.declaredPages) :
    d.refreshLists.unlogged = c.refreshLists.unlogged := by
  have slots := slots_eq capacity slot?
  have built : d.holdsBuilt = c.holdsBuilt := by
    funext p
    rw [holdsBuilt, holdsBuilt, slot?]
  simp only [unlogged, refreshLists, span, settings, cacheSize, ready, slots, cache, maxPage,
    declaredPages, slot?, built]

theorem entered_congr {c d : Collection K} (settings : d.settings = c.settings)
    (ready : d.ready = c.ready) (m : PageModel K) : d.entered m = c.entered m := by
  rw [entered, entered, settings, ready]

theorem leaving_congr {c d : Collection K} {m : PageModel K}
    (slot? : d.slot? m.page = c.slot? m.page) (cached? : d.cached? m.page = c.cached? m.page) :
    d.leaving m = c.leaving m := by
  rw [leaving, leaving, slot?, cached?]

/-! Two insertions. -/

structure Reordered (c d : Collection K) : Prop where
  unlogged : d.unlogged = c.unlogged
  departed : d.departed.Perm c.departed

namespace Reordered

variable {c d e : Collection K}

theorem refl (c : Collection K) : Reordered c c := ⟨rfl, .refl _⟩

theorem trans (h : Reordered c d) (g : Reordered d e) : Reordered c e :=
  ⟨g.unlogged.trans h.unlogged, g.departed.trans h.departed⟩

theorem eq (h : Reordered c d) : d = { c with departed := d.departed } := by
  calc d = { d.unlogged with departed := d.departed } := rfl
    _ = { c.unlogged with departed := d.departed } := by rw [h.unlogged]

theorem settings (h : Reordered c d) : d.settings = c.settings := by rw [h.eq]

theorem ready (h : Reordered c d) : d.ready = c.ready := by rw [h.eq]

theorem cache (h : Reordered c d) : d.cache = c.cache := by rw [h.eq]

theorem slots (h : Reordered c d) : d.slots = c.slots := by rw [h.eq]

theorem capacity (h : Reordered c d) : d.capacity = c.capacity := by
  rw [Collection.capacity, h.slots, Collection.capacity]

theorem slot? (h : Reordered c d) (p : Nat) : d.slot? p = c.slot? p := by
  rw [Collection.slot?, h.slots, Collection.slot?]

theorem shelved (h : Reordered c d) (room : 0 < c.capacity) (m : PageModel K) :
    Reordered (c.shelved m) (d.shelved m) := by
  have left := placed_inserted room m
  have right := placed_inserted (h.capacity ▸ room) m
  constructor
  · apply refreshLists_unlogged
    · rw [right.settings, left.settings, h.settings]
    · rw [right.cacheSize, left.cacheSize]
      rw [h.eq]
    · rw [right.ready, left.ready, h.ready]
    · rw [right.capacity, left.capacity, h.capacity]
    · intro q
      rw [right.slot?, left.slot?, h.slot?, entered_congr h.settings h.ready]
    · rw [right.cache, left.cache, uncached, uncached, h.cache]
    · rw [right.maxPage, left.maxPage]
      rw [h.eq]
    · rw [right.declaredPages, left.declaredPages]
      rw [h.eq]
  · have leaves : d.leaving m = c.leaving m := by
      apply leaving_congr (h.slot? m.page)
      rw [cached?, h.cache, cached?]
    rw [shelved_departed, shelved_departed, leaves]
    exact h.departed.append_left _

end Reordered

theorem capacityFor_comm (size p q : Nat) :
    capacityFor (capacityFor size p) q = capacityFor (capacityFor size q) p := by
  have settled : ∀ {r s : Nat}, r ≤ s →
      capacityFor (capacityFor size s) r = capacityFor size s := by
    intro r s below
    rw [capacityFor.eq_def (capacityFor size s) r, if_pos]
    rcases Nat.eq_zero_or_pos size with rfl | room
    · right
      rw [capacityFor.eq_def, if_pos (Or.inr rfl)]
    · left
      exact Nat.lt_of_le_of_lt below (lt_capacityFor room s)
  rcases Nat.le_total p q with below | below
  · rw [capacityFor_capacityFor below, settled below]
  · rw [settled below, capacityFor_capacityFor below]

theorem shelved_comm {c : Collection K} (room : 0 < c.capacity) {m n : PageModel K}
    (apart : m.page ≠ n.page) :
    Reordered ((c.shelved m).shelved n) ((c.shelved n).shelved m) := by
  have first := shelved_inserted room m
  have first' := shelved_inserted room n
  have second := placed_inserted (shelved_room room m) n
  have second' := placed_inserted (shelved_room room n) m
  constructor
  · apply refreshLists_unlogged
    · rw [second.settings, first.settings, second'.settings, first'.settings]
    · rw [second.cacheSize, first.cacheSize, second'.cacheSize, first'.cacheSize]
    · rw [second.ready, first.ready, second'.ready, first'.ready]
    · rw [second.capacity, first.capacity, second'.capacity, first'.capacity, capacityFor_comm]
    · intro q
      rw [second.slot?, first.slot?, second'.slot?, first'.slot?,
        entered_congr first.settings first.ready, entered_congr first'.settings first'.ready]
      by_cases here : q = m.page
      · simp [here, apart]
      · simp [here]
    · rw [second.cache, second'.cache, uncached, uncached, first.cache, first'.cache, uncached,
        uncached, List.filter_comm]
    · rw [second.maxPage, first.maxPage, second'.maxPage, first'.maxPage]
      omega
    · rw [second.declaredPages, first.declaredPages, second'.declaredPages, first'.declaredPages]
      omega
  · -- What the second insertion finds for its page the first one has not touched.
    have leaves : (c.shelved m).leaving n = c.leaving n := by
      apply leaving_congr
      · rw [first.slot?, if_neg apart.symm]
      · exact cached?_uncached first.cache apart.symm
    have leaves' : (c.shelved n).leaving m = c.leaving m := by
      apply leaving_congr
      · rw [first'.slot?, if_neg apart]
      · exact cached?_uncached first'.cache apart
    rw [shelved_departed, shelved_departed, shelved_departed, shelved_departed, leaves, leaves',
      ← List.append_assoc, ← List.append_assoc]
    exact List.perm_append_comm.append_right _

/-! Any number of insertions. -/

theorem foldl_shelved_congr {c d : Collection K} (h : Reordered c d) (room : 0 < c.capacity)
    (models : List (PageModel K)) :
    Reordered (models.foldl shelved c) (models.foldl shelved d) := by
  induction models generalizing c d with
  | nil => exact h
  | cons m rest ih => exact ih (h.shelved room m) (shelved_room room m)

theorem foldl_shelved_perm {c : Collection K} (room : 0 < c.capacity)
    {models others : List (PageModel K)} (order : models.Perm others)
    (distinct : (models.map (·.page)).Nodup) :
    Reordered (models.foldl shelved c) (others.foldl shelved c) := by
  induction order generalizing c with
  | nil => exact .refl c
  | cons m _ ih =>
      rw [List.map_cons, List.nodup_cons] at distinct
      rw [List.foldl_cons, List.foldl_cons]
      exact ih (shelved_room room m) distinct.2
  | swap m n rest =>
      rw [List.map_cons, List.map_cons, List.nodup_cons, List.mem_cons, not_or] at distinct
      have kept := shelved_room (shelved_room room n) m
      simp only [List.foldl_cons]
      exact foldl_shelved_congr (shelved_comm room distinct.1.1) kept rest
  | trans first _ ih ih' =>
      have distinct' := (first.map (·.page)).nodup_iff.mp distinct
      exact (ih room distinct).trans (ih' room distinct')

theorem foldl_shelved_slot?_of_ne {c : Collection K} (room : 0 < c.capacity)
    {models : List (PageModel K)} {q : Nat} (away : ∀ m ∈ models, q ≠ m.page) :
    (models.foldl shelved c).slot? q = c.slot? q := by
  induction models generalizing c with
  | nil => rfl
  | cons m rest ih =>
      rw [List.forall_mem_cons] at away
      rw [List.foldl_cons, ih (shelved_room room m) away.2, (shelved_inserted room m).slot?,
        if_neg away.1]

theorem foldl_shelved_slot? {c : Collection K} (room : 0 < c.capacity)
    {models : List (PageModel K)} (distinct : (models.map (·.page)).Nodup) {m : PageModel K}
    (member : m ∈ models) : (models.foldl shelved c).slot? m.page = some (c.entered m) := by
  induction models generalizing c with
  | nil => cases member
  | cons n rest ih =>
      rw [List.map_cons, List.nodup_cons] at distinct
      have inserted := shelved_inserted room n
      rw [List.foldl_cons]
      rcases List.mem_cons.mp member with rfl | later
      · have away : ∀ other ∈ rest, m.page ≠ other.page := by
          intro other member same
          exact distinct.1 (same ▸ List.mem_map_of_mem member)
        rw [foldl_shelved_slot?_of_ne (shelved_room room m) away, inserted.slot?, if_pos rfl]
      · rw [ih (shelved_room room n) distinct.2 later,
          entered_congr inserted.settings inserted.ready]

theorem each_insert {c : Collection K} (room : 0 < c.capacity) {models : List (PageModel K)}
    (own : ∀ m ∈ models, m.stride = c.settings.build.stride ∧
      m.reduction = c.settings.build.reduction) :
    Outcome.each insert c models = .done (models.foldl shelved c) := by
  induction models generalizing c with
  | nil => rfl
  | cons m rest ih =>
      rw [List.forall_mem_cons] at own
      have settings := (shelved_inserted room m).settings
      rw [Outcome.each_cons_of_done (insert_eq own.1.1 own.1.2), List.foldl_cons]
      apply ih (shelved_room room m)
      rw [settings]
      exact own.2

/-- Models for different pages come to the same collection in whatever order they are inserted,
resolved or not: the same slots, cache, bounds and page lists. Only the log is permuted. -/
theorem each_insert_perm {c : Collection K} (room : 0 < c.capacity)
    {models others : List (PageModel K)} (order : models.Perm others)
    (distinct : (models.map (·.page)).Nodup)
    (own : ∀ m ∈ models, m.stride = c.settings.build.stride ∧
      m.reduction = c.settings.build.reduction) :
    ∃ d e, Outcome.each insert c models = .done d ∧ Outcome.each insert c others = .done e ∧
      e.unlogged = d.unlogged ∧ e.departed.Perm d.departed ∧
      ∀ m ∈ models, d.slot? m.page = some (c.entered m) := by
  have own' : ∀ m ∈ others, m.stride = c.settings.build.stride ∧
      m.reduction = c.settings.build.reduction := fun m member => own m (order.mem_iff.mpr member)
  have reordered := foldl_shelved_perm room order distinct
  refine ⟨_, _, each_insert room own, each_insert room own', reordered.unlogged,
    reordered.departed, ?_⟩
  intro m member
  exact foldl_shelved_slot? room distinct member

/-- A page that was set aside is built anew, one beyond the storage fails, and so does the first,
which others are redirected to. -/
def lateSheets : List (PageModel Rat) :=
  [sheet 4 (.held .pending (PageModel.stillField .vertical)), sheet 20 .failed, sheet 0 .failed]

theorem lateSheets_perm :
    (standardShelf.afterCalls bookletCalls).ready = true ∧
      (standardShelf.afterCalls bookletCalls).cachedPages = [4] ∧
      ∃ d e, Outcome.each insert (standardShelf.afterCalls bookletCalls) lateSheets = .done d ∧
        Outcome.each insert (standardShelf.afterCalls bookletCalls) lateSheets.reverse = .done e ∧
        e.unlogged = d.unlogged ∧ e.departed.Perm d.departed ∧
        ∀ m ∈ lateSheets, d.slot? m.page =
          some ((standardShelf.afterCalls bookletCalls).entered m) :=
  ⟨by decide +kernel, by decide +kernel,
    each_insert_perm (by decide +kernel) (List.reverse_perm _).symm (by decide) (by decide +kernel)⟩

end Collection

end PageFlattening
