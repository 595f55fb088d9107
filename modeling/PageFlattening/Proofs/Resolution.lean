import PageFlattening.Proofs.Representation

/-! What resolving references comes to. As long as the number of pages is never assigned a smaller
one, every page that is held lies within it (`Covered`), and a resolution is then determined by the
built models that are held: a page keeps its own model exactly if it qualifies, and otherwise
borrows that of its donor. -/
namespace PageFlattening

namespace Collection

variable {K : Type}

/-! The pages that are held. -/

def Holds (c : Collection K) (page : Nat) : Prop :=
  (c.slot? page).isSome ∨ page ∈ c.cachedPages

def Covered (c : Collection K) : Prop := ∀ p, c.Holds p → p < c.declaredPages

theorem Covered.mono {c d : Collection K} (h : c.Covered)
    (declared : c.declaredPages ≤ d.declaredPages) (holds : ∀ p, d.Holds p → c.Holds p) :
    d.Covered := by
  intro p held
  have below := h p (holds p held)
  omega

theorem Covered.pageCount {c : Collection K} (h : c.Covered) (top : Top c c.maxPage) :
    c.pageCount = c.declaredPages := by
  rw [Collection.pageCount]
  rcases top.attained with none | ⟨p, highest, occupied⟩
  · omega
  · have below := h p (Or.inl occupied)
    omega

theorem empty_covered (settings : Settings) (cacheSize : Nat) :
    (empty settings cacheSize : Collection K).Covered := by
  intro p held
  rcases held with stored | cached
  · simp at stored
  · cases cached

theorem Covered.declare {c : Collection K} (h : c.Covered) {n : Nat} (enough : c.pageCount ≤ n) :
    { c with declaredPages := n }.Covered := by
  rw [Collection.pageCount] at enough
  exact h.mono (Nat.le_trans (Nat.le_max_left _ _) enough) fun _ held => held

theorem holds_of_own? {c : Collection K} {p : Nat} {m : PageModel K} (h : c.own? p = some m) :
    c.Holds p := by
  rcases own?_cases h with ⟨stored, _⟩ | ⟨member, rfl⟩
  · exact Or.inl (by simp [stored])
  · exact Or.inr (List.mem_map_of_mem member)

theorem announcing_covered {c : Collection K} (h : c.Covered) (n : Nat) :
    (c.announcing n).Covered :=
  h.mono (d := c.announcing n) (Nat.le_max_right n c.declaredPages) fun _ held => held

theorem Inserted.covered {c d : Collection K} {m : PageModel K} (i : Inserted c m d)
    (h : c.Covered) : d.Covered := by
  intro p held
  rw [i.declaredPages]
  rcases held with stored | cached
  · rw [i.slot?] at stored
    split at stored
    · omega
    · have below := h p (Or.inl stored)
      omega
  · rw [cachedPages, i.cache] at cached
    have below := h p (Or.inr ((List.filter_sublist.map _).subset cached))
    omega

theorem remove_covered {c : Collection K} (h : c.Covered) (page : Int) :
    (c.remove page).2.Covered := by
  obtain ⟨d, same, ledger, _, slots, cache⟩ := remove_cases c page
  have kept : d.Covered := by
    refine h.mono (Nat.le_of_eq ledger.declaredPages.symm) fun p held => ?_
    rcases held with stored | cached
    · rw [slots] at stored
      split at stored
      · cases stored
      · exact Or.inl stored
    · rw [cachedPages, cache] at cached
      split at cached
      · exact Or.inr cached
      · exact Or.inr ((List.filter_sublist.map _).subset cached)
  rw [same]
  exact kept

theorem consult_covered {c : Collection K} (h : c.Covered) (page : Int) :
    (c.consult page).2.Covered := by
  rcases consult_cases c page with same | ⟨m, member, same⟩
  · rw [same]
    exact h
  · rw [same]
    refine h.mono (Nat.le_refl _) fun p held => ?_
    rcases held with stored | cached
    · exact Or.inl stored
    · rw [cachedPages, List.map_append, List.mem_append] at cached
      rcases cached with others | last
      · exact Or.inr ((List.filter_sublist.map _).subset others)
      · rw [List.map_cons, List.map_nil, List.mem_singleton] at last
        exact Or.inr (last ▸ List.mem_map_of_mem member)

theorem dropRedirects_covered {c : Collection K} (h : c.Covered) (redirects : c.RedirectsBelow) :
    c.dropRedirects.Covered := by
  refine h.mono (Nat.le_of_eq (dropRedirects_declaredPages c).symm) fun p held => ?_
  rw [Holds, dropRedirects_slot? redirects, cachedPages, dropRedirects_cache] at held
  rcases held with stored | cached
  · obtain ⟨m, built⟩ := Option.isSome_iff_exists.mp stored
    exact Or.inl (by simp [(builtPart_eq_some_iff.mp built).1])
  · exact Or.inr cached

theorem reopened_covered {c : Collection K} (h : c.Covered) (workable : c.Workable) :
    c.reopened.Covered := by
  refine h.mono (Nat.le_of_eq (reopened_declaredPages c).symm) fun p held => ?_
  rcases held with stored | cached
  · rw [reopened_slot? workable] at stored
    obtain ⟨m, own⟩ := Option.isSome_iff_exists.mp stored
    exact holds_of_own? own
  · cases cached

theorem settled_covered {c : Collection K} (h : c.Covered) {bound : Nat}
    (room : bound ≤ c.capacity) (declared : bound ≤ c.declaredPages) :
    (c.settled bound).Covered := by
  intro p held
  rw [settled_declaredPages]
  rcases held with stored | cached
  · rw [settled_slot?, redirectPages_slot? room] at stored
    split at stored
    · omega
    · exact h p (Or.inl stored)
  · rw [cachedPages, settled_cache] at cached
    exact h p (Or.inr cached)

theorem restore_covered {c : Collection K} (h : c.Covered) (workable : c.Workable) :
    c.restore.Covered := by
  refine h.mono (Nat.le_of_eq (restore_declaredPages c).symm) fun p held => ?_
  rcases held with stored | cached
  · rw [restore_slot? workable] at stored
    obtain ⟨m, own⟩ := Option.isSome_iff_exists.mp stored
    exact holds_of_own? own
  · cases cached

theorem revalidatePage_covered {c : Collection K} (h : c.Covered) (untested : Bool) (page : Nat) :
    (revalidatePage untested c page).state.Covered := by
  rcases revalidatePage_cases untested c page with same | ⟨m, held, _, same⟩
  · rw [same]
    exact h
  · rw [same]
    refine h.mono (Nat.le_refl _) fun p here => ?_
    rcases here with stored | cached
    · rw [Outcome.done_state, setSlot_slot?] at stored
      split at stored
      · rename_i own
        exact Or.inl (by simp [own.1, held])
      · exact Or.inl stored
    · exact Or.inr cached

theorem reopened_pageCount {c : Collection K} (h : c.Covered) (workable : c.Workable) :
    c.reopened.pageCount = c.declaredPages := by
  have below : c.declaredPages ≤ c.reopened.pageCount := by
    rw [pageCount, reopened_declaredPages]
    omega
  have inside := lt_reopened_pageCount_iff workable c.declaredPages
  have covers : ¬ ∃ r, c.declaredPages ≤ r ∧ c.holdsBuilt r = true := by
    intro found
    obtain ⟨r, above, built⟩ := found
    obtain ⟨m, held, _⟩ := (holdsBuilt_iff c r).mp built
    have := h r (Or.inl (by simp [held]))
    omega
  simp only [covers, Nat.lt_irrefl, or_self, iff_false] at inside
  omega

/-- The outcome of a resolution of the pages below a bound, by what was held before. A page whose
built model has a vertical field that passes keeps that model, with a valid verdict; any other page
below the bound borrows from its donor, and is left empty exactly if no page of its parity that
passes is within the distance. There is nothing beyond, and the pages that pass are listed in order.
-/
structure Resolved (c : Collection K) (untested : Bool) (bound : Nat) (after : Collection K) :
    Prop where
  pageCount : after.pageCount = bound
  kept : ∀ p m, c.own? p = some m → m.passes c.settings.thresholds untested = true →
    ∃ held, after.slot? p = some held ∧ m.SameSheet held ∧ held.vertical.status = .valid
  borrowed : ∀ p, p < bound → ¬ c.Qualifies untested p → ∀ r, after.slot? p = some r ↔
    ∃ q, IsDonor (c.Qualifies untested) c.settings.maxDistance p q ∧ r = redirectTo c.settings p q
  vacant : ∀ p, p < bound → ¬ c.Qualifies untested p → (after.slot? p = none ↔
    ∀ q, c.Qualifies untested q → q % 2 = p % 2 →
      c.settings.maxDistance < ((p : Int) - q).natAbs)
  beyond : ∀ p, bound ≤ p → after.slot? p = none
  built_sorted : after.builtPages.Pairwise (· < ·)
  mem_built : ∀ p, p ∈ after.builtPages ↔ c.Qualifies untested p

structure FullReview (c : Collection K) (untested : Bool) (bound : Nat) (after : Collection K) :
    Prop extends Reviewed c untested bound after where
  below : ∀ p m, c.own? p = some m → p < bound

namespace FullReview

variable {c after : Collection K} {untested : Bool} {bound : Nat}

theorem lt_and_qualifies_iff (h : FullReview c untested bound after) (q : Nat) :
    q < bound ∧ c.Qualifies untested q ↔ c.Qualifies untested q := by
  refine ⟨fun both => both.2, fun qualifies => ⟨?_, qualifies⟩⟩
  obtain ⟨m, own, _⟩ := qualifies
  exact h.below q m own

theorem slot?_eq_some_iff (h : FullReview c untested bound after) {p : Nat} (hp : p < bound)
    (fails : ¬ c.Qualifies untested p) (r : PageModel K) :
    after.slot? p = some r ↔ ∃ q, IsDonor (c.Qualifies untested) c.settings.maxDistance p q ∧
      r = redirectTo c.settings p q := by
  rw [h.redirected p hp fails]
  constructor
  · intro found
    obtain ⟨d, donor, same⟩ := found
    exact ⟨d, donor.congr h.lt_and_qualifies_iff, same⟩
  · intro found
    obtain ⟨d, donor, same⟩ := found
    exact ⟨d, donor.congr fun q => (h.lt_and_qualifies_iff q).symm, same⟩

theorem slot?_eq_none_iff (h : FullReview c untested bound after) {p : Nat} (hp : p < bound)
    (fails : ¬ c.Qualifies untested p) :
    after.slot? p = none ↔ ∀ q, c.Qualifies untested q → q % 2 = p % 2 →
      c.settings.maxDistance < ((p : Int) - q).natAbs := by
  rw [Option.eq_none_iff_forall_not_mem]
  constructor
  · intro empty q qualifies parity
    by_contra near
    obtain ⟨d, donor⟩ := exists_isDonor qualifies parity (Nat.not_lt.mp near)
    exact empty _ ((h.slot?_eq_some_iff hp fails _).mpr ⟨d, donor, rfl⟩)
  · intro far r held
    obtain ⟨d, donor, _⟩ := (h.slot?_eq_some_iff hp fails r).mp held
    have away := far d donor.valid donor.parity
    have within := donor.within
    omega

theorem slot?_eq_none_of_le (h : FullReview c untested bound after) {p : Nat} (hp : bound ≤ p) :
    after.slot? p = none := by
  rw [h.beyond p hp, Option.eq_none_iff_forall_not_mem]
  intro m own
  have inside := h.below p m own
  omega

theorem slot?_of_passes (h : FullReview c untested bound after) {p : Nat} {m : PageModel K}
    (own : c.own? p = some m) (passes : m.passes c.settings.thresholds untested = true) :
    after.slot? p = some (m.judged c.settings.thresholds untested) :=
  h.kept p m (h.below p m own) own passes

theorem built_iff (h : FullReview c untested bound after) (workable : c.Workable) (p : Nat) :
    (∃ m, after.slot? p = some m ∧ m.isRedirect = false) ↔ c.Qualifies untested p := by
  constructor
  · intro found
    obtain ⟨m, held, built⟩ := found
    by_contra fails
    rcases Nat.lt_or_ge p bound with hp | above
    · obtain ⟨d, _, same⟩ := (h.slot?_eq_some_iff hp fails m).mp held
      rw [same] at built
      cases built
    · rw [h.slot?_eq_none_of_le above] at held
      cases held
  · intro qualifies
    obtain ⟨m, own, passes⟩ := qualifies
    refine ⟨_, h.slot?_of_passes own passes, ?_⟩
    rw [PageModel.judged_isRedirect]
    exact workable.own?_isRedirect own

theorem resolved (h : FullReview c untested bound after) (workable : c.Workable)
    (listed : Listed after) (pageCount : after.pageCount = bound) :
    Resolved c untested bound after where
  pageCount := pageCount
  kept p m own passes := by
    have verdict := PageModel.judged_verticalValid (workable.own?_isRedirect own)
      c.settings.thresholds untested
    rw [passes, PageModel.verticalValid, Track.accepted_eq_true_iff] at verdict
    exact ⟨_, h.slot?_of_passes own passes, PageModel.judged_sameSheet m _ _, verdict⟩
  borrowed p hp fails := h.slot?_eq_some_iff hp fails
  vacant p hp fails := h.slot?_eq_none_iff hp fails
  beyond p hp := h.slot?_eq_none_of_le hp
  built_sorted := listed.built_sorted
  mem_built p := (listed.mem_built p).trans (h.built_iff workable p)

end FullReview

section Checks

variable [Scalar K]

theorem checkPage_holds {c : Collection K} (opened : c.Opened) (untested : Bool) (page p : Nat)
    (h : (checkPage untested c page).state.Holds p) : c.Holds p := by
  rcases h with stored | cached
  · rw [checkPage_slot?] at stored
    split at stored
    · rename_i here
      obtain ⟨m, kept⟩ := Option.isSome_iff_exists.mp stored
      rw [keptPart, Option.filter_eq_some_iff, Option.map_eq_some_iff] at kept
      obtain ⟨⟨old, held, _⟩, _⟩ := kept
      exact Or.inl (by simp [here, held])
    · exact Or.inl stored
  · rw [checkPage_eq] at cached
    split at cached
    · exact Or.inr cached
    · rename_i m held
      split at cached
      · exact Or.inr cached
      · -- What has been set aside stood in the slot of its own page.
        rcases setAside_cache (c.setSlot page none) (m.judged c.settings.thresholds untested) with
          same | kept
        · rw [cachedPages, same] at cached
          exact Or.inr cached
        · have member := (kept.sublist.map (·.page)).subset cached
          rw [List.map_append, List.mem_append] at member
          rcases member with others | last
          · exact Or.inr ((List.filter_sublist.map _).subset others)
          · rw [List.map_cons, List.map_nil, List.mem_singleton, PageModel.judged_page,
              (opened.slots page m held).1] at last
            exact Or.inl (by simp [last, held])

theorem each_checkPage_covered {c : Collection K} (opened : c.Opened) (h : c.Covered)
    (untested : Bool) (pages : List Nat) :
    (Outcome.each (checkPage untested) c pages).state.Covered := by
  have both : (Outcome.each (checkPage untested) c pages).state.Opened ∧
      (Outcome.each (checkPage untested) c pages).state.Covered := by
    refine Outcome.each_invariant (P := fun d : Collection K => d.Opened ∧ d.Covered)
      ?_ pages ⟨opened, h⟩
    intro d p old
    exact ⟨checkPage_opened old.1 untested p,
      old.2.mono (Nat.le_of_eq (checkPage_ledger untested d p).declaredPages.symm)
        (checkPage_holds old.1 untested p)⟩
  exact both.2

/-! Whole runs. -/

theorem resolve_covered {c : Collection K} (consistent : c.Consistent) (h : c.Covered)
    (untested : Bool) (pages : Value K) : (c.resolve untested pages).state.Covered := by
  by_cases accepted : ∃ n, Announces pages n
  · obtain ⟨n, announces⟩ := accepted
    have announced : (c.announcing n).Consistent := consistent.declare _
    have wider := announcing_covered h n
    have opened := reopened_opened announced
    have covered := reopened_covered wider announced.workable
    have bound := reopened_pageCount wider announced.workable
    have fits := reopened_pageCount_le announced.workable
    have checked := each_checkPage_covered opened covered untested
      (List.range (c.announcing n).reopened.pageCount)
    have frame := each_checkPage_frame untested (c.announcing n).reopened
      (List.range (c.announcing n).reopened.pageCount)
    rw [resolve_eq announces, Outcome.andThen]
    split
    · refine settled_covered checked ?_ ?_
      · rw [frame.2]
        exact fits
      · rw [frame.1.declaredPages, reopened_declaredPages, bound]
    · exact checked
  · obtain ⟨fault, same⟩ := resolve_of_rejected c (not_exists.mp accepted) untested
    rw [same]
    exact h

/-- The calls that leave the size of the cache alone and never assign fewer pages than there are. -/
def Growing (c : Collection K) : Call K → Prop
  | .assign .cacheSize _ => False
  | .assign .pageCount v => ∀ n, checkPageCount v = .ok n → c.pageCount ≤ n
  | _ => True

theorem Growing.keeps_cacheSize {c : Collection K} {a : Call K} (h : c.Growing a) (v : Value K) :
    a ≠ .assign .cacheSize v := by
  intro same
  subst same
  exact h

theorem run_covered {c : Collection K} (consistent : c.Consistent) (h : c.Covered) {a : Call K}
    (grows : c.Growing a) : (c.run a).state.Covered := by
  cases a with
  | insert m =>
      rcases insert_cases consistent.room m with ⟨same, _⟩ | ⟨_, _, d, inserted, same⟩
      · rw [run, same]
        exact h
      · rw [run, same]
        exact inserted.covered h
  | remove page => exact remove_covered h page
  | consult page => exact consult_covered h page
  | relist => exact h
  | revalidate untested =>
      exact Outcome.each_invariant (P := Covered)
        (fun _ p covered => revalidatePage_covered covered untested p) c.span h
  | strip => exact dropRedirects_covered h consistent.redirects
  | restore => exact restore_covered h consistent.workable
  | resolve untested pages => exact resolve_covered consistent h untested pages
  | setThresholds entries =>
      have frame := setThresholds_frame c entries
      refine h.mono (Nat.le_of_eq frame.2.2.symm) fun p held => ?_
      rwa [Holds, run, frame.1.slot?, cachedPages, frame.1.cache] at held
  | assign setting v =>
      have shelf := assign_shelf c setting v
      refine h.mono ?_ fun p held => ?_
      · rcases assign_declaredPages c setting v with same | ⟨rfl, accepted⟩
        · exact Nat.le_of_eq same.symm
        · have enough := grows _ accepted
          rw [pageCount] at enough
          exact Nat.le_trans (Nat.le_max_left _ _) enough
      · rwa [Holds, run, shelf.slot?, cachedPages, shelf.cache] at held

theorem Reachable.covered {c : Collection K} (h : Reachable Growing c) : c.Covered := by
  refine Reachable.invariant (P := Covered) (fun _ _ _ _ => trivial) empty_covered ?_ ?_ h
  · intro d n old enough
    exact old.declare enough
  · intro d a consistent old grows
    exact run_covered consistent old grows

/-- However a collection has come about, as long as its pages have only become more: a resolution
succeeds, and what it leaves behind is determined by the built models that were held, whether in
storage or in the cache. -/
theorem resolve_resolved {c : Collection K} (h : Reachable Growing c) (untested : Bool)
    {pages : Value K} {n : Nat} (announced : Announces pages n) :
    ∃ after, c.resolve untested pages = .done after ∧
      Resolved c untested (max n c.pageCount) after := by
  have consistent := h.consistent
  have covered := h.covered
  have current := (h.mono fun _ _ grows => grows.keeps_cacheSize).current
  have workable : (c.announcing n).Workable := announcing_workable consistent.workable n
  have count := covered.pageCount current.top
  have bound : (c.announcing n).reopened.pageCount = max n c.pageCount := by
    rw [reopened_pageCount (announcing_covered covered n) workable, count]
    rfl
  obtain ⟨size, cacheSize, _⟩ := current.bounded
  have runs := each_checkPage_fault ((reopened_cacheSize (c.announcing n)).trans cacheSize) untested
    (List.range (c.announcing n).reopened.pageCount)
  have reviewed := settled_reviewed workable untested runs
  have done := resolve_eq announced (c := c) untested
  rw [Outcome.eq_done_of_fault runs, Outcome.done_andThen] at done
  have frame := (each_checkPage_frame untested (c.announcing n).reopened
    (List.range (c.announcing n).reopened.pageCount)).1.declaredPages
  have after := resolve_current current untested pages
  have within := resolve_covered consistent covered untested pages
  rw [done, Outcome.done_state] at after within
  rw [bound] at done reviewed after within frame
  have below : ∀ p m, c.own? p = some m → p < max n c.pageCount := by
    intro p m own
    have inside := covered p (holds_of_own? own)
    omega
  refine ⟨_, done, FullReview.resolved ?_ consistent.workable after.listed ?_⟩
  · exact ⟨⟨reviewed.kept, reviewed.redirected, reviewed.beyond⟩, below⟩
  · rw [within.pageCount after.top]
    rw [settled_declaredPages, frame, reopened_declaredPages, count]
    rfl

end Checks

theorem booklet_resolved :
    Reachable Growing (standardShelf.afterCalls bookletCalls) ∧
      (standardShelf.afterCalls bookletCalls).cachedPages = [4] ∧
      Announces (.int 7 : Value Rat) 7 ∧
      ∃ after, (standardShelf.afterCalls bookletCalls).resolve false (.int 7) = .done after ∧
        Resolved (standardShelf.afterCalls bookletCalls) false 7 after := by
  have reachable : Reachable Growing (standardShelf.afterCalls bookletCalls) := by
    refine (standardShelf_reachable _).afterCalls ?_
    intro d a member
    simp only [bookletCalls, List.mem_cons, List.not_mem_nil, or_false] at member
    rcases member with rfl | rfl | rfl <;> trivial
  have announced : Announces (.int 7 : Value Rat) 7 := .given rfl
  have count : max 7 (standardShelf.afterCalls bookletCalls).pageCount = 7 := by decide +kernel
  have resolved := resolve_resolved reachable false announced
  rw [count] at resolved
  exact ⟨reachable, by decide +kernel, announced, resolved⟩

end Collection

end PageFlattening
