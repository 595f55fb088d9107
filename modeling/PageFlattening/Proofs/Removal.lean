import PageFlattening.Proofs.Departures
import PageFlattening.Proofs.ReadBack

/-! When a removed page stays removed. A removal takes out one model, from storage or else from the
cache. A page that is redirected while its own model is set aside has two of them: the redirect
goes, and the model comes back as soon as the cache is moved back into storage. Where this is not
so, no calls bring the page back among the built ones unless a model for it is inserted. -/
namespace PageFlattening

namespace Collection

variable {K : Type}

def Shadowed (c : Collection K) (page : Nat) : Prop :=
  (c.redirectOf page).isSome ∧ page ∈ c.cachedPages

/-- The page is in storage above the highest page, where a resolution that stops may leave it. -/
def Overlooked (c : Collection K) (page : Nat) : Prop :=
  (c.slot? page).isSome ∧ c.maxPage < page

instance (c : Collection K) (page : Nat) : Decidable (c.Shadowed page) :=
  inferInstanceAs (Decidable (_ ∧ _))

instance (c : Collection K) (page : Nat) : Decidable (c.Overlooked page) :=
  inferInstanceAs (Decidable (_ ∧ _))

theorem shadowed_iff {c : Collection K} (h : c.Stocked) {page : Nat} :
    c.Shadowed page ↔ (c.model? page).isSome ∧ page ∈ c.cachedPages := by
  refine and_congr_left fun cached => ?_
  rw [redirectOf]
  cases found : c.model? page with
  | none => simp
  | some m =>
      have redirect : m.isRedirect = true := by
        by_contra built
        exact h.not_mem_cachedPages (slot?_of_model? found).2 (by simpa using built) cached
      simpa [PageModel.isRedirect] using redirect

theorem not_mem_uncached (c : Collection K) (page : Nat) :
    page ∉ (c.uncached page).map (·.page) := by
  intro member
  obtain ⟨m, member, rfl⟩ := List.mem_map.mp member
  exact (mem_uncached.mp member).2 rfl

theorem remove_holds_iff {c : Collection K} (h : c.Stocked) (page : Nat) :
    (c.remove page).2.Holds page ↔ c.Shadowed page ∨ c.Overlooked page := by
  obtain ⟨d, same, _, _, slots, cache⟩ := remove_cases c page
  have stored : (d.slot? page).isSome ↔ c.Overlooked page := by
    rw [slots, Overlooked]
    by_cases below : (page : Int) ≤ c.maxPage
    · simp [below, Int.not_lt.mpr below]
    · simp [below, Int.not_le.mp below]
  have cached : page ∈ d.cachedPages ↔ c.Shadowed page := by
    rw [cachedPages, cache, shadowed_iff h]
    by_cases found : (c.model? page).isSome
    · simp [found, cachedPages]
    · simp [found, not_mem_uncached c page]
  rw [same, or_comm, ← stored, ← cached]
  rfl

theorem Reachable.not_overlooked [Scalar K] {c : Collection K}
    (h : Reachable (fun _ a => ∀ v, a ≠ .assign .cacheSize v) c) (page : Nat) :
    ¬ c.Overlooked page := by
  rintro ⟨occupied, above⟩
  have below := h.current.top.above page occupied
  omega

/-! The list of built pages along a call. -/

theorem mem_refreshLists_builtPages {c : Collection K} {page : Nat}
    (h : page ∈ c.refreshLists.builtPages) : c.refreshLists.holdsBuilt page = true :=
  (List.mem_filter.mp h).2

theorem Listed.holdsBuilt {c : Collection K} (h : Listed c) {page : Nat}
    (listed : page ∈ c.builtPages) : c.holdsBuilt page = true :=
  (holdsBuilt_iff c page).mpr ((h.mem_built page).mp listed)

theorem dropRedirects_builtPages (c : Collection K) : c.dropRedirects.builtPages = c.builtPages :=
  (foldl_dropRedirect c c.span).1.builtPages

section Calls

variable [Scalar K]

omit [Scalar K] in
theorem revalidate_builtPages (c : Collection K) (untested : Bool) :
    (c.revalidate untested).state.builtPages = c.builtPages := by
  refine Outcome.each_invariant (P := fun d : Collection K => d.builtPages = c.builtPages) ?_
    c.span rfl
  intro d page same
  rcases revalidatePage_cases untested d page with kept | ⟨m, _, _, kept⟩
  · rw [kept]
    exact same
  · rw [kept]
    exact same

theorem resolve_builtPages {c : Collection K} {untested : Bool} {pages : Value K} {page : Nat}
    (h : page ∈ (c.resolve untested pages).state.builtPages) :
    page ∈ c.builtPages ∨ (c.resolve untested pages).state.holdsBuilt page = true := by
  by_cases accepted : ∃ n, Announces pages n
  · obtain ⟨n, announces⟩ := accepted
    rw [resolve_eq announces, Outcome.andThen] at h ⊢
    split at h
    · exact Or.inr ((settled_listed _ _).holdsBuilt h)
    · left
      rw [(each_checkPage_frame untested _ _).1.builtPages, (reopened_ledger _).builtPages,
        dropRedirects_builtPages] at h
      exact h
  · obtain ⟨fault, same⟩ := resolve_of_rejected c (not_exists.mp accepted) untested
    rw [same] at h
    exact Or.inl h

theorem run_builtPages {c : Collection K} {a : Call K} {page : Nat}
    (h : page ∈ (c.run a).state.builtPages) :
    page ∈ c.builtPages ∨ (c.run a).state.holdsBuilt page = true := by
  cases a with
  | insert m =>
      rw [run] at h ⊢
      rcases insert_outcome c m with ⟨_, same⟩ | ⟨_, same⟩
      · rw [same] at h
        exact Or.inl h
      · rw [same] at h ⊢
        exact Or.inr (mem_refreshLists_builtPages h)
  | remove page =>
      obtain ⟨d, same, _⟩ := remove_cases c page
      rw [run, Outcome.done_state, same] at h ⊢
      exact Or.inr (mem_refreshLists_builtPages h)
  | consult page =>
      left
      rw [run, Outcome.done_state] at h
      rcases consult_cases c page with same | ⟨m, _, same⟩
      · rwa [same] at h
      · rwa [same] at h
  | relist => exact Or.inr (mem_refreshLists_builtPages h)
  | revalidate untested =>
      left
      rwa [run, revalidate_builtPages] at h
  | strip => exact Or.inr (mem_refreshLists_builtPages h)
  | restore => exact Or.inr ((restore_listed c).holdsBuilt h)
  | resolve untested pages => exact resolve_builtPages h
  | setThresholds entries =>
      left
      rwa [run, (setThresholds_frame c entries).1.builtPages] at h
  | assign setting v =>
      left
      rwa [run, (assign_shelf c setting v).builtPages] at h

/-! Pages that are gone. -/

structure Gone (c : Collection K) (page : Nat) : Prop where
  unlisted : page ∉ c.builtPages
  kept : ∀ i, c.KeepsAs i → i.page = page → i.redirect = true

omit [Scalar K] in
theorem Stocked.holdsBuilt_eq_false {c : Collection K} (h : c.Stocked) {page : Nat}
    (kept : ∀ i, c.KeepsAs i → i.page = page → i.redirect = true) :
    c.holdsBuilt page = false := by
  rw [Bool.eq_false_iff]
  intro holds
  obtain ⟨m, held, built⟩ := (holdsBuilt_iff c page).mp holds
  have keeps : c.Keeps m := Or.inl ⟨page, held⟩
  have redirect : m.isRedirect = true := kept m.identity keeps.as (h.slots page m held).1
  rw [built] at redirect
  cases redirect

theorem run_gone {c : Collection K} (h : c.Consistent) {page : Nat} (gone : c.Gone page)
    {a : Call K} (away : ∀ m, a = .insert m → m.page ≠ page) : (c.run a).state.Gone page := by
  have kept : ∀ i, (c.run a).state.KeepsAs i → i.page = page → i.redirect = true := by
    intro i keeps here
    rcases run_keepsAs h keeps with keeps | making | ⟨m, taken, rfl⟩
    · exact gone.kept i keeps here
    · exact making.2
    · exact absurd here (away m taken)
  refine ⟨fun listed => ?_, kept⟩
  rcases run_builtPages listed with before | now
  · exact gone.unlisted before
  · rw [(run_consistent h a).holdsBuilt_eq_false kept] at now
    cases now

theorem afterCalls_gone {c : Collection K} (h : c.Consistent) {page : Nat} (gone : c.Gone page)
    {calls : List (Call K)} (away : ∀ m, .insert m ∈ calls → m.page ≠ page) :
    (c.afterCalls calls).Gone page := by
  induction calls generalizing c with
  | nil => exact gone
  | cons a rest ih =>
      refine ih (run_consistent h a) (run_gone h gone ?_) ?_
      · rintro m rfl
        exact away m (by simp)
      · intro m member
        exact away m (by simp [member])

omit [Scalar K] in
theorem remove_gone {c : Collection K} (h : c.Consistent) {page : Nat}
    (out : ¬ (c.remove page).2.Holds page) : (c.remove page).2.Gone page := by
  have stocked := (remove_consistent h page).toStocked
  have kept : ∀ i, (c.remove page).2.KeepsAs i → i.page = page → i.redirect = true := by
    intro i keeps here
    obtain ⟨m, held | cached, rfl⟩ := keepsAs_iff.mp keeps
    · obtain ⟨p, held⟩ := held
      have same : p = page := (stocked.slots p m held).1.symm.trans here
      rw [same] at held
      exact absurd (Or.inl (by simp [held])) out
    · have member : m.page ∈ (c.remove page).2.cachedPages := List.mem_map_of_mem cached
      exact absurd (Or.inr (here ▸ member)) out
  refine ⟨fun listed => ?_, kept⟩
  obtain ⟨d, same, _⟩ := remove_cases c page
  have holds := stocked.holdsBuilt_eq_false kept
  rw [same] at listed holds
  rw [mem_refreshLists_builtPages listed] at holds
  cases holds

omit [Scalar K] in
theorem restore_removed {c : Collection K} (h : c.Consistent) {page : Nat}
    (holds : (c.remove page).2.Holds page) : page ∈ (c.remove page).2.restore.builtPages := by
  have consistent := remove_consistent h page
  have own : ((c.remove page).2.own? page).isSome := by
    rcases holds with stored | cached
    · obtain ⟨m, held⟩ := Option.isSome_iff_exists.mp stored
      obtain ⟨d, same, _, _, slots, _⟩ := remove_cases c page
      have before : d.slot? page = some m := by
        rw [same] at held
        exact held
      rw [slots] at before
      split at before
      · cases before
      · rename_i above
        have built : m.isRedirect = false := by
          by_contra redirect
          exact above ⟨rfl, h.redirects page m before (by simpa using redirect)⟩
        rw [own?, held, builtPart_some, built]
        rfl
    · rw [own?, Option.isSome_or]
      simp [(cached?_isSome _ page).mpr cached]
  obtain ⟨m, found⟩ := Option.isSome_iff_exists.mp own
  rw [(restore_listed _).mem_built, restore_slot? consistent.workable]
  exact ⟨m, found, consistent.workable.own?_isRedirect found⟩

/-- A removal leaves nothing behind, and no calls without an insertion for the page bring it back
among the built ones, exactly if the page is not redirected while its own model is set aside, and
not in storage above the highest page. The latter cannot be while the size of the cache stays as
it is. -/
theorem removed_for_good_iff {c : Collection K} (h : Reachable (fun _ _ => True) c) (page : Nat) :
    (¬ (c.remove page).2.Holds page ↔ ¬ c.Shadowed page ∧ ¬ c.Overlooked page) ∧
    ((∀ calls : List (Call K), (∀ m, .insert m ∈ calls → m.page ≠ page) →
        page ∉ ((c.remove page).2.afterCalls calls).builtPages) ↔
      ¬ c.Shadowed page ∧ ¬ c.Overlooked page) ∧
    (Reachable (fun _ a => ∀ v, a ≠ .assign .cacheSize v) c → ¬ c.Overlooked page) := by
  have consistent := h.consistent
  have out : ¬ (c.remove page).2.Holds page ↔ ¬ c.Shadowed page ∧ ¬ c.Overlooked page := by
    rw [remove_holds_iff consistent.toStocked, not_or]
  refine ⟨out, ⟨fun stays => out.mp fun holds => ?_, fun once calls away => ?_⟩,
    fun steady => steady.not_overlooked page⟩
  · exact stays [.restore] (by simp) (restore_removed consistent holds)
  · have gone := remove_gone consistent (out.mpr once)
    exact (afterCalls_gone (remove_consistent consistent page) gone away).unlisted

end Calls

theorem booklet_removed_for_good :
    Reachable (fun _ _ => True) (standardShelf.afterCalls bookletCalls) ∧
      0 ∈ (standardShelf.afterCalls bookletCalls).builtPages ∧
      ∀ calls : List (Call Rat), (∀ m, .insert m ∈ calls → m.page ≠ 0) →
        0 ∉ (((standardShelf.afterCalls bookletCalls).remove (0 : Nat)).2.afterCalls
          calls).builtPages := by
  have reachable : Reachable (fun _ _ => True) (standardShelf.afterCalls bookletCalls) :=
    (standardShelf_reachable _).afterCalls fun _ _ _ => trivial
  exact ⟨reachable, by decide +kernel,
    (removed_for_good_iff reachable 0).2.1.mpr ⟨by decide +kernel, by decide +kernel⟩⟩

/-- The fifth page is redirected and its own model set aside: the removal leaves that in the cache,
and it comes back. -/
theorem booklet_comes_back :
    Reachable (fun _ _ => True) (standardShelf.afterCalls bookletCalls) ∧
      ((standardShelf.afterCalls bookletCalls).remove (4 : Nat)).2.cachedPages = [4] ∧
      4 ∈ (((standardShelf.afterCalls bookletCalls).remove (4 : Nat)).2.afterCalls
        [.restore]).builtPages :=
  ⟨(standardShelf_reachable _).afterCalls fun _ _ _ => trivial, by decide +kernel,
    by decide +kernel⟩

end Collection

end PageFlattening
