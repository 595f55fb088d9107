import PageFlattening.Proofs.Departures
import PageFlattening.Proofs.Loosening
import PageFlattening.Proofs.Saving

/-! A collection whose settings are changed after it has been made. Every setting but the size of
the cache is checked as strictly as when a collection is made; that size is taken as it is. So the
configuration remains one that another collection could be made with exactly as long as no size
that is not a natural number stands, and then the collection can be stored and read back, and its
references can be resolved whatever models are inserted. -/
namespace PageFlattening

namespace Call

variable {K : Type}

def Reconfigures : Call K → Prop
  | .setThresholds _ => True
  | .assign _ _ => True
  | _ => False

def Unsizes (a : Call K) : Prop := ∃ v, a = .assign .cacheSize v ∧ ∀ n : Nat, v ≠ .int n

def Sizes (a : Call K) : Prop := ∃ n : Nat, a = .assign .cacheSize (.int n)

end Call

namespace Collection

variable {K : Type}

/-! Collections that hold nothing, and what insertions make of them. -/

structure Bare (c : Collection K) : Prop where
  consistent : c.Consistent
  slot? : ∀ p, c.slot? p = none
  cache : c.cache = []
  maxPage : c.maxPage = -1

theorem Bare.covered {c : Collection K} (h : c.Bare) : c.Covered := by
  rintro p (stored | cached)
  · rw [h.slot?] at stored
    cases stored
  · rw [cachedPages, h.cache] at cached
    cases cached

theorem Bare.top {c : Collection K} (h : c.Bare) : Top c c.maxPage where
  above p stored := by
    rw [h.slot?] at stored
    cases stored
  attained := Or.inl h.maxPage

theorem Bare.of_shelf {c d : Collection K} (h : c.Bare) (same : SameShelf c d) : d.Bare where
  consistent := same.consistent h.consistent
  slot? p := by rw [same.slot?, h.slot?]
  cache := same.cache.trans h.cache
  maxPage := same.maxPage.trans h.maxPage

theorem each_insert_invariant {c filled : Collection K} (consistent : c.Consistent)
    (covered : c.Covered) {models : List (PageModel K)}
    (done : Outcome.each insert c models = .done filled) :
    filled.Consistent ∧ filled.Covered ∧ filled.cacheSize = c.cacheSize := by
  have same : (Outcome.each insert c models).state = filled := by rw [done, Outcome.done_state]
  rw [← same]
  refine Outcome.each_invariant (P := fun d : Collection K =>
    d.Consistent ∧ d.Covered ∧ d.cacheSize = c.cacheSize) ?_ models ⟨consistent, covered, rfl⟩
  rintro d m ⟨consistent, covered, size⟩
  refine ⟨insert_consistent consistent m, ?_⟩
  rcases insert_outcome d m with ⟨_, refused⟩ | ⟨_, taken⟩
  · rw [refused]
    exact ⟨covered, size⟩
  · have inserted := shelved_inserted consistent.room m
    rw [taken]
    exact ⟨inserted.covered covered, inserted.cacheSize.trans size⟩

def failedSheet (c : Collection K) : PageModel K :=
  { PageModel.blank 0 0 0 c.settings.build.stride c.settings.build.reduction with
    vertical := .failed }

theorem failing_of_failedSheet {c : Collection K} (h : c.Stocked) :
    (c.shelved c.failedSheet).failing false 0 ≠ none := by
  have held : (c.shelved c.failedSheet).slot? 0 = some (c.entered c.failedSheet) :=
    (shelved_inserted h.room c.failedSheet).slot? 0
  have entered : c.entered c.failedSheet = c.failedSheet.adopted := by
    rw [Collection.entered]
    split <;> rfl
  rw [failing, own?, held, entered]
  simp [builtPart, Option.filter, rejectedPart, PageModel.judged, PageModel.adopted, failedSheet,
    PageModel.blank, PageModel.isRedirect, PageModel.verticalValid, Track.accepted,
    Track.succeeded]

section Settings

variable [Scalar K]

/-! The configuration. -/

/-- Another collection could be made with the settings that this one has come to. -/
def Constructible (c : Collection K) : Prop := ∃ d, ofDraft c.configuration = .ok d

theorem ofDraft_configuration (c : Collection K) :
    ofDraft c.configuration = (checkCacheSize c.cacheSize).map (empty c.settings) := by
  rw [ofDraft, configuration_settings]
  cases checkCacheSize c.cacheSize <;> rfl

theorem checkNatural_of_forall_ne (fault : String → SettingFault) {v : Value K}
    (h : ∀ n : Nat, v ≠ .int n) : checkNatural fault v = .error (.setting (fault v.literal)) := by
  cases v with
  | int k =>
      have negative : k < 0 := by
        by_contra natural
        exact h k.toNat (by rw [Int.toNat_of_nonneg (by omega)])
      simp [checkNatural, negative]
  | _ => rfl

theorem constructible_iff {c : Collection K} :
    c.Constructible ↔ ∃ n : Nat, c.cacheSize = .int n := by
  rw [Constructible, ofDraft_configuration, checkCacheSize]
  constructor
  · rintro ⟨d, made⟩
    by_contra unsized
    rw [checkNatural_of_forall_ne _ (not_exists.mp unsized)] at made
    cases made
  · rintro ⟨n, sized⟩
    rw [sized, checkNatural_natCast]
    exact ⟨_, rfl⟩

theorem ofRecord_of_not_constructible {c : Collection K} (h : ¬ c.Constructible) :
    ofRecord c.record = .error (.setting (.cacheSize c.cacheSize.literal)) := by
  rw [constructible_iff, not_exists] at h
  rw [ofRecord, ofStoredSettings_record_eq, ofDraft_configuration, checkCacheSize,
    checkNatural_of_forall_ne _ h]
  rfl

/-! Changes of settings. -/

theorem run_shelf (c : Collection K) {a : Call K} (h : a.Reconfigures) :
    SameShelf c (c.run a).state := by
  cases a with
  | setThresholds entries => exact (setThresholds_frame c entries).1
  | assign setting v => exact assign_shelf c setting v
  | _ => exact h.elim

theorem afterCalls_shelf {c : Collection K} {calls : List (Call K)}
    (h : ∀ a ∈ calls, a.Reconfigures) : SameShelf c (c.afterCalls calls) := by
  induction calls generalizing c with
  | nil => exact SameShelf.refl c
  | cons a rest ih =>
      rw [List.forall_mem_cons] at h
      exact (run_shelf c h.1).trans (ih h.2)

theorem run_sized_iff (c : Collection K) {a : Call K} (h : a.Reconfigures) :
    (∃ n : Nat, (c.run a).state.cacheSize = .int n) ↔
      ¬ a.Unsizes ∧ ((∃ n : Nat, c.cacheSize = .int n) ∨ a.Sizes) := by
  cases a with
  | setThresholds entries =>
      rw [run, (setThresholds_frame c entries).2.1]
      simp [Call.Unsizes, Call.Sizes]
  | assign setting v =>
      by_cases size : setting = .cacheSize
      · subst size
        have assigned : (c.run (.assign .cacheSize v)).state.cacheSize = v := rfl
        by_cases sized : ∃ n : Nat, v = .int n
        · obtain ⟨n, rfl⟩ := sized
          simp [assigned, Call.Unsizes, Call.Sizes]
        · have other := not_exists.mp sized
          simp [assigned, Call.Unsizes, other]
      · rw [run, assign_cacheSize c size]
        simp [Call.Unsizes, Call.Sizes, size]
  | _ => exact h.elim

theorem constructible_iff_settled {c : Collection K} (start : c.Constructible)
    {calls : List (Call K)} (h : ∀ a ∈ calls, a.Reconfigures) :
    (c.afterCalls calls).Constructible ↔
      ∀ before a rest, calls = before ++ a :: rest → a.Unsizes →
        ∃ mid b tail, rest = mid ++ b :: tail ∧ b.Sizes := by
  rw [constructible_iff] at start ⊢
  exact afterCalls_iff_settled (I := fun _ => True) (fun d => ∃ n : Nat, d.cacheSize = .int n)
    (fun _ a => a.Unsizes) (fun _ a => a.Sizes) trivial start (fun _ _ _ _ => trivial)
    fun d a member _ => run_sized_iff d (h a member)

/-! Storing, and resolving. -/

theorem ofDraft_bare {d : Draft K} {c : Collection K} (h : ofDraft d = .ok c) :
    c.Bare ∧ c.Constructible := by
  obtain ⟨settings, cacheSize, rfl⟩ := ofDraft_eq_empty h
  exact ⟨⟨(empty_opened settings cacheSize).consistent, empty_slot? settings cacheSize, rfl, rfl⟩,
    constructible_iff.mpr ⟨cacheSize, rfl⟩⟩

theorem Bare.ofRecord_record {c : Collection K} (h : c.Bare) (constructible : c.Constructible) :
    ∃ l, ofRecord c.record = .ok l ∧ l.settings = c.settings ∧ l.cacheSize = c.cacheSize := by
  obtain ⟨size, cacheSize⟩ := constructible_iff.mp constructible
  have none : ∀ p, c.own? p = none := by
    intro p
    rw [own?, h.slot?, cached?, h.cache]
    rfl
  obtain ⟨l, read, settings, sized, _⟩ := Collection.ofRecord_record h.consistent h.covered h.top
    cacheSize (by simp [none]) (by simp [none])
  exact ⟨l, read, settings, sized⟩

/-- Whatever models are inserted, a resolution that is given a number of pages or none comes to its
end. -/
def NeverStops (c : Collection K) : Prop :=
  ∀ models filled, Outcome.each insert c models = .done filled →
    ∀ untested pages, (∃ n, Announces pages n) → (filled.resolve untested pages).fault = none

theorem Bare.neverStops_iff {c : Collection K} (h : c.Bare) :
    c.NeverStops ↔ TakesFirst c.cacheSize := by
  have ends : ∀ {models filled}, Outcome.each insert c models = .done filled →
      ∀ untested pages, ((filled.resolve untested pages).fault = none ↔
        (∃ n, Announces pages n) ∧
          (TakesFirst c.cacheSize ∨ ∀ p, filled.failing untested p = none)) := by
    intro models filled done untested pages
    obtain ⟨consistent, covered, same⟩ := each_insert_invariant h.consistent h.covered done
    rw [← same, ← exists_resolve_eq_done_iff consistent covered]
    exact ⟨fun runs => ⟨_, Outcome.eq_done_of_fault runs⟩, fun ⟨after, runs⟩ => runs ▸ rfl⟩
  constructor
  · intro never
    have inserted : Outcome.each insert c [c.failedSheet] = .done (c.shelved c.failedSheet) :=
      each_insert h.consistent.room (by simp [failedSheet, PageModel.blank])
    have runs := never _ _ inserted false .null ⟨0, .omitted⟩
    refine ((ends inserted false .null).mp runs).2.resolve_right fun passes => ?_
    exact failing_of_failedSheet h.consistent.toStocked (passes 0)
  · intro takes models filled done untested pages announces
    exact (ends done untested pages).mpr ⟨announces, Or.inl takes⟩

/-- After any changes of settings another collection could be made with those that stand, exactly if
every size of the cache that is not a natural number has been replaced by one that is. The
collection can then be stored and read back with its settings, and its references can always be
resolved; otherwise reading back is refused for the size of the cache. That references can always be
resolved means that the cache can take a first model. -/
theorem constructible_afterCalls_iff {d : Draft K} {s : Collection K} (made : ofDraft d = .ok s)
    {calls : List (Call K)} (settings : ∀ a ∈ calls, a.Reconfigures) :
    ((s.afterCalls calls).Constructible ↔
      ∀ before a rest, calls = before ++ a :: rest → a.Unsizes →
        ∃ mid b tail, rest = mid ++ b :: tail ∧ b.Sizes) ∧
    ((s.afterCalls calls).Constructible →
      (∃ l, ofRecord (s.afterCalls calls).record = .ok l ∧
        l.settings = (s.afterCalls calls).settings ∧
        l.cacheSize = (s.afterCalls calls).cacheSize) ∧
      (s.afterCalls calls).NeverStops) ∧
    (¬ (s.afterCalls calls).Constructible →
      ofRecord (s.afterCalls calls).record =
        .error (.setting (.cacheSize (s.afterCalls calls).cacheSize.literal))) ∧
    ((s.afterCalls calls).NeverStops ↔ TakesFirst (s.afterCalls calls).cacheSize) := by
  obtain ⟨empty, constructible⟩ := ofDraft_bare made
  have bare : (s.afterCalls calls).Bare := empty.of_shelf (afterCalls_shelf settings)
  refine ⟨constructible_iff_settled constructible settings, fun stands => ?_,
    ofRecord_of_not_constructible, bare.neverStops_iff⟩
  refine ⟨bare.ofRecord_record stands, bare.neverStops_iff.mpr ?_⟩
  obtain ⟨size, cacheSize⟩ := constructible_iff.mp stands
  rw [cacheSize]
  exact takesFirst_int size

end Settings

def resizedCalls : List (Call Rat) :=
  [.assign .cacheSize (.int (-1)), .assign .minLines (.int 4), .assign .pageCount (.int 3),
    .setThresholds [("max_linecurv", .int 200)], .assign .cacheSize (.int 2)]

theorem resized_stands :
    ofDraft ⟨[], .standard⟩ = .ok standardShelf ∧ (∀ a ∈ resizedCalls, a.Reconfigures) ∧
      (standardShelf.afterCalls resizedCalls).settings.build.minLines = 4 ∧
      (∃ l, ofRecord (standardShelf.afterCalls resizedCalls).record = .ok l ∧
        l.settings = (standardShelf.afterCalls resizedCalls).settings ∧
        l.cacheSize = (standardShelf.afterCalls resizedCalls).cacheSize) ∧
      (standardShelf.afterCalls resizedCalls).NeverStops := by
  have settings : ∀ a ∈ resizedCalls, a.Reconfigures := by simp [resizedCalls, Call.Reconfigures]
  refine ⟨rfl, settings, by decide +kernel, ?_⟩
  exact (constructible_afterCalls_iff (d := ⟨[], .standard⟩) rfl settings).2.1
    (constructible_iff.mpr ⟨2, rfl⟩)

theorem shrunk_stops :
    ((standardShelf.assign Setting.cacheSize.name (.int (-1))).fault = none) ∧
      ¬ (standardShelf.afterCalls (resizedCalls.take 1)).Constructible ∧
      ofRecord (standardShelf.afterCalls (resizedCalls.take 1)).record =
        .error (.setting (.cacheSize "-1")) ∧
      ((standardShelf.afterCalls (resizedCalls.take 1 ++ [.insert (sheet 0 .failed)])).resolve
        false .null).fault = some (.misuse .emptyCache) := by
  have unsized : ¬ (standardShelf.afterCalls (resizedCalls.take 1)).Constructible := by
    rw [constructible_iff]
    rintro ⟨n, same⟩
    have negative : (-1 : Int) = n := Value.int.inj same
    omega
  exact ⟨rfl, unsized, ofRecord_of_not_constructible unsized, by decide +kernel⟩

end Collection

end PageFlattening
