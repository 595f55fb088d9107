import PageFlattening.Proofs.Redirects

/-! Resolving references as one map from old slots to new ones. `Workable` is the little that the
passes need; it survives every operation, also one that stops half way. What a completed resolution
leaves in storage is then a function of the built models that were held before, `own?`, and of
nothing else: neither of earlier redirects nor of the order of the cache. -/
namespace PageFlattening

namespace Collection

variable {K : Type}

structure Workable (c : Collection K) : Prop where
  room : 0 < c.capacity
  redirects : c.RedirectsBelow
  attached : ∀ p m, c.slot? p = some m → m.attached = true
  cached : ∀ m ∈ c.cache, m.isRedirect = false ∧ m.attached = true

theorem own?_cases {c : Collection K} {p : Nat} {m : PageModel K} (h : c.own? p = some m) :
    (c.slot? p = some m ∧ m.isRedirect = false) ∨ (m ∈ c.cache ∧ m.page = p) := by
  rw [own?, Option.or_eq_some_iff] at h
  rcases h with stored | ⟨_, cached⟩
  · exact Or.inl (builtPart_eq_some_iff.mp stored)
  · obtain ⟨member, page⟩ := mem_cache_of_cached? cached
    exact Or.inr ⟨member, by omega⟩

theorem Workable.own?_isRedirect {c : Collection K} (h : c.Workable) {p : Nat} {m : PageModel K}
    (held : c.own? p = some m) : m.isRedirect = false := by
  rcases own?_cases held with ⟨_, built⟩ | ⟨member, _⟩
  · exact built
  · exact (h.cached m member).1

/-! Before the check. -/

theorem dropRedirects_settings (c : Collection K) : c.dropRedirects.settings = c.settings :=
  (foldl_dropRedirect c c.span).1.settings

theorem dropRedirects_cacheSize (c : Collection K) : c.dropRedirects.cacheSize = c.cacheSize :=
  (foldl_dropRedirect c c.span).1.cacheSize

theorem dropRedirects_declaredPages (c : Collection K) :
    c.dropRedirects.declaredPages = c.declaredPages :=
  (foldl_dropRedirect c c.span).1.declaredPages

theorem reopened_ledger (c : Collection K) : SameLedger c.dropRedirects c.reopened :=
  (restoreCached_ledger _).trans (reserve_ledger _ _)

theorem reopened_settings (c : Collection K) : c.reopened.settings = c.settings :=
  (reopened_ledger c).settings.trans (dropRedirects_settings c)

theorem reopened_cacheSize (c : Collection K) : c.reopened.cacheSize = c.cacheSize :=
  (reopened_ledger c).cacheSize.trans (dropRedirects_cacheSize c)

theorem reopened_declaredPages (c : Collection K) :
    c.reopened.declaredPages = c.declaredPages :=
  (reopened_ledger c).declaredPages.trans (dropRedirects_declaredPages c)

theorem restored_slot? {c : Collection K} (h : c.Workable) (q : Nat) :
    c.dropRedirects.restoreCached.slot? q = c.own? q := by
  have room : 0 < c.dropRedirects.capacity := by
    rw [dropRedirects_capacity]
    exact h.room
  have same : c.dropRedirects.cached? q = c.cached? q := by
    rw [cached?, dropRedirects_cache, cached?]
  rw [restoreCached_slot? room, dropRedirects_slot? h.redirects, same, own?]
  cases found : c.cached? q with
  | none => rfl
  | some m =>
      have attached := (h.cached m (mem_cache_of_cached? found).1).2
      rw [Option.map_some, PageModel.adopted_eq attached]

theorem reopened_slot? {c : Collection K} (h : c.Workable) (q : Nat) :
    c.reopened.slot? q = c.own? q := by
  rw [reopened, reserve_slot?, restored_slot? h]

theorem reopened_pageCount_le {c : Collection K} (h : c.Workable) :
    c.reopened.pageCount ≤ c.reopened.capacity := by
  obtain ⟨k, hk⟩ := restoreCached_capacity c.dropRedirects
  have room : 0 < c.dropRedirects.restoreCached.capacity := by
    rw [hk, dropRedirects_capacity]
    exact Nat.mul_pos h.room (Nat.two_pow_pos k)
  have fits := lt_capacityFor room (c.dropRedirects.restoreCached.pageCount - 1)
  rw [reopened, (reserve_ledger _ _).pageCount, reserve_capacity]
  omega

/-- The pages that are checked: those announced and those up to the highest built model in storage.
-/
theorem lt_reopened_pageCount_iff {c : Collection K} (h : c.Workable) (q : Nat) :
    q < c.reopened.pageCount ↔ q < c.declaredPages ∨ ∃ r, q ≤ r ∧ c.holdsBuilt r = true := by
  have top := (dropRedirects_top c).le_iff q
  have built : ∀ r, (c.dropRedirects.slot? r).isSome ↔ c.holdsBuilt r = true := by
    intro r
    rw [dropRedirects_slot? h.redirects, Option.isSome_iff_exists, holdsBuilt_iff]
    simp only [builtPart_eq_some_iff]
  simp only [built] at top
  rw [(reopened_ledger c).pageCount, pageCount, dropRedirects_declaredPages, ← top]
  omega

def announcing (c : Collection K) (pages : Nat) : Collection K :=
  { c with declaredPages := max pages c.declaredPages }

theorem announcing_workable {c : Collection K} (h : c.Workable) (n : Nat) :
    (c.announcing n).Workable := ⟨h.room, h.redirects, h.attached, h.cached⟩

theorem restore_slot? {c : Collection K} (h : c.Workable) (q : Nat) :
    c.restore.slot? q = c.own? q := restored_slot? h q

theorem restore_declaredPages (c : Collection K) : c.restore.declaredPages = c.declaredPages :=
  (restoreCached_ledger _).declaredPages.trans (dropRedirects_declaredPages c)

theorem restore_top (c : Collection K) : Top c.restore c.restore.maxPage :=
  (refresh_top c.dropRedirects.restoreCached).congr fun _ => rfl

/-! After the check. -/

theorem settled_slot? (c : Collection K) (bound q : Nat) :
    (c.settled bound).slot? q = (c.redirectPages bound).slot? q := rfl

theorem settled_cache (c : Collection K) (bound : Nat) : (c.settled bound).cache = c.cache :=
  redirectPages_cache c bound

theorem settled_declaredPages (c : Collection K) (bound : Nat) :
    (c.settled bound).declaredPages = c.declaredPages :=
  (redirectPages_ledger c bound).declaredPages

theorem settled_top (c : Collection K) (bound : Nat) :
    Top (c.settled bound) (c.settled bound).maxPage :=
  (refresh_top (c.redirectPages bound)).congr fun _ => rfl

def Qualifies (c : Collection K) (untested : Bool) (page : Nat) : Prop :=
  ∃ m, c.own? page = some m ∧ m.passes c.settings.thresholds untested = true

theorem keptPart_own? {c : Collection K} (h : c.Workable) (untested : Bool) (p : Nat)
    (m : PageModel K) :
    keptPart c.settings.thresholds untested (c.own? p) = some m ↔
      ∃ held, c.own? p = some held ∧ held.passes c.settings.thresholds untested = true ∧
        m = held.judged c.settings.thresholds untested := by
  rw [keptPart]
  cases held : c.own? p with
  | none => simp
  | some own =>
      have verdict := PageModel.judged_verticalValid (h.own?_isRedirect held)
        c.settings.thresholds untested
      rw [Option.map_some, Option.filter, verdict]
      constructor
      · intro kept
        split at kept
        · rename_i passes
          exact ⟨own, rfl, passes, (Option.some.inj kept).symm⟩
        · cases kept
      · rintro ⟨other, same, passes, rfl⟩
        cases same
        rw [if_pos passes]

theorem keptPart_isSome_iff {c : Collection K} (h : c.Workable) (untested : Bool) (p : Nat) :
    (keptPart c.settings.thresholds untested (c.own? p)).isSome ↔ c.Qualifies untested p := by
  rw [Option.isSome_iff_exists, Qualifies]
  constructor
  · rintro ⟨m, kept⟩
    obtain ⟨held, own, passes, _⟩ := (keptPart_own? h untested p m).mp kept
    exact ⟨held, own, passes⟩
  · rintro ⟨held, own, passes⟩
    exact ⟨_, (keptPart_own? h untested p _).mpr ⟨held, own, passes, rfl⟩⟩

/-- What a review of the pages below a bound has left: built models that count as valid with their
verdict, redirects to donors, and beyond the bound whatever was there. -/
structure Reviewed (c : Collection K) (untested : Bool) (bound : Nat) (after : Collection K) :
    Prop where
  kept : ∀ p m, p < bound → c.own? p = some m → m.passes c.settings.thresholds untested = true →
    after.slot? p = some (m.judged c.settings.thresholds untested)
  redirected : ∀ p, p < bound → ¬ c.Qualifies untested p → ∀ m, after.slot? p = some m ↔
    ∃ d, IsDonor (fun q => q < bound ∧ c.Qualifies untested q) c.settings.maxDistance p d ∧
      m = redirectTo c.settings p d
  beyond : ∀ p, bound ≤ p → after.slot? p = c.own? p

/-! The check of all pages. -/

section Checks

variable [Scalar K]

theorem each_checkPage_frame (untested : Bool) (c : Collection K) (pages : List Nat) :
    SameLedger c (Outcome.each (checkPage untested) c pages).state ∧
      (Outcome.each (checkPage untested) c pages).state.capacity = c.capacity := by
  refine Outcome.each_invariant (P := fun d => SameLedger c d ∧ d.capacity = c.capacity) ?_ pages
    ⟨SameLedger.refl c, rfl⟩
  rintro d p ⟨ledger, capacity⟩
  exact ⟨ledger.trans (checkPage_ledger untested d p),
    (checkPage_capacity untested d p).trans capacity⟩

theorem each_checkPage_slot? (untested : Bool) (c : Collection K) {pages : List Nat}
    (distinct : pages.Nodup) (runs : (Outcome.each (checkPage untested) c pages).fault = none)
    (q : Nat) :
    (Outcome.each (checkPage untested) c pages).state.slot? q =
      if q ∈ pages then keptPart c.settings.thresholds untested (c.slot? q) else c.slot? q := by
  refine each_slot? (P := fun d => d.settings = c.settings)
    (f := fun _ => keptPart c.settings.thresholds untested) ?_ ?_ distinct rfl runs q
  · intro d p settings
    exact (checkPage_ledger untested d p).settings.trans settings
  · intro d p r settings _
    rw [checkPage_slot?, settings]

theorem checkPage_fault {c : Collection K} {bound : Nat} (h : c.cacheSize = .int bound)
    (untested : Bool) (page : Nat) : (checkPage untested c page).fault = none := by
  rw [checkPage_eq]
  split
  · rfl
  · split
    · rfl
    · exact setAside_int (by rw [(setSlot_ledger c page none).cacheSize, h]) _

theorem each_checkPage_fault {c : Collection K} {bound : Nat} (h : c.cacheSize = .int bound)
    (untested : Bool) (pages : List Nat) :
    (Outcome.each (checkPage untested) c pages).fault = none := by
  refine Outcome.each_fault (P := fun d => d.cacheSize = .int bound) ?_ ?_ pages h
  · intro d p size
    exact (checkPage_ledger untested d p).cacheSize.trans size
  · intro d p size
    exact checkPage_fault size untested p

/-! The whole resolution. -/

inductive Announces : Value K → Nat → Prop
  | omitted : Announces .null 0
  | given {v : Value K} {n : Nat} (h : checkPageCount v = .ok n) : Announces v n

theorem Announces.unique {pages : Value K} {n k : Nat} (h : Announces pages n)
    (g : Announces pages k) : n = k := by
  cases h with
  | omitted =>
      cases g with
      | omitted => rfl
      | given g => cases g
  | given h =>
      cases g with
      | omitted => cases h
      | given g => exact Except.ok.inj (h.symm.trans g)

theorem announce_eq {c : Collection K} {pages : Value K} {n : Nat} (h : Announces pages n) :
    c.announce pages = .done (c.announcing n) := by
  cases h with
  | omitted => simp [announce, announcing]
  | given h =>
      cases pages <;> simp_all [announce, announcing, checkPageCount, checkNatural]

theorem resolve_eq {c : Collection K} {pages : Value K} {n : Nat} (h : Announces pages n)
    (untested : Bool) :
    c.resolve untested pages =
      (Outcome.each (checkPage untested) (c.announcing n).reopened
        (List.range (c.announcing n).reopened.pageCount)).andThen fun checked =>
          .done (checked.settled (c.announcing n).reopened.pageCount) := by
  rw [resolve, announce_eq h, Outcome.done_andThen]

theorem resolve_of_refused {pages : Value K} (h : ∀ n, ¬ Announces pages n) :
    ∃ fault, ∀ (c : Collection K) (untested : Bool),
      c.resolve untested pages = .stopped c fault := by
  cases accepted : checkPageCount pages with
  | ok n => exact absurd (.given accepted) (h n)
  | error fault =>
      have given : pages ≠ .null := by
        intro omitted
        exact h 0 (omitted ▸ .omitted)
      refine ⟨fault, fun c untested => ?_⟩
      have stops : c.announce pages = .stopped c fault := by
        rw [announce, accepted]
        exact given
      rw [resolve, stops, Outcome.stopped_andThen]

theorem resolve_of_rejected (c : Collection K) {pages : Value K}
    (h : ∀ n, ¬ Announces pages n) (untested : Bool) :
    ∃ fault, c.resolve untested pages = .stopped c fault := by
  obtain ⟨fault, refused⟩ := resolve_of_refused h
  exact ⟨fault, refused c untested⟩

theorem settled_reviewed {c : Collection K} (h : c.Workable) (untested : Bool)
    (runs : (Outcome.each (checkPage untested) c.reopened
      (List.range c.reopened.pageCount)).fault = none) :
    Reviewed c untested c.reopened.pageCount
      ((Outcome.each (checkPage untested) c.reopened
        (List.range c.reopened.pageCount)).state.settled c.reopened.pageCount) := by
  have slots := each_checkPage_slot? untested c.reopened List.nodup_range runs
  obtain ⟨ledger, capacity⟩ := each_checkPage_frame untested c.reopened
    (List.range c.reopened.pageCount)
  generalize (Outcome.each (checkPage untested) c.reopened
    (List.range c.reopened.pageCount)).state = checked at slots ledger capacity
  have settings := ledger.settings.trans (reopened_settings c)
  have room : c.reopened.pageCount ≤ checked.capacity := by
    rw [capacity]
    exact reopened_pageCount_le h
  simp only [reopened_slot? h, List.mem_range, reopened_settings] at slots
  have occupied : ∀ q, q < c.reopened.pageCount →
      ((checked.slot? q).isSome ↔ c.Qualifies untested q) := by
    intro q below
    rw [slots, if_pos below, keptPart_isSome_iff h]
  refine ⟨?_, ?_, ?_⟩
  · intro p m below own passes
    rw [settled_slot?]
    refine redirectPages_slot?_of_some room ?_
    rw [slots, if_pos below]
    exact (keptPart_own? h untested p _).mpr ⟨m, own, passes, rfl⟩
  · intro p below fails m
    have empty : checked.slot? p = none := by
      rw [← Option.not_isSome_iff_eq_none, occupied p below]
      exact fails
    rw [settled_slot?, redirectPages_slot?_eq_some_iff room below empty, settings]
    constructor
    · rintro ⟨d, donor, rfl⟩
      exact ⟨d, donor.congr fun q => and_congr_right (occupied q), rfl⟩
    · rintro ⟨d, donor, rfl⟩
      exact ⟨d, donor.congr fun q => and_congr_right fun below => (occupied q below).symm, rfl⟩
  · intro p above
    rw [settled_slot?, redirectPages_slot? room, if_neg (Nat.not_lt.mpr above), slots,
      if_neg (Nat.not_lt.mpr above)]

end Checks

end Collection

end PageFlattening
