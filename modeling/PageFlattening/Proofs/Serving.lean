import PageFlattening.Proofs.Cycles

/-! The model that a page is rendered with. After a resolution it is read off the models that pass:
the page's own, or else that of its donor (`Serves`); and inserting a model changes which models
pass for the page of that model alone. -/
namespace PageFlattening

namespace Collection

variable {K : Type}

/-- The model that serves a page, by the valid models of all pages: its own, or else that of its
donor; none if there is neither. -/
inductive Serves (valid : Nat → Option (PageModel K)) (maxDistance page : Nat) :
    Option (PageModel K) → Prop
  | own {m : PageModel K} (held : valid page = some m) : Serves valid maxDistance page (some m)
  | borrowed {q : Nat} {m : PageModel K} (absent : valid page = none)
      (donor : IsDonor (fun r => (valid r).isSome) maxDistance page q) (held : valid q = some m) :
      Serves valid maxDistance page (some m)
  | unserved (absent : valid page = none)
      (far : ∀ q, (valid q).isSome → q % 2 = page % 2 →
        maxDistance < ((page : Int) - q).natAbs) :
      Serves valid maxDistance page none

namespace Serves

variable {valid : Nat → Option (PageModel K)} {maxDistance page : Nat}

theorem no_donor (far : ∀ q, (valid q).isSome → q % 2 = page % 2 →
      maxDistance < ((page : Int) - q).natAbs) {q : Nat}
    (donor : IsDonor (fun r => (valid r).isSome) maxDistance page q) : False := by
  have away := far q donor.valid donor.parity
  have within := donor.within
  omega

theorem unique {a b : Option (PageModel K)} (h : Serves valid maxDistance page a)
    (g : Serves valid maxDistance page b) : a = b := by
  cases h with
  | own held =>
      cases g with
      | own held' => rw [← held, held']
      | borrowed absent => simp [held] at absent
      | unserved absent => simp [held] at absent
  | borrowed absent donor held =>
      cases g with
      | own held' => simp [absent] at held'
      | borrowed _ donor' held' => rw [← held, donor.unique donor', held']
      | unserved _ far => exact (no_donor far donor).elim
  | unserved absent far =>
      cases g with
      | own held => simp [absent] at held
      | borrowed _ donor => exact (no_donor far donor).elim
      | unserved => rfl

theorem exists_valid {m : PageModel K} (h : Serves valid maxDistance page (some m)) :
    ∃ q, valid q = some m := by
  cases h with
  | own held => exact ⟨page, held⟩
  | borrowed _ _ held => exact ⟨_, held⟩

end Serves

theorem exists_serves (valid : Nat → Option (PageModel K)) (maxDistance page : Nat) :
    ∃ served, Serves valid maxDistance page served := by
  cases held : valid page with
  | some m => exact ⟨some m, .own held⟩
  | none =>
      by_cases near : ∃ q, (valid q).isSome ∧ q % 2 = page % 2 ∧
          ((page : Int) - q).natAbs ≤ maxDistance
      · obtain ⟨q, found, parity, within⟩ := near
        obtain ⟨donor, isDonor⟩ :
            ∃ r, IsDonor (fun r => (valid r).isSome) maxDistance page r :=
          exists_isDonor found parity within
        obtain ⟨m, held'⟩ := Option.isSome_iff_exists.mp isDonor.valid
        exact ⟨some m, .borrowed held isDonor held'⟩
      · refine ⟨none, .unserved held fun q found parity => ?_⟩
        by_contra within
        exact near ⟨q, found, parity, Nat.not_lt.mp within⟩

theorem model?_of_top {c : Collection K} (top : Top c c.maxPage) (p : Nat) :
    c.model? p = c.slot? p := by
  by_cases below : (p : Int) ≤ c.maxPage
  · exact model?_eq_slot? c p below
  · have beyond : (p : Int) < 0 ∨ c.maxPage < p := by omega
    rw [model?, if_pos beyond, eq_comm, ← Option.not_isSome_iff_eq_none]
    exact fun occupied => below (top.above p occupied)

namespace Arranged

variable {c after : Collection K} {untested : Bool} {bound : Nat}

theorem slot?_of_passing (h : Arranged c untested bound after)
    (below : ∀ p m, c.own? p = some m → p < bound) {p : Nat} {m : PageModel K}
    (passes : c.passing untested p = some m) : after.slot? p = some m := by
  obtain ⟨old, own, _⟩ := keptPart_eq_some_iff.mp passes
  rw [h.slot?, assigned, if_pos (below p old own), filledPart, passes]
  rfl

theorem nearest?_eq_some_iff (below : ∀ p m, c.own? p = some m → p < bound) (p q : Nat) :
    nearest? c.settings.maxDistance p
        (((List.range bound).filter fun r => (c.passing untested r).isSome).filter
          fun r => r % 2 == p % 2) = some q ↔
      IsDonor (fun r => (c.passing untested r).isSome) c.settings.maxDistance p q := by
  have within : ∀ r, r ∈ (List.range bound).filter (fun r => (c.passing untested r).isSome) ↔
      (c.passing untested r).isSome := by
    intro r
    rw [List.mem_filter, List.mem_range, and_iff_right_iff_imp]
    intro passes
    obtain ⟨m, kept⟩ := Option.isSome_iff_exists.mp passes
    obtain ⟨old, own, _⟩ := keptPart_eq_some_iff.mp kept
    exact below r old own
  rw [Collection.nearest?_eq_some_iff _ _ (List.pairwise_lt_range.filter _)]
  constructor
  · exact fun donor => donor.congr within
  · exact fun donor => donor.congr fun r => (within r).symm

theorem serves (h : Arranged c untested bound after) (workable : c.Workable)
    (below : ∀ p m, c.own? p = some m → p < bound) {p : Nat} (inside : p < bound) :
    Serves (c.passing untested) c.settings.maxDistance p (after.effective p) := by
  have valid : ∀ {q m}, c.passing untested q = some m → m.verticalValid = true := by
    intro q m passes
    obtain ⟨old, _, rfl, valid⟩ := keptPart_eq_some_iff.mp passes
    exact valid
  have built : ∀ {q m}, c.passing untested q = some m → m.redirect = none := by
    intro q m passes
    simpa [PageModel.isRedirect] using passing_isRedirect workable passes
  rw [effective, model?_of_top h.top]
  cases passes : c.passing untested p with
  | some m =>
      rw [h.slot?_of_passing below passes]
      simp only [built passes, valid passes, if_true]
      exact .own passes
  | none =>
      rw [h.slot?, assigned, if_pos inside, filledPart, passes, Option.none_or]
      cases found : nearest? c.settings.maxDistance p _ with
      | some q =>
          have donor := (nearest?_eq_some_iff below p q).mp found
          obtain ⟨m, passes'⟩ := Option.isSome_iff_exists.mp donor.valid
          have kind : m.isRedirect = false := passing_isRedirect workable passes'
          have redirect : (redirectTo c.settings p q : PageModel K).redirect = some q := rfl
          simp only [Option.map_some, redirect, model?_of_top h.top,
            h.slot?_of_passing below passes', kind, valid passes', Bool.not_true, Bool.or_false,
            Bool.false_eq_true, if_false]
          exact .borrowed passes donor passes'
      | none =>
          refine .unserved passes fun q passes' parity => ?_
          by_contra near
          obtain ⟨r, donor⟩ :
              ∃ r, IsDonor (fun r => (c.passing untested r).isSome) c.settings.maxDistance p r :=
            exists_isDonor passes' parity (Nat.not_lt.mp near)
          rw [(nearest?_eq_some_iff below p r).mpr donor] at found
          cases found

end Arranged

/-! What passes at the beginning, and after an insertion. -/

theorem empty_passing (settings : Settings) (size q : Nat) :
    (empty settings size : Collection K).passing false q = none := by
  rw [passing, own?, empty_slot?]
  rfl

theorem cached?_uncached {c d : Collection K} {page q : Nat} (h : d.cache = c.uncached page)
    (away : q ≠ page) : d.cached? q = c.cached? q := by
  rw [cached?, cached?, h, uncached, List.find?_filter]
  congr 1
  funext m
  by_cases same : (m.page : Int) = q
  · have other : (q : Int) ≠ page := by omega
    simp [same, other]
  · simp [same]

theorem Inserted.passing {c d : Collection K} {m : PageModel K} (i : Inserted c m d)
    (built : m.isRedirect = false) (q : Nat) :
    d.passing false q =
      if q = m.page then keptPart c.settings.thresholds false (some m.adopted)
      else c.passing false q := by
  rw [Collection.passing, Collection.passing, i.settings, own?, own?, i.slot?]
  by_cases here : q = m.page
  · -- A check upon entry says the same as the one that follows.
    have kind : (c.entered m).isRedirect = false := by
      rw [entered]
      split
      · rw [PageModel.judged_isRedirect]
        exact built
      · exact built
    have again : (c.entered m).judged c.settings.thresholds false =
        m.adopted.judged c.settings.thresholds false := by
      rw [entered]
      split
      · rw [PageModel.judged_judged]
      · rfl
    rw [if_pos here, if_pos here]
    simp [kind, keptPart, again]
  · rw [if_neg here, if_neg here, cached?_uncached i.cache here]

end Collection

end PageFlattening
