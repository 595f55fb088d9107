import PageFlattening.Proofs.Resolution

/-! When the number of pages becomes smaller without being assigned. It is the larger one of the
announced number and of what storage needs, and the announced number may have been assigned below
the second: then the pages between the two are lost as soon as nothing is held at or above the
highest of them. As long as no smaller number is assigned this does not come about. -/
namespace PageFlattening

namespace Collection

variable {K : Type}

/-- Fewer pages are announced than storage needs. -/
def Understated (c : Collection K) : Prop := (c.declaredPages : Int) ≤ c.maxPage

theorem pageCount_lt_iff {c d : Collection K} (top : Top d d.maxPage)
    (grown : c.declaredPages ≤ d.declaredPages) :
    d.pageCount < c.pageCount ↔
      (d.declaredPages : Int) ≤ c.maxPage ∧ ∀ q : Nat, c.maxPage ≤ q → d.slot? q = none := by
  have least := top.neg_one_le
  rw [pageCount, pageCount]
  constructor
  · intro fewer
    refine ⟨by omega, fun q above => ?_⟩
    rw [← Option.not_isSome_iff_eq_none]
    intro occupied
    have := top.above q occupied
    omega
  · intro both
    obtain ⟨lost, vacant⟩ := both
    have lower : d.maxPage < c.maxPage := by
      rcases top.attained with none | ⟨q, highest, occupied⟩
      · omega
      · by_contra reaches
        rw [vacant q (by omega)] at occupied
        cases occupied
    omega

/-! Single models, and redirects. -/

theorem insert_pageCount_le {c : Collection K} (room : 0 < c.capacity) (m : PageModel K) :
    c.pageCount ≤ (c.insert m).state.pageCount := by
  rcases insert_cases room m with ⟨same, _⟩ | ⟨_, _, d, inserted, same⟩
  · rw [same]
  · rw [same]
    change c.pageCount ≤ d.pageCount
    rw [pageCount, pageCount, inserted.declaredPages, inserted.maxPage]
    omega

theorem remove_pageCount_lt_iff (c : Collection K) (page : Int) :
    (c.remove page).2.pageCount < c.pageCount ↔
      c.Understated ∧ ∀ q : Nat, c.maxPage ≤ q → (c.slot? q).isSome →
        (q : Int) = page ∧ page = c.maxPage := by
  obtain ⟨d, same, ledger, _, slots, _⟩ := remove_cases c page
  have declared : (c.remove page).2.declaredPages = c.declaredPages := by
    rw [same]
    exact ledger.declaredPages
  have views : ∀ q : Nat, (c.remove page).2.slot? q =
      if (q : Int) = page ∧ (q : Int) ≤ c.maxPage then none else c.slot? q := by
    intro q
    rw [same]
    exact slots q
  have top : Top (c.remove page).2 (c.remove page).2.maxPage := by
    rw [same]
    exact refresh_top d
  rw [pageCount_lt_iff top (Nat.le_of_eq declared.symm), declared, Understated]
  refine and_congr_right fun _ => forall_congr' fun q => imp_congr_right fun above => ?_
  rw [views]
  cases held : c.slot? q with
  | none => simp
  | some m =>
      by_cases here : (q : Int) = page ∧ (q : Int) ≤ c.maxPage
      · rw [if_pos here]
        exact ⟨fun _ _ => by omega, fun _ => rfl⟩
      · rw [if_neg here]
        constructor
        · intro empty
          cases empty
        · intro alone
          have := alone rfl
          omega

theorem announcing_zero (c : Collection K) : c.announcing 0 = c := by
  rw [announcing, Nat.zero_max]

theorem holdsBuilt_eq_false_iff (c : Collection K) (q : Nat) :
    c.holdsBuilt q = false ↔ builtPart (c.slot? q) = none := by
  rw [holdsBuilt]
  cases c.slot? q with
  | none => simp
  | some m => cases redirect : m.isRedirect <;> simp [redirect]

theorem dropRedirects_pageCount_lt_iff {c : Collection K} (redirects : c.RedirectsBelow) (n : Nat) :
    (c.announcing n).dropRedirects.pageCount < c.pageCount ↔
      (c.announcing n).Understated ∧ ∀ q : Nat, c.maxPage ≤ q → c.holdsBuilt q = false := by
  have declared := dropRedirects_declaredPages (c.announcing n)
  have grown : c.declaredPages ≤ (c.announcing n).dropRedirects.declaredPages := by
    rw [declared]
    exact Nat.le_max_right _ _
  rw [pageCount_lt_iff (dropRedirects_top _) grown, declared]
  refine and_congr_right fun _ => forall_congr' fun q => imp_congr_right fun _ => ?_
  rw [dropRedirects_slot? (c := c.announcing n) redirects, holdsBuilt_eq_false_iff]
  rfl

theorem strip_pageCount_lt_iff {c : Collection K} (redirects : c.RedirectsBelow) :
    c.strip.pageCount < c.pageCount ↔
      c.Understated ∧ ∀ q : Nat, c.maxPage ≤ q → c.holdsBuilt q = false := by
  have dropped := dropRedirects_pageCount_lt_iff redirects 0
  rw [announcing_zero] at dropped
  exact dropped

theorem restore_pageCount_lt_iff {c : Collection K} (workable : c.Workable) :
    c.restore.pageCount < c.pageCount ↔
      c.Understated ∧ ∀ q : Nat, c.maxPage ≤ q → c.own? q = none := by
  have declared := restore_declaredPages c
  rw [pageCount_lt_iff (restore_top c) (Nat.le_of_eq declared.symm), declared, Understated]
  simp only [restore_slot? workable]

/-! Resolutions. -/

/-- The pages that a resolution goes through: those announced, and those up to the highest built
model in storage. What is brought back from the cache does not count. -/
def Visits (c : Collection K) (announced page : Nat) : Prop :=
  page < max announced c.declaredPages ∨ ∃ r, page ≤ r ∧ c.holdsBuilt r = true

def Served (c : Collection K) (untested : Bool) (announced page : Nat) : Prop :=
  (c.Visits announced page ∧ (c.Qualifies untested page ∨
    ∃ d, IsDonor (fun q => c.Visits announced q ∧ c.Qualifies untested q)
      c.settings.maxDistance page d)) ∨
  (¬ c.Visits announced page ∧ (c.own? page).isSome)

theorem lt_announcing_reopened_iff {c : Collection K} (workable : c.Workable) (n q : Nat) :
    q < (c.announcing n).reopened.pageCount ↔ c.Visits n q :=
  lt_reopened_pageCount_iff (announcing_workable workable n) q

theorem Reviewed.isSome_iff_served {c after : Collection K} {untested : Bool} {n bound : Nat}
    (h : Reviewed (c.announcing n) untested bound after) (visits : ∀ q, q < bound ↔ c.Visits n q)
    (q : Nat) : (after.slot? q).isSome ↔ c.Served untested n q := by
  rw [Served, ← visits]
  rcases Nat.lt_or_ge q bound with below | above
  · simp only [below, true_and, not_true, false_and, or_false]
    by_cases qualifies : c.Qualifies untested q
    · obtain ⟨m, own, passes⟩ := qualifies
      have kept := h.kept q m below own passes
      simp only [kept, Option.isSome_some, true_iff]
      exact Or.inl ⟨m, own, passes⟩
    · simp only [qualifies, false_or, Option.isSome_iff_exists]
      constructor
      · intro served
        obtain ⟨r, held⟩ := served
        obtain ⟨d, donor, _⟩ := (h.redirected q below qualifies r).mp held
        exact ⟨d, donor.congr fun p => and_congr_left fun _ => visits p⟩
      · intro found
        obtain ⟨d, donor⟩ := found
        exact ⟨_, (h.redirected q below qualifies _).mpr
          ⟨d, donor.congr fun p => and_congr_left fun _ => (visits p).symm, rfl⟩⟩
  · rw [h.beyond q above]
    simp only [Nat.not_lt.mpr above, false_and, not_false_eq_true, true_and, false_or]
    rfl

section Checks

variable [Scalar K]

theorem settled_pageCount_lt_iff {c : Collection K} (workable : c.Workable) (untested : Bool)
    {n bound : Nat} (hb : (c.announcing n).reopened.pageCount = bound)
    (runs : (Outcome.each (checkPage untested) (c.announcing n).reopened
      (List.range bound)).fault = none) :
    ((Outcome.each (checkPage untested) (c.announcing n).reopened
        (List.range bound)).state.settled bound).pageCount < c.pageCount ↔
      (c.announcing n).Understated ∧ ∀ q : Nat, c.maxPage ≤ q → ¬ c.Served untested n q := by
  subst hb
  have reviewed := settled_reviewed (announcing_workable workable n) untested runs
  have served := reviewed.isSome_iff_served (lt_announcing_reopened_iff workable n)
  have frame := (each_checkPage_frame untested (c.announcing n).reopened
    (List.range (c.announcing n).reopened.pageCount)).1.declaredPages
  generalize (Outcome.each (checkPage untested) (c.announcing n).reopened
    (List.range (c.announcing n).reopened.pageCount)).state = checked at reviewed served frame
  generalize (c.announcing n).reopened.pageCount = bound at reviewed served
  have declared : (checked.settled bound).declaredPages = (c.announcing n).declaredPages := by
    rw [settled_declaredPages, frame, reopened_declaredPages]
  have grown : c.declaredPages ≤ (checked.settled bound).declaredPages := by
    rw [declared]
    exact Nat.le_max_right _ _
  rw [pageCount_lt_iff (settled_top checked bound) grown, declared]
  refine and_congr_right fun _ => forall_congr' fun q => imp_congr_right fun _ => ?_
  rw [← served, Option.not_isSome_iff_eq_none]

/-- A resolution that stops has taken the redirects out and not yet brought the highest page up to
date, so that neither what came back from the cache nor what was set aside counts. -/
theorem checked_pageCount_lt_iff {c : Collection K} (workable : c.Workable) (untested : Bool)
    (n : Nat) (pages : List Nat) :
    (Outcome.each (checkPage untested) (c.announcing n).reopened pages).state.pageCount <
        c.pageCount ↔
      (c.announcing n).Understated ∧ ∀ q : Nat, c.maxPage ≤ q → c.holdsBuilt q = false := by
  have ledger := (each_checkPage_frame untested (c.announcing n).reopened pages).1
  rw [ledger.pageCount, (reopened_ledger _).pageCount]
  exact dropRedirects_pageCount_lt_iff workable.redirects n

theorem resolve_pageCount_lt_iff {c : Collection K} (workable : c.Workable) (untested : Bool)
    (pages : Value K) :
    (c.resolve untested pages).state.pageCount < c.pageCount ↔
      ∃ n, Announces pages n ∧ (c.announcing n).Understated ∧
        ((c.resolve untested pages).fault = none →
          ∀ q : Nat, c.maxPage ≤ q → ¬ c.Served untested n q) ∧
        ((c.resolve untested pages).fault ≠ none →
          ∀ q : Nat, c.maxPage ≤ q → c.holdsBuilt q = false) := by
  by_cases accepted : ∃ n, Announces pages n
  · obtain ⟨n, announced⟩ := accepted
    have only : ∀ P : Nat → Prop, (∃ k, Announces pages k ∧ P k) ↔ P n := by
      intro P
      constructor
      · intro found
        obtain ⟨k, other, holds⟩ := found
        rwa [announced.unique other]
      · intro holds
        exact ⟨n, announced, holds⟩
    rw [only, resolve_eq announced]
    by_cases runs : (Outcome.each (checkPage untested) (c.announcing n).reopened
        (List.range (c.announcing n).reopened.pageCount)).fault = none
    · rw [Outcome.eq_done_of_fault runs, Outcome.done_andThen, Outcome.done_state,
        settled_pageCount_lt_iff workable untested rfl runs]
      simp
    · rw [Outcome.andThen_of_fault runs, checked_pageCount_lt_iff workable]
      simp [runs]
  · obtain ⟨fault, same⟩ := resolve_of_rejected c (not_exists.mp accepted) untested
    rw [same, Outcome.stopped_state]
    constructor
    · intro fewer
      exact absurd fewer (Nat.lt_irrefl _)
    · intro found
      obtain ⟨n, announced, _⟩ := found
      exact absurd ⟨n, announced⟩ accepted

/-! Every state that is ever reached. -/

/-- Inserting a model never makes the pages fewer. Each of the other calls that change storage does
so exactly if fewer pages are announced than storage needs and the call leaves nothing at or above
the highest page: the model of that page was the last one and is removed, or stood there as a
redirect, or is set aside. -/
theorem pageCount_lt_iff_of_reachable {c : Collection K} (h : Reachable (fun _ _ => True) c) :
    (∀ m, c.pageCount ≤ (c.insert m).state.pageCount) ∧
    (∀ page : Int, (c.remove page).2.pageCount < c.pageCount ↔
      c.Understated ∧ ∀ q : Nat, c.maxPage ≤ q → (c.slot? q).isSome →
        (q : Int) = page ∧ page = c.maxPage) ∧
    (c.strip.pageCount < c.pageCount ↔
      c.Understated ∧ ∀ q : Nat, c.maxPage ≤ q → c.holdsBuilt q = false) ∧
    (c.restore.pageCount < c.pageCount ↔
      c.Understated ∧ ∀ q : Nat, c.maxPage ≤ q → c.own? q = none) ∧
    ∀ untested pages, (c.resolve untested pages).state.pageCount < c.pageCount ↔
      ∃ n, Announces pages n ∧ (c.announcing n).Understated ∧
        ((c.resolve untested pages).fault = none →
          ∀ q : Nat, c.maxPage ≤ q → ¬ c.Served untested n q) ∧
        ((c.resolve untested pages).fault ≠ none →
          ∀ q : Nat, c.maxPage ≤ q → c.holdsBuilt q = false) := by
  have workable := h.consistent.workable
  refine ⟨insert_pageCount_le workable.room, remove_pageCount_lt_iff c,
    strip_pageCount_lt_iff workable.redirects, restore_pageCount_lt_iff workable, ?_⟩
  exact resolve_pageCount_lt_iff workable

theorem Reachable.not_understated {c : Collection K} (h : Reachable Growing c) (n : Nat) :
    ¬ (c.announcing n).Understated := by
  intro lost
  have covered := h.covered
  have current := (h.mono fun _ _ grows => grows.keeps_cacheSize).current
  have count := covered.pageCount current.top
  rw [pageCount] at count
  change ((max n c.declaredPages : Nat) : Int) ≤ c.maxPage at lost
  omega

theorem pageCount_le_of_growing {c : Collection K} (h : Reachable Growing c) (page : Int)
    (untested : Bool) (pages : Value K) :
    c.pageCount ≤ (c.remove page).2.pageCount ∧ c.pageCount ≤ c.strip.pageCount ∧
      c.pageCount ≤ c.restore.pageCount ∧
      c.pageCount ≤ (c.resolve untested pages).state.pageCount := by
  have workable := h.consistent.workable
  have never := h.not_understated
  have stated : ¬ c.Understated := announcing_zero c ▸ never 0
  refine ⟨?_, ?_, ?_, ?_⟩
  · rw [← Nat.not_lt, remove_pageCount_lt_iff]
    exact fun both => stated both.1
  · rw [← Nat.not_lt, strip_pageCount_lt_iff workable.redirects]
    exact fun both => stated both.1
  · rw [← Nat.not_lt, restore_pageCount_lt_iff workable]
    exact fun both => stated both.1
  · rw [← Nat.not_lt, resolve_pageCount_lt_iff workable]
    intro found
    obtain ⟨n, _, lost, _⟩ := found
    exact never n lost

end Checks

def shortened : Collection Rat :=
  standardShelf.afterCalls [.insert (sheet 5 .failed), .assign .pageCount (.int 0)]

theorem shortened_reachable : Reachable (fun _ _ => True) shortened :=
  (standardShelf_reachable _).afterCalls fun _ _ _ => trivial

/-- Removing the model takes the pages below it along. -/
theorem removal_loses_pages :
    ¬ ∀ c : Collection Rat, Reachable (fun _ _ => True) c →
      ∀ page, c.pageCount ≤ (c.remove page).2.pageCount := by
  intro neverShrinks
  have kept := neverShrinks shortened shortened_reachable 5
  revert kept
  decide +kernel

theorem shortened_shrinks :
    Reachable (fun _ _ => True) shortened ∧ shortened.pageCount = 6 ∧
      (shortened.remove 5).2.pageCount = 0 ∧ shortened.Understated ∧
      ∀ q : Nat, shortened.maxPage ≤ q → (shortened.slot? q).isSome →
        (q : Int) = 5 ∧ 5 = shortened.maxPage := by
  have fewer : (shortened.remove 5).2.pageCount < shortened.pageCount := by decide +kernel
  refine ⟨shortened_reachable, by decide +kernel, by decide +kernel, ?_⟩
  exact ((pageCount_lt_iff_of_reachable shortened_reachable).2.1 5).mp fewer

end Collection

end PageFlattening
