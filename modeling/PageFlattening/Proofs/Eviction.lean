import PageFlattening.Proofs.Cycles
import PageFlattening.Proofs.PageCount

/-!
Which models are lost when a resolution sets more of them aside than there is room for. The cache is
emptied into storage before the check and filled again in page order, so that the order of use that
it had before has no part in the choice: it is the lowest pages that go. A model that was used more
recently can thus be dropped while another one stays.
-/
namespace PageFlattening

theorem mem_rtake_iff {pages : List Nat} (sorted : pages.Pairwise (· < ·)) {p : Nat}
    (member : p ∈ pages) (n : Nat) :
    p ∈ pages.rtake n ↔ (pages.filter (p ≤ ·)).length ≤ n := by
  induction pages with
  | nil => cases member
  | cons q rest ih =>
      obtain ⟨above, sorted⟩ := List.pairwise_cons.mp sorted
      rcases List.mem_cons.mp member with rfl | later
      · have all : (p :: rest).filter (p ≤ ·) = p :: rest := by
          rw [List.filter_eq_self]
          intro r inside
          rcases List.mem_cons.mp inside with rfl | further
          · simp
          · simpa using Nat.le_of_lt (above r further)
        have once : p ∉ rest := fun again => Nat.lt_irrefl p (above p again)
        rw [all, List.rtake]
        by_cases fits : (p :: rest).length ≤ n
        · rw [Nat.sub_eq_zero_of_le fits, List.drop_zero]
          exact iff_of_true member fits
        · obtain ⟨k, drop⟩ : ∃ k, (p :: rest).length - n = k + 1 :=
            ⟨(p :: rest).length - n - 1, by omega⟩
          rw [drop, List.drop_succ_cons]
          exact iff_of_false (fun kept => once (List.mem_of_mem_drop kept)) fits
      · have less := above p later
        have skipped : (q :: rest).filter (p ≤ ·) = rest.filter (p ≤ ·) := by
          rw [List.filter_cons_of_neg (by simpa using less)]
        rw [skipped, ← ih sorted later, List.rtake, List.rtake, List.length_cons]
        by_cases fits : rest.length + 1 ≤ n
        · rw [Nat.sub_eq_zero_of_le fits, Nat.sub_eq_zero_of_le (by omega)]
          simp [later]
        · rw [Nat.sub_add_comm (by omega), List.drop_succ_cons]

theorem rtake_snoc {α : Type} (xs : List α) (y : α) {n k : Nat} (h : k ≤ n + 1) :
    (xs.rtake n ++ [y]).rtake k = (xs ++ [y]).rtake k := by
  simp only [List.rtake_eq_reverse_take_reverse, List.reverse_append, List.reverse_reverse,
    List.reverse_singleton, List.singleton_append]
  cases k with
  | zero => rfl
  | succ k => rw [List.take_succ_cons, List.take_succ_cons, List.take_take, min_eq_left (by omega)]

theorem exists_cons_of_snoc {α : Type} (xs : List α) (y : α) :
    ∃ first rest, xs ++ [y] = first :: rest ∧ xs.length = rest.length := by
  cases xs with
  | nil => exact ⟨y, [], rfl, rfl⟩
  | cons x others => exact ⟨x, others ++ [y], rfl, by simp⟩

theorem Outcome.each_append {σ α : Type} (step : σ → α → Outcome σ) (s : σ) (xs ys : List α) :
    each step s (xs ++ ys) = (each step s xs).andThen fun next => each step next ys := by
  induction xs generalizing s with
  | nil => rfl
  | cons a rest ih =>
      rw [List.cons_append, each, each]
      by_cases runs : (step s a).fault = none
      · rw [eq_done_of_fault runs, done_andThen, done_andThen]
        exact ih _
      · rw [andThen_of_fault runs, andThen_of_fault runs, andThen_of_fault runs]

namespace Collection

variable {K : Type}

/-! The cache as it fills. -/

section Checks

variable [Scalar K]

def keptOf (size : Value K) : Nat → Nat
  | 0 => 0
  | k + 1 =>
      if size.equalsInt 0 then 0
      else
        match size.lessThan (keptOf size k + 1) with
        | .ok true => keptOf size k
        | _ => keptOf size k + 1

theorem keptOf_int (size k : Nat) : keptOf (.int size : Value K) k = min size k := by
  induction k with
  | zero => rw [keptOf, Nat.min_zero]
  | succ k ih =>
      rw [keptOf, ih]
      by_cases zero : size = 0
      · simp [Value.equalsInt, zero]
      · have positive : (.int size : Value K).equalsInt 0 = false := by
          simp [Value.equalsInt, zero]
        rw [positive]
        by_cases full : size ≤ k
        · have more : (size : Int) < size + 1 := by omega
          simp only [min_eq_left full, Value.lessThan, more]
          exact (min_eq_left (Nat.le_succ_of_le full)).symm
        · have less : ¬ (size : Int) < k + 1 := by omega
          simp only [min_eq_right (Nat.le_of_not_le full), Value.lessThan, less]
          exact (min_eq_right (Nat.not_le.mp full)).symm

theorem keptOf_succ_le (size : Value K) (k : Nat) : keptOf size (k + 1) ≤ keptOf size k + 1 := by
  rw [keptOf]
  split
  · omega
  · split <;> omega

theorem keptOf_of_zero {size : Value K} (zero : size.equalsInt 0 = true) (k : Nat) :
    keptOf size k = 0 := by
  cases k with
  | zero => rfl
  | succ k => rw [keptOf, if_pos zero]

theorem keptOf_le (size : Value K) (k : Nat) : keptOf size k ≤ k := by
  induction k with
  | zero => exact Nat.le_refl 0
  | succ k ih =>
      have step := keptOf_succ_le size k
      omega

theorem lessThan_eq_ok {v : Value K} {bound : Int} {less : Bool} (h : v.lessThan bound = .ok less)
    (other : Int) : ∃ less', v.lessThan other = .ok less' := by
  cases v with
  | bool b => exact ⟨_, rfl⟩
  | int n => exact ⟨_, rfl⟩
  | real x => exact ⟨_, rfl⟩
  | _ => cases h

def Steady (c : Collection K) : Prop :=
  c.cacheSize.equalsInt 0 = true ∨ c.cacheSize.lessThan c.cache.length = .ok false

theorem trim_fits {bound : Value K} (c : Collection K) {models : List (PageModel K)}
    (fits : bound.lessThan models.length = .ok false) :
    trim bound c models = .done { c with cache := models } := by
  cases models with
  | nil =>
      change bound.lessThan 0 = .ok false at fits
      rw [trim, fits]
  | cons m rest =>
      change bound.lessThan (rest.length + 1) = .ok false at fits
      rw [trim, fits]

theorem trim_full {bound : Value K} (c : Collection K) {m : PageModel K}
    {rest : List (PageModel K)} (full : bound.lessThan (m :: rest).length = .ok true) :
    trim bound c (m :: rest) = trim bound (c.release m) rest := by
  change bound.lessThan (rest.length + 1) = .ok true at full
  rw [trim, full]

theorem trim_steady (bound : Value K) (c : Collection K) (models : List (PageModel K))
    (runs : (trim bound c models).fault = none) :
    bound.lessThan (trim bound c models).state.cache.length = .ok false := by
  induction models generalizing c with
  | nil =>
      cases compared : bound.lessThan 0 with
      | error fault => simp [trim, compared] at runs
      | ok less =>
          cases less with
          | true => simp [trim, compared] at runs
          | false => simp [trim, compared]
  | cons m rest ih =>
      cases compared : bound.lessThan (rest.length + 1) with
      | error fault => simp [trim, compared] at runs
      | ok less =>
          cases less with
          | true =>
              simp only [trim, compared] at runs ⊢
              exact ih _ runs
          | false => simp [trim, compared]

theorem setAside_steady {c : Collection K} {m : PageModel K}
    (runs : (c.setAside m).fault = none) : (c.setAside m).state.Steady := by
  have ledger := (setAside_frame c m).1
  rw [Steady, ledger.cacheSize]
  rw [setAside] at runs ⊢
  split at runs
  · rename_i zero
    exact Or.inl zero
  · rename_i positive
    rw [if_neg positive]
    exact Or.inr (trim_steady _ c _ runs)

theorem setAside_of_steady {c : Collection K} (h : c.Steady) {m : PageModel K}
    (others : c.uncached m.page = c.cache) : (c.setAside m).fault = none := by
  rw [setAside, others]
  split
  · rfl
  · rename_i positive
    have fits := h.resolve_left positive
    obtain ⟨first, rest, models, length⟩ := exists_cons_of_snoc c.cache m
    obtain ⟨less, compared⟩ := lessThan_eq_ok fits (first :: rest).length
    rw [models]
    cases less with
    | false => rw [trim_fits c compared, Outcome.done_fault]
    | true =>
        rw [length] at fits
        rw [trim_full c compared, trim_fits _ fits, Outcome.done_fault]

structure Retains (c : Collection K) (aside : List (PageModel K)) : Prop where
  cache : c.cache = aside.rtake (keptOf c.cacheSize aside.length)
  steady : aside ≠ [] → c.Steady

theorem Retains.length {c : Collection K} {aside : List (PageModel K)} (h : c.Retains aside) :
    c.cache.length = keptOf c.cacheSize aside.length := by
  have least := keptOf_le c.cacheSize aside.length
  rw [h.cache, List.rtake, List.length_drop]
  omega

theorem Retains.setAside {c : Collection K} {aside : List (PageModel K)} (h : c.Retains aside)
    {m : PageModel K} (others : c.uncached m.page = c.cache)
    (runs : (c.setAside m).fault = none) : (c.setAside m).state.Retains (aside ++ [m]) := by
  refine ⟨?_, fun _ => setAside_steady runs⟩
  rw [(setAside_frame c m).1.cacheSize, List.length_append, List.length_singleton,
    ← rtake_snoc aside m (keptOf_succ_le c.cacheSize aside.length), ← h.cache, keptOf, ← h.length]
  rw [Collection.setAside, others] at runs ⊢
  by_cases zero : c.cacheSize.equalsInt 0 = true
  · have none : c.cache = [] := by
      rw [← List.length_eq_zero_iff, h.length, keptOf_of_zero zero]
    rw [if_pos zero, if_pos zero, List.rtake_zero]
    exact none
  · rw [if_neg zero] at runs ⊢
    rw [if_neg zero]
    obtain ⟨first, rest, models, length⟩ := exists_cons_of_snoc c.cache m
    rw [models] at runs ⊢
    rw [length]
    cases compared : c.cacheSize.lessThan (rest.length + 1) with
    | error fault => simp [trim, compared] at runs
    | ok less =>
        cases less with
        | false =>
            rw [trim_fits c compared]
            exact (rtake_of_length_le (Nat.le_refl _)).symm
        | true =>
            rw [trim_full c compared] at runs ⊢
            have kept : (trim c.cacheSize (c.release first) rest).state.cache = rest := by
              by_cases empty : aside = []
              · -- The model is the first one, and there is no room for it.
                subst empty
                have none : rest = [] := by
                  rw [← List.length_eq_zero_iff, ← length, h.length]
                  rfl
                have suffix := (trim_frame c.cacheSize (c.release first) rest).2.2
                rw [none] at suffix ⊢
                exact List.suffix_nil.mp suffix
              · have fits := (h.steady empty).resolve_left zero
                rw [length] at fits
                rw [trim_fits _ fits]
                rfl
            rw [kept]
            simp [List.rtake]

/-! A check of many pages. -/

omit [Scalar K] in
theorem Opened.uncached_eq {c : Collection K} (h : c.Opened) {p : Nat} {m : PageModel K}
    (held : c.slot? p = some m) : c.uncached m.page = c.cache := by
  have absent := h.not_mem_cachedPages held (h.built p m held)
  rw [uncached, List.filter_eq_self]
  intro other member
  have away : other.page ≠ p := fun same => absent (same ▸ List.mem_map_of_mem member)
  have apart : (other.page : Int) ≠ p := by omega
  simpa [(h.slots p m held).1] using apart

theorem checkPage_cases {c : Collection K} (h : c.Opened) (untested : Bool) (page : Nat) :
    (rejectedPart c.settings.thresholds untested (c.slot? page) = none ∧
      (checkPage untested c page).fault = none ∧
      (checkPage untested c page).state.cache = c.cache) ∨
    ∃ (d : Collection K) (m : PageModel K),
      rejectedPart c.settings.thresholds untested (c.slot? page) = some m ∧
      checkPage untested c page = d.setAside m ∧ d.uncached m.page = d.cache ∧
      d.cache = c.cache ∧ d.cacheSize = c.cacheSize := by
  rw [checkPage_eq]
  cases held : c.slot? page with
  | none => exact Or.inl ⟨rfl, rfl, rfl⟩
  | some m =>
      have others := h.uncached_eq held
      cases valid : (m.judged c.settings.thresholds untested).verticalValid with
      | true =>
          left
          simp [rejectedPart, Option.filter, valid]
      | false =>
          right
          refine ⟨c.setSlot page none, m.judged c.settings.thresholds untested, ?_, ?_, ?_,
            setSlot_cache c page none, (setSlot_ledger c page none).cacheSize⟩
          · simp [rejectedPart, Option.filter, valid]
          · simp [valid]
          · rw [PageModel.judged_page, setSlot_cache]
            exact others

theorem Steady.congr {c d : Collection K} (h : c.Steady) (cache : d.cache = c.cache)
    (cacheSize : d.cacheSize = c.cacheSize) : d.Steady := by
  rwa [Steady, cache, cacheSize]

theorem Retains.congr {c d : Collection K} {aside : List (PageModel K)} (h : c.Retains aside)
    (cache : d.cache = c.cache) (cacheSize : d.cacheSize = c.cacheSize) : d.Retains aside := by
  refine ⟨?_, fun some => (h.steady some).congr cache cacheSize⟩
  rw [cache, cacheSize, h.cache]

theorem checkPage_of_steady {c : Collection K} (opened : c.Opened) (h : c.Steady)
    (untested : Bool) (page : Nat) :
    (checkPage untested c page).fault = none ∧ (checkPage untested c page).state.Steady := by
  rcases checkPage_cases opened untested page with
    ⟨_, runs, cache⟩ | ⟨d, m, _, same, others, before⟩
  · exact ⟨runs, h.congr cache (checkPage_ledger untested c page).cacheSize⟩
  · have runs := setAside_of_steady (h.congr before.1 before.2) others
    rw [same]
    exact ⟨runs, setAside_steady runs⟩

theorem checkPage_retains {c : Collection K} (opened : c.Opened) {aside : List (PageModel K)}
    (h : c.Retains aside) {untested : Bool} {page : Nat}
    (runs : (checkPage untested c page).fault = none) :
    (checkPage untested c page).state.Retains
      (aside ++ (rejectedPart c.settings.thresholds untested (c.slot? page)).toList) := by
  rcases checkPage_cases opened untested page with
    ⟨none, _, cache⟩ | ⟨d, m, some, same, others, before⟩
  · rw [none, Option.toList_none, List.append_nil]
    exact h.congr cache (checkPage_ledger untested c page).cacheSize
  · rw [some, Option.toList_some]
    rw [same] at runs ⊢
    exact (h.congr before.1 before.2).setAside others runs

theorem each_checkPage_of_steady {c : Collection K} (opened : c.Opened) (h : c.Steady)
    (untested : Bool) (pages : List Nat) :
    (Outcome.each (checkPage untested) c pages).fault = none := by
  refine Outcome.each_fault (P := fun d : Collection K => d.Opened ∧ d.Steady) ?_ ?_ pages
    ⟨opened, h⟩
  · intro d p old
    exact ⟨checkPage_opened old.1 untested p, (checkPage_of_steady old.1 old.2 untested p).2⟩
  · intro d p old
    exact (checkPage_of_steady old.1 old.2 untested p).1

theorem each_checkPage_retains {c : Collection K} (opened : c.Opened) {aside : List (PageModel K)}
    (h : c.Retains aside) {untested : Bool} {pages : List Nat} (distinct : pages.Nodup)
    (runs : (Outcome.each (checkPage untested) c pages).fault = none) :
    (Outcome.each (checkPage untested) c pages).state.Retains (aside ++ pages.filterMap fun p =>
      rejectedPart c.settings.thresholds untested (c.slot? p)) := by
  induction pages generalizing c aside with
  | nil => simpa [Outcome.each] using h
  | cons p rest ih =>
      obtain ⟨fresh, distinct⟩ := List.nodup_cons.mp distinct
      have first := Outcome.fault_of_each_cons runs
      have later : ∀ q ∈ rest, (checkPage untested c p).state.slot? q = c.slot? q := by
        intro q member
        have away : q ≠ p := fun same => fresh (same ▸ member)
        rw [checkPage_slot?, if_neg away]
      rw [Outcome.each_cons_of_done (Outcome.eq_done_of_fault first)] at runs ⊢
      have retains := ih (checkPage_opened opened untested p) (checkPage_retains opened h first)
        distinct runs
      rw [(checkPage_ledger untested c p).settings,
        List.filterMap_congr fun q member => by rw [later q member], List.append_assoc] at retains
      rw [List.filterMap_cons]
      cases rejected : rejectedPart c.settings.thresholds untested (c.slot? p) with
      | none => simpa [rejected] using retains
      | some m => simpa [rejected] using retains

/-! A whole resolution. -/

/-- A page whose model a resolution comes to check, and finds invalid. -/
def FoundInvalid (c : Collection K) (untested : Bool) (pages : Value K) (p : Nat) : Prop :=
  ∃ n, Announces pages n ∧ p < (c.announcing n).reopened.pageCount ∧
    (Outcome.each (checkPage untested) (c.announcing n).reopened (List.range p)).fault = none ∧
    ∃ m, c.own? p = some m ∧ m.passes c.settings.thresholds untested = false

/-- Of two models in the cache that a resolution finds invalid, the one that was used less recently
does not stay while the other one goes. -/
def KeepsRecent (c : Collection K) (untested : Bool) (pages : Value K) : Prop :=
  ∀ a b, [b, a].Sublist c.cachedPages →
    c.FoundInvalid untested pages a → c.FoundInvalid untested pages b →
    ¬ (a ∉ (c.resolve untested pages).state.cachedPages ∧
      b ∈ (c.resolve untested pages).state.cachedPages)

def invalidFrom (c : Collection K) (untested : Bool) (n p : Nat) : Nat :=
  ((c.invalidPages untested (c.announcing n).reopened.pageCount).filter (p ≤ ·)).length

/-- The cache has room for all models that a resolution finds invalid from a page on. -/
def RoomFrom (c : Collection K) (untested : Bool) (pages : Value K) (p : Nat) : Prop :=
  ∃ n, Announces pages n ∧
    c.invalidFrom untested n p ≤ keptOf c.cacheSize (c.invalidFrom untested n 0)

omit [Scalar K] in
theorem invalidFrom_zero (c : Collection K) (untested : Bool) (n : Nat) :
    c.invalidFrom untested n 0 =
      (c.invalidPages untested (c.announcing n).reopened.pageCount).length := by
  rw [invalidFrom, List.filter_eq_self.mpr (by simp)]

omit [Scalar K] in
theorem invalidFrom_le (c : Collection K) (untested : Bool) (n : Nat) {p q : Nat} (h : p ≤ q) :
    c.invalidFrom untested n q ≤ c.invalidFrom untested n p := by
  apply List.Sublist.length_le
  apply List.monotone_filter_right
  intro r above
  simp only [decide_eq_true_eq] at above ⊢
  omega

theorem roomFrom_iff {c : Collection K} {size : Nat} (cacheSize : c.cacheSize = .int size)
    {untested : Bool} {pages : Value K} {p : Nat} :
    c.RoomFrom untested pages p ↔
      ∃ n, Announces pages n ∧ c.invalidFrom untested n p ≤ size := by
  simp only [RoomFrom, cacheSize, keptOf_int, Nat.le_min]
  refine exists_congr fun n => and_congr_right fun _ => ?_
  exact and_iff_left (c.invalidFrom_le untested n (Nat.zero_le p))

omit [Scalar K] in
theorem invalidPages_sorted (c : Collection K) (untested : Bool) (bound : Nat) :
    (c.invalidPages untested bound).Pairwise (· < ·) :=
  List.pairwise_lt_range.sublist List.filter_sublist

theorem reopened_retains (c : Collection K) : c.reopened.Retains [] :=
  ⟨rfl, fun some => absurd rfl some⟩

theorem each_checkPage_runs {c : Collection K} (consistent : c.Consistent) {untested : Bool}
    {a b bound : Nat} (below : b ≤ bound) (fails : a ∈ c.invalidPages untested b)
    (runs : (Outcome.each (checkPage untested) c.reopened (List.range b)).fault = none) :
    (Outcome.each (checkPage untested) c.reopened (List.range bound)).fault = none := by
  have opened := reopened_opened consistent
  have retains := each_checkPage_retains opened (reopened_retains c) List.nodup_range runs
  have steady : (Outcome.each (checkPage untested) c.reopened (List.range b)).state.Steady := by
    apply retains.steady
    rw [← map_page_rejects consistent.toStocked consistent.workable] at fails
    obtain ⟨m, rejected, _⟩ := List.mem_map.mp fails
    apply List.ne_nil_of_mem (a := m)
    simp only [reopened_settings, reopened_slot? consistent.workable]
    exact rejected
  obtain ⟨k, rfl⟩ := Nat.exists_eq_add_of_le below
  rw [List.range_add, Outcome.each_append, Outcome.eq_done_of_fault runs, Outcome.done_andThen]
  exact each_checkPage_of_steady (each_checkPage_opened opened untested _) steady untested _

theorem resolve_cachedPages {c : Collection K} (consistent : c.Consistent) {untested : Bool}
    {pages : Value K} {n : Nat} (announced : Announces pages n)
    (runs : (Outcome.each (checkPage untested) (c.announcing n).reopened
      (List.range (c.announcing n).reopened.pageCount)).fault = none) :
    (c.resolve untested pages).state.cachedPages =
      (c.invalidPages untested (c.announcing n).reopened.pageCount).rtake
        (keptOf c.cacheSize (c.invalidFrom untested n 0)) := by
  have wider : (c.announcing n).Consistent := consistent.declare _
  have retains := each_checkPage_retains (reopened_opened wider) (reopened_retains _)
    List.nodup_range runs
  have size := (each_checkPage_frame untested (c.announcing n).reopened
    (List.range (c.announcing n).reopened.pageCount)).1.cacheSize
  have cache := retains.cache
  simp only [List.nil_append, reopened_slot? wider.workable, reopened_settings] at cache
  rw [size, reopened_cacheSize] at cache
  change _ = (c.rejects untested _).rtake
    (keptOf c.cacheSize (c.rejects untested _).length) at cache
  have pages' := map_page_rejects consistent.toStocked consistent.workable untested
    (c.announcing n).reopened.pageCount
  have length := congrArg List.length pages'
  rw [List.length_map] at length
  rw [resolve_eq announced, Outcome.eq_done_of_fault runs, Outcome.done_andThen, Outcome.done_state,
    cachedPages, settled_cache, cache, invalidFrom_zero, ← length, List.rtake, List.map_drop,
    pages', List.rtake, ← length]

theorem FoundInvalid.mem_invalidPages {c : Collection K} {untested : Bool} {pages : Value K}
    {p : Nat} (h : c.FoundInvalid untested pages p) {bound : Nat} (below : p < bound) :
    p ∈ c.invalidPages untested bound := by
  obtain ⟨_, _, _, _, m, own, fails⟩ := h
  rw [invalidPages, List.mem_filter, List.mem_range, own, Option.any_some, fails]
  exact ⟨below, rfl⟩

theorem FoundInvalid.mem_cachedPages_iff {c : Collection K} (consistent : c.Consistent)
    {untested : Bool} {pages : Value K} {a b : Nat} (less : a < b)
    (ha : c.FoundInvalid untested pages a) (hb : c.FoundInvalid untested pages b) {p : Nat}
    (either : p = a ∨ p = b) :
    p ∈ (c.resolve untested pages).state.cachedPages ↔ c.RoomFrom untested pages p := by
  have found := hb
  obtain ⟨n, announced, below, before, _⟩ := hb
  have runs := each_checkPage_runs (c := c.announcing n) (consistent.declare _)
    (Nat.le_of_lt below) (ha.mem_invalidPages less) before
  have invalid : p ∈ c.invalidPages untested (c.announcing n).reopened.pageCount := by
    rcases either with rfl | rfl
    · exact ha.mem_invalidPages (Nat.lt_trans less below)
    · exact found.mem_invalidPages below
  rw [resolve_cachedPages consistent announced runs,
    mem_rtake_iff (invalidPages_sorted c untested _) invalid]
  constructor
  · intro fits
    exact ⟨n, announced, fits⟩
  · rintro ⟨k, announced', fits⟩
    rw [announced'.unique announced] at fits
    exact fits

/-- A resolution spares what was used more recently exactly if there is no pair of pages, the higher
one used less recently, such that the cache has room for the invalid models from the higher page on
but not for those from the lower page on. -/
theorem keepsRecent_iff {c : Collection K} (h : Reachable (fun _ _ => True) c) (untested : Bool)
    (pages : Value K) :
    c.KeepsRecent untested pages ↔
      ∀ a b, [b, a].Sublist c.cachedPages → c.FoundInvalid untested pages a →
        c.FoundInvalid untested pages b → a < b → c.RoomFrom untested pages b →
        c.RoomFrom untested pages a := by
  have consistent := h.consistent
  constructor
  · intro keeps a b order ha hb less room
    by_contra full
    apply keeps a b order ha hb
    rw [ha.mem_cachedPages_iff consistent less hb (Or.inl rfl),
      ha.mem_cachedPages_iff consistent less hb (Or.inr rfl)]
    exact ⟨full, room⟩
  · rintro spares a b order ha hb ⟨gone, stays⟩
    rcases Nat.lt_trichotomy a b with less | rfl | more
    · rw [ha.mem_cachedPages_iff consistent less hb (Or.inl rfl)] at gone
      rw [ha.mem_cachedPages_iff consistent less hb (Or.inr rfl)] at stays
      exact gone (spares a b order ha hb less stays)
    · exact gone stays
    · rw [hb.mem_cachedPages_iff consistent more ha (Or.inr rfl)] at gone
      rw [hb.mem_cachedPages_iff consistent more ha (Or.inl rfl)] at stays
      obtain ⟨n, announced, fits⟩ := stays
      exact gone ⟨n, announced, Nat.le_trans (c.invalidFrom_le untested n (Nat.le_of_lt more)) fits⟩

theorem foundInvalid_of_mem {c : Collection K} {size : Nat} (cacheSize : c.cacheSize = .int size)
    {untested : Bool} {pages : Value K} {n p : Nat} (announced : Announces pages n)
    (member : p ∈ c.invalidPages untested (c.announcing n).reopened.pageCount) :
    c.FoundInvalid untested pages p := by
  have size' : (c.announcing n).reopened.cacheSize = .int size :=
    (reopened_cacheSize _).trans cacheSize
  rw [invalidPages, List.mem_filter, List.mem_range, Option.any_eq_true] at member
  obtain ⟨below, m, own, fails⟩ := member
  exact ⟨n, announced, below, each_checkPage_fault size' untested _, m, own, by simpa using fails⟩

end Checks

def consultedCalls : List (Call Rat) :=
  [.insert (sheet 0 .failed), .insert (sheet 1 .failed), .resolve false .null, .consult 0,
    .insert (sheet 2 .failed)]

def roomyCalls : List (Call Rat) := consultedCalls ++ [.assign .cacheSize (.int 3)]

theorem consulted_keepsRecent :
    Reachable (fun _ _ => True) (standardShelf.afterCalls roomyCalls) ∧
      (standardShelf.afterCalls roomyCalls).cachedPages = [1, 0] ∧
      (standardShelf.afterCalls roomyCalls).KeepsRecent false .null := by
  have reachable : Reachable (fun _ _ => True) (standardShelf.afterCalls roomyCalls) :=
    (standardShelf_reachable _).afterCalls fun _ _ _ => trivial
  have size : (standardShelf.afterCalls roomyCalls).cacheSize = .int (3 : Nat) := rfl
  refine ⟨reachable, by decide +kernel, (keepsRecent_iff reachable false .null).mpr ?_⟩
  intro a b _ _ _ _ _
  have all := (standardShelf.afterCalls roomyCalls).invalidFrom_le false 0 (Nat.zero_le a)
  exact (roomFrom_iff size).mpr ⟨0, .omitted, Nat.le_trans all (by decide +kernel)⟩

def narrowShelf : Collection Rat := empty ⟨.standard, 16, true, false, .standard⟩ 2

/-- With room for two, the page that has just been used is dropped and the other one stays. -/
theorem consulted_dropped :
    Reachable (fun _ _ => True) (narrowShelf.afterCalls consultedCalls) ∧
      ¬ (narrowShelf.afterCalls consultedCalls).KeepsRecent false .null := by
  have made : ∀ Allowed, Reachable Allowed narrowShelf := fun _ =>
    .made (d := ⟨[("cache_size", .int 2)], .standard⟩) rfl
  have kept : Reachable (fun _ a => ∀ v, a ≠ .assign .cacheSize v)
      (narrowShelf.afterCalls consultedCalls) := by
    refine (made _).afterCalls ?_
    intro d a member v same
    simp [consultedCalls, same] at member
  obtain ⟨size, cacheSize, _⟩ := kept.current.bounded
  refine ⟨(made _).afterCalls fun _ _ _ => trivial, fun keeps => ?_⟩
  have order : (narrowShelf.afterCalls consultedCalls).cachedPages = [1, 0] := by decide +kernel
  refine keeps 0 1 (by rw [order]) ?_ ?_ ⟨by decide +kernel, by decide +kernel⟩
  · exact foundInvalid_of_mem cacheSize .omitted (by decide +kernel)
  · exact foundInvalid_of_mem cacheSize .omitted (by decide +kernel)

end Collection

end PageFlattening
