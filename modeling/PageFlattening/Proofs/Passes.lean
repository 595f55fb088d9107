import Mathlib.Tactic.Common
import PageFlattening.Proofs.ModelStatus
import PageFlattening.Proofs.Storage

/-! The passes that resolving references is made of, each as a map from old slots to new ones:
redirects are dropped, cached models brought back, and every model checked and kept or set aside.
None of them touches the ledger, so what they do can be read off slot by slot. -/
namespace PageFlattening

def PageModel.adopted {K : Type} (m : PageModel K) : PageModel K := { m with attached := true }

theorem PageModel.adopted_eq {K : Type} {m : PageModel K} (h : m.attached = true) :
    m.adopted = m := by
  cases m
  simp_all [adopted]

namespace Collection

variable {K : Type}

/-! Loops over pages whose steps each change their own slot only. -/

theorem foldl_slot? {P : Collection K → Prop} {step : Collection K → Nat → Collection K}
    {f : Nat → Option (PageModel K) → Option (PageModel K)}
    (keeps : ∀ c p, P c → P (step c p))
    (own : ∀ c p q, P c → (step c p).slot? q = if q = p then f p (c.slot? p) else c.slot? q)
    {pages : List Nat} (distinct : pages.Nodup) {c : Collection K} (h : P c) (q : Nat) :
    (pages.foldl step c).slot? q = if q ∈ pages then f q (c.slot? q) else c.slot? q := by
  induction pages generalizing c with
  | nil => simp
  | cons p rest ih =>
      obtain ⟨fresh, distinct⟩ := List.nodup_cons.mp distinct
      rw [List.foldl_cons, ih distinct (keeps c p h), own c p q h]
      by_cases same : q = p
      · subst same
        simp [fresh]
      · simp [same]

theorem each_slot? {P : Collection K → Prop} {step : Collection K → Nat → Outcome (Collection K)}
    {f : Nat → Option (PageModel K) → Option (PageModel K)}
    (keeps : ∀ c p, P c → P (step c p).state)
    (own : ∀ c p q, P c → (step c p).fault = none →
      (step c p).state.slot? q = if q = p then f p (c.slot? p) else c.slot? q)
    {pages : List Nat} (distinct : pages.Nodup) {c : Collection K} (h : P c)
    (runs : (Outcome.each step c pages).fault = none) (q : Nat) :
    (Outcome.each step c pages).state.slot? q =
      if q ∈ pages then f q (c.slot? q) else c.slot? q := by
  induction pages generalizing c with
  | nil => simp [Outcome.each]
  | cons p rest ih =>
      obtain ⟨fresh, distinct⟩ := List.nodup_cons.mp distinct
      have first : (step c p).fault = none := by
        by_contra stops
        rw [Outcome.each, Outcome.andThen_of_fault stops] at runs
        exact stops runs
      rw [Outcome.each_cons_of_done (Outcome.eq_done_of_fault first)] at runs ⊢
      rw [ih distinct (keeps c p h) runs, own c p q h first]
      by_cases same : q = p
      · subst same
        simp [fresh]
      · simp [same]

/-! Dropping redirects. -/

def builtPart (slot : Option (PageModel K)) : Option (PageModel K) :=
  slot.filter fun m => !m.isRedirect

@[simp] theorem builtPart_none : builtPart (none : Option (PageModel K)) = none := rfl

@[simp] theorem builtPart_some (m : PageModel K) :
    builtPart (some m) = if m.isRedirect = true then none else some m := by
  by_cases redirect : m.isRedirect = true <;> simp [builtPart, Option.filter, redirect]

theorem builtPart_eq_some_iff {slot : Option (PageModel K)} {m : PageModel K} :
    builtPart slot = some m ↔ slot = some m ∧ m.isRedirect = false := by
  cases slot with
  | none => simp
  | some held =>
      rw [builtPart_some]
      by_cases redirect : held.isRedirect = true
      · simp only [redirect, if_true, Option.some.injEq]
        constructor
        · simp
        · rintro ⟨rfl, built⟩
          simp [built] at redirect
      · simp only [redirect, Option.some.injEq]
        constructor
        · rintro ⟨⟩
          exact ⟨rfl, by simpa using redirect⟩
        · rintro ⟨rfl, _⟩
          rfl

theorem dropRedirect_ledger (c : Collection K) (p : Nat) : SameLedger c (c.dropRedirect p) := by
  rw [dropRedirect]
  split
  · split
    · exact (setSlot_ledger c p none).trans (release_ledger _ _)
    · exact SameLedger.refl c
  · exact SameLedger.refl c

theorem dropRedirect_cache (c : Collection K) (p : Nat) : (c.dropRedirect p).cache = c.cache := by
  rw [dropRedirect]
  split
  · split <;> rfl
  · rfl

theorem dropRedirect_capacity (c : Collection K) (p : Nat) :
    (c.dropRedirect p).capacity = c.capacity := by
  rw [dropRedirect]
  split
  · split <;> simp
  · rfl

theorem dropRedirect_slot? (c : Collection K) (p q : Nat) :
    (c.dropRedirect p).slot? q = if q = p then builtPart (c.slot? p) else c.slot? q := by
  rw [dropRedirect]
  split
  · rename_i m held
    by_cases redirect : m.isRedirect = true
    · simp [redirect, setSlot_none_slot?, held]
    · by_cases same : q = p
      · subst same
        simp [redirect, held]
      · simp [redirect, same]
  · rename_i empty
    by_cases same : q = p
    · subst same
      simp [empty]
    · simp [same]

theorem foldl_dropRedirect (c : Collection K) (pages : List Nat) :
    SameLedger c (pages.foldl dropRedirect c) ∧ (pages.foldl dropRedirect c).cache = c.cache ∧
      (pages.foldl dropRedirect c).capacity = c.capacity := by
  induction pages generalizing c with
  | nil => exact ⟨SameLedger.refl c, rfl, rfl⟩
  | cons p rest ih =>
      obtain ⟨ledger, cache, capacity⟩ := ih (c.dropRedirect p)
      exact ⟨(dropRedirect_ledger c p).trans ledger, cache.trans (dropRedirect_cache c p),
        capacity.trans (dropRedirect_capacity c p)⟩

/-- Redirects stand no higher than the highest page, so that a pass up to it finds them all. -/
def RedirectsBelow (c : Collection K) : Prop :=
  ∀ p m, c.slot? p = some m → m.isRedirect = true → (p : Int) ≤ c.maxPage

theorem dropRedirects_slot? {c : Collection K} (h : c.RedirectsBelow) (q : Nat) :
    c.dropRedirects.slot? q = builtPart (c.slot? q) := by
  rw [dropRedirects, refreshMaxPage_slot?,
    foldl_slot? (P := fun _ => True) (f := fun _ => builtPart) (fun _ _ _ => trivial)
      (fun c p q _ => dropRedirect_slot? c p q) (span_nodup c) trivial q]
  split
  · rfl
  · rename_i above
    cases held : c.slot? q with
    | none => rfl
    | some m =>
        have stays : m.isRedirect = false := by
          by_contra redirect
          have below := h q m held (by simpa using redirect)
          exact above (List.mem_range.mpr (by omega))
        simp [stays]

theorem dropRedirects_cache (c : Collection K) : c.dropRedirects.cache = c.cache :=
  (foldl_dropRedirect c c.span).2.1

theorem dropRedirects_capacity (c : Collection K) : c.dropRedirects.capacity = c.capacity :=
  (foldl_dropRedirect c c.span).2.2

theorem dropRedirects_top (c : Collection K) : Top c.dropRedirects c.dropRedirects.maxPage :=
  refreshMaxPage_top _

/-! Bringing cached models back. -/

theorem restoreOne_ledger (c : Collection K) (m : PageModel K) : SameLedger c (c.restoreOne m) := by
  simp only [restoreOne]
  split
  · exact (reserve_ledger c m.page).trans (setSlot_ledger _ _ _)
  · exact (reserve_ledger c m.page).trans (release_ledger _ _)

theorem restoreOne_capacity (c : Collection K) (m : PageModel K) :
    (c.restoreOne m).capacity = capacityFor c.capacity m.page := by
  simp only [restoreOne]
  split <;> simp

theorem restoreOne_slot? {c : Collection K} (h : 0 < c.capacity) (m : PageModel K) (q : Nat) :
    (c.restoreOne m).slot? q =
      if q = m.page then (c.slot? q).or (some m.adopted) else c.slot? q := by
  have room : m.page < (c.reserve m.page).capacity := by
    rw [reserve_capacity]
    exact lt_capacityFor h m.page
  simp only [restoreOne, reserve_slot?]
  split
  · rename_i empty
    rw [setSlot_slot?_of_lt room, reserve_slot?]
    by_cases same : q = m.page
    · simp [same, empty, PageModel.adopted]
    · simp [same]
  · rename_i held occupied
    rw [release_slot?, reserve_slot?]
    by_cases same : q = m.page
    · simp [same, occupied]
    · simp [same]

theorem foldl_restoreOne_ledger (c : Collection K) (models : List (PageModel K)) :
    SameLedger c (models.foldl restoreOne c) := by
  induction models generalizing c with
  | nil => exact SameLedger.refl c
  | cons m rest ih => exact (restoreOne_ledger c m).trans (ih (c.restoreOne m))

theorem foldl_restoreOne_capacity (c : Collection K) (models : List (PageModel K)) :
    ∃ k, (models.foldl restoreOne c).capacity = c.capacity * 2 ^ k := by
  induction models generalizing c with
  | nil => exact ⟨0, by simp⟩
  | cons m rest ih =>
      obtain ⟨k, hk⟩ := ih (c.restoreOne m)
      obtain ⟨j, hj⟩ := capacityFor_eq_mul_pow c.capacity m.page
      refine ⟨j + k, ?_⟩
      rw [List.foldl_cons, hk, restoreOne_capacity, hj, Nat.pow_add, Nat.mul_assoc]

/-- Of several cached models for a page the first comes back, and only into an empty slot. -/
theorem foldl_restoreOne_slot? (models : List (PageModel K)) {c : Collection K}
    (h : 0 < c.capacity) (q : Nat) :
    (models.foldl restoreOne c).slot? q =
      (c.slot? q).or ((models.find? fun m => (m.page : Int) == q).map PageModel.adopted) := by
  induction models generalizing c with
  | nil => simp
  | cons m rest ih =>
      have grown : 0 < (c.restoreOne m).capacity := by
        rw [restoreOne_capacity]
        exact Nat.lt_of_lt_of_le h (le_capacityFor _ _)
      rw [List.foldl_cons, ih grown, restoreOne_slot? h, List.find?_cons]
      by_cases same : q = m.page
      · cases c.slot? q <;> simp [same]
      · have other : ((m.page : Int) == q) = false := by
          simp only [beq_eq_false_iff_ne, ne_eq]
          omega
        simp [same, other]

theorem restoreCached_slot? {c : Collection K} (h : 0 < c.capacity) (q : Nat) :
    c.restoreCached.slot? q = (c.slot? q).or ((c.cached? q).map PageModel.adopted) :=
  foldl_restoreOne_slot? c.cache h q

theorem restoreCached_ledger (c : Collection K) : SameLedger c c.restoreCached := by
  have ledger := foldl_restoreOne_ledger c c.cache
  exact ⟨ledger.settings, ledger.cacheSize, ledger.maxPage, ledger.declaredPages,
    ledger.builtPages, ledger.heldPages, ledger.ready⟩

theorem restoreCached_capacity (c : Collection K) :
    ∃ k, c.restoreCached.capacity = c.capacity * 2 ^ k :=
  foldl_restoreOne_capacity c c.cache

theorem mem_cache_of_cached? {c : Collection K} {page : Int} {m : PageModel K}
    (h : c.cached? page = some m) : m ∈ c.cache ∧ (m.page : Int) = page :=
  ⟨List.mem_of_find?_eq_some h, by simpa using List.find?_some h⟩

def own? (c : Collection K) (page : Nat) : Option (PageModel K) :=
  (builtPart (c.slot? page)).or (c.cached? page)

/-! Setting models aside. -/

section Checks

variable [Scalar K]

theorem trim_frame (bound : Value K) (c : Collection K) (models : List (PageModel K)) :
    SameLedger c (trim bound c models).state ∧ (trim bound c models).state.slots = c.slots ∧
      (trim bound c models).state.cache <:+ models := by
  induction models generalizing c with
  | nil =>
      rw [trim]
      split <;> exact ⟨⟨rfl, rfl, rfl, rfl, rfl, rfl, rfl⟩, rfl, List.suffix_refl _⟩
  | cons m rest ih =>
      rw [trim]
      split
      · exact ⟨⟨rfl, rfl, rfl, rfl, rfl, rfl, rfl⟩, rfl, List.suffix_refl _⟩
      · obtain ⟨ledger, slots, suffix⟩ := ih (c.release m)
        exact ⟨(release_ledger c m).trans ledger, slots, suffix.trans (List.suffix_cons m rest)⟩
      · exact ⟨⟨rfl, rfl, rfl, rfl, rfl, rfl, rfl⟩, rfl, List.suffix_refl _⟩

theorem trim_int (bound : Nat) (c : Collection K) (models : List (PageModel K)) :
    (trim (.int bound) c models).fault = none ∧
      (trim (.int bound) c models).state.cache = models.drop (models.length - bound) := by
  induction models generalizing c with
  | nil =>
      have fits : ¬ (bound : Int) < 0 := by omega
      simp [trim, Value.lessThan, fits]
  | cons m rest ih =>
      by_cases full : (bound : Int) < rest.length + 1
      · have longer : (m :: rest).length - bound = (rest.length - bound) + 1 := by
          simp only [List.length_cons]
          omega
        rw [longer, List.drop_succ_cons]
        simpa [trim, Value.lessThan, full] using ih (c.release m)
      · have fits : (m :: rest).length - bound = 0 := by
          simp only [List.length_cons]
          omega
        rw [fits, List.drop_zero]
        simp [trim, Value.lessThan, full]

theorem setAside_frame (c : Collection K) (m : PageModel K) :
    SameLedger c (c.setAside m).state ∧ (c.setAside m).state.slots = c.slots := by
  rw [setAside]
  split
  · exact ⟨release_ledger c m, rfl⟩
  · exact ⟨(trim_frame _ c _).1, (trim_frame _ c _).2.1⟩

theorem setAside_slot? (c : Collection K) (m : PageModel K) (q : Nat) :
    (c.setAside m).state.slot? q = c.slot? q := by
  rw [slot?, (setAside_frame c m).2, slot?]

theorem setAside_capacity (c : Collection K) (m : PageModel K) :
    (c.setAside m).state.capacity = c.capacity := by
  rw [capacity, (setAside_frame c m).2, capacity]

theorem setAside_cache (c : Collection K) (m : PageModel K) :
    (c.setAside m).state.cache = c.cache ∨
      (c.setAside m).state.cache <:+ c.uncached m.page ++ [m] := by
  rw [setAside]
  split
  · exact Or.inl rfl
  · exact Or.inr (trim_frame _ c _).2.2

theorem setAside_int {c : Collection K} {bound : Nat} (h : c.cacheSize = .int bound)
    (m : PageModel K) : (c.setAside m).fault = none := by
  rw [setAside, h]
  split
  · rfl
  · exact (trim_int bound c _).1

theorem setAside_cache_length {c : Collection K} {bound : Nat} (h : c.cacheSize = .int bound)
    (fits : c.cache.length ≤ bound) (m : PageModel K) :
    (c.setAside m).state.cache.length ≤ bound := by
  rw [setAside, h]
  split
  · exact fits
  · rw [(trim_int bound c _).2, List.length_drop]
    omega

/-! Checking. -/

def keptPart (t : Thresholds) (untested : Bool) (slot : Option (PageModel K)) :
    Option (PageModel K) :=
  (slot.map fun m => m.judged t untested).filter fun m => m.verticalValid

theorem checkPage_eq (untested : Bool) (c : Collection K) (page : Nat) :
    checkPage untested c page =
      match c.slot? page with
      | none => .done c
      | some m =>
          if (m.judged c.settings.thresholds untested).verticalValid then
            .done (c.setSlot page (some (m.judged c.settings.thresholds untested)))
          else (c.setSlot page none).setAside (m.judged c.settings.thresholds untested) := by
  rw [checkPage]
  cases c.slot? page with
  | none => rfl
  | some m => simp [PageModel.validate_eq]

theorem checkPage_ledger (untested : Bool) (c : Collection K) (page : Nat) :
    SameLedger c (checkPage untested c page).state := by
  rw [checkPage_eq]
  split
  · exact SameLedger.refl c
  · split
    · exact setSlot_ledger c _ _
    · exact (setSlot_ledger c _ _).trans (setAside_frame _ _).1

theorem checkPage_capacity (untested : Bool) (c : Collection K) (page : Nat) :
    (checkPage untested c page).state.capacity = c.capacity := by
  rw [checkPage_eq]
  split
  · rfl
  · split
    · simp
    · rw [setAside_capacity, setSlot_capacity]

theorem checkPage_slot? (untested : Bool) (c : Collection K) (page q : Nat) :
    (checkPage untested c page).state.slot? q =
      if q = page then keptPart c.settings.thresholds untested (c.slot? page) else c.slot? q := by
  rw [checkPage_eq]
  by_cases same : q = page
  · subst same
    cases held : c.slot? q with
    | none => simp [held, keptPart]
    | some m =>
        have room : q < c.capacity := lt_capacity_of_isSome (by simp [held])
        by_cases valid : (m.judged c.settings.thresholds untested).verticalValid = true
        · simp [valid, setSlot_slot?_of_lt room, keptPart, Option.filter]
        · simp [valid, setAside_slot?, setSlot_none_slot?, keptPart, Option.filter]
  · rw [if_neg same]
    split
    · rfl
    · rename_i m held
      have room : page < c.capacity := lt_capacity_of_isSome (by simp [held])
      split
      · simp [setSlot_slot?_of_lt room, same]
      · simp [setAside_slot?, setSlot_none_slot?, same]

end Checks

end Collection

end PageFlattening
