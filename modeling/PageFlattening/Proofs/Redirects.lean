import Mathlib.Data.List.Induction
import Mathlib.Data.Nat.Find
import PageFlattening.Proofs.Passes

/-! Which page a page is redirected to. The scan over the candidates keeps the best so far; because
the candidates ascend, what it ends with is the donor in the sense of `IsDonor`, and every page
without a model gets a redirect exactly if it has a donor. -/
namespace PageFlattening

namespace Collection

/-- The page that a page borrows its model from: of the same parity, within the distance, nearest of
all, and the lower one of two that are equally near. -/
structure IsDonor (Valid : Nat → Prop) (maxDistance page donor : Nat) : Prop where
  valid : Valid donor
  parity : donor % 2 = page % 2
  within : ((page : Int) - donor).natAbs ≤ maxDistance
  nearest : ∀ q, Valid q → q % 2 = page % 2 →
    ((page : Int) - donor).natAbs ≤ ((page : Int) - q).natAbs
  lower : ∀ q, Valid q → q % 2 = page % 2 →
    ((page : Int) - q).natAbs = ((page : Int) - donor).natAbs → donor ≤ q

theorem IsDonor.unique {Valid : Nat → Prop} {maxDistance page d e : Nat}
    (h : IsDonor Valid maxDistance page d) (g : IsDonor Valid maxDistance page e) : d = e := by
  have near := h.nearest e g.valid g.parity
  have near' := g.nearest d h.valid h.parity
  have low := h.lower e g.valid g.parity (by omega)
  have low' := g.lower d h.valid h.parity (by omega)
  omega

theorem IsDonor.congr {Valid Valid' : Nat → Prop} {maxDistance page d : Nat}
    (h : IsDonor Valid maxDistance page d) (same : ∀ q, Valid q ↔ Valid' q) :
    IsDonor Valid' maxDistance page d where
  valid := (same d).mp h.valid
  parity := h.parity
  within := h.within
  nearest q hq := h.nearest q ((same q).mpr hq)
  lower q hq := h.lower q ((same q).mpr hq)

theorem exists_isDonor {Valid : Nat → Prop} {maxDistance page q : Nat} (valid : Valid q)
    (parity : q % 2 = page % 2) (within : ((page : Int) - q).natAbs ≤ maxDistance) :
    ∃ d, IsDonor Valid maxDistance page d := by
  classical
  have near : ∃ k r, Valid r ∧ r % 2 = page % 2 ∧ ((page : Int) - r).natAbs = k :=
    ⟨_, q, valid, parity, rfl⟩
  have low := Nat.find_spec near
  have least : ∀ r, Valid r → r % 2 = page % 2 → Nat.find near ≤ ((page : Int) - r).natAbs :=
    fun r hr same => Nat.find_min' near ⟨r, hr, same, rfl⟩
  obtain ⟨held, same, distance⟩ := Nat.find_spec low
  have close := least q valid parity
  refine ⟨Nat.find low, held, same, by omega, fun r hr even => ?_, fun r hr even tie => ?_⟩
  · rw [distance]
    exact least r hr even
  · exact Nat.find_min' low ⟨hr, even, tie.trans distance⟩

theorem pageDistance_eq (p q : Nat) : pageDistance p q = ((p : Int) - q).natAbs := by
  rw [pageDistance]
  omega

def closer (page : Nat) (best : Option Nat × Nat) (q : Nat) : Option Nat × Nat :=
  if pageDistance page q < best.2 then (some q, pageDistance page q) else best

/-- The state of the scan after some candidates: nothing within the distance yet, or the nearest of
them, the lower one of two. -/
def BestOf (maxDistance page : Nat) (seen : List Nat) (best : Option Nat × Nat) : Prop :=
  (best = (none, maxDistance + 1) ∧ ∀ q ∈ seen, maxDistance < pageDistance page q) ∨
  ∃ d ∈ seen, best = (some d, pageDistance page d) ∧ pageDistance page d ≤ maxDistance ∧
    ∀ q ∈ seen, pageDistance page d ≤ pageDistance page q ∧
      (pageDistance page q = pageDistance page d → d ≤ q)

theorem BestOf.snoc {maxDistance page last : Nat} {seen : List Nat} {best : Option Nat × Nat}
    (h : BestOf maxDistance page seen best) (ascending : ∀ q ∈ seen, q < last) :
    BestOf maxDistance page (seen ++ [last]) (closer page best last) := by
  rcases h with ⟨rfl, far⟩ | ⟨d, member, rfl, within, near⟩
  · by_cases reached : pageDistance page last < maxDistance + 1
    · refine Or.inr ⟨last, by simp, if_pos reached, by omega, ?_⟩
      refine List.forall_mem_append.mpr ⟨fun q old => ?_, List.forall_mem_singleton.mpr (by omega)⟩
      have away := far q old
      omega
    · refine Or.inl ⟨if_neg reached, ?_⟩
      exact List.forall_mem_append.mpr ⟨far, List.forall_mem_singleton.mpr (by omega)⟩
  · by_cases nearer : pageDistance page last < pageDistance page d
    · refine Or.inr ⟨last, by simp, if_pos nearer, by omega, ?_⟩
      refine List.forall_mem_append.mpr ⟨fun q old => ?_, List.forall_mem_singleton.mpr (by omega)⟩
      have before := (near q old).1
      omega
    · -- A tie is not closer, so the earlier and therefore lower candidate stays.
      have lower := ascending d member
      refine Or.inr ⟨d, by simp [member], if_neg nearer, within, ?_⟩
      exact List.forall_mem_append.mpr ⟨near, List.forall_mem_singleton.mpr (by omega)⟩

theorem bestOf_foldl (maxDistance page : Nat) {candidates : List Nat}
    (sorted : candidates.Pairwise (· < ·)) :
    BestOf maxDistance page candidates
      (candidates.foldl (closer page) (none, maxDistance + 1)) := by
  induction candidates using List.reverseRecOn with
  | nil => exact Or.inl ⟨rfl, by simp⟩
  | append_singleton earlier last ih =>
      rw [List.pairwise_append] at sorted
      rw [List.foldl_append]
      exact (ih sorted.1).snoc fun q member => sorted.2.2 q member last (by simp)

theorem nearest?_eq_some_iff (maxDistance page : Nat) {pages : List Nat}
    (sorted : pages.Pairwise (· < ·)) (d : Nat) :
    nearest? maxDistance page (pages.filter fun q => q % 2 == page % 2) = some d ↔
      IsDonor (· ∈ pages) maxDistance page d := by
  have sorted' : (pages.filter fun q => q % 2 == page % 2).Pairwise (· < ·) := sorted.filter _
  have member : ∀ q, q ∈ pages.filter (fun q => q % 2 == page % 2) ↔
      q ∈ pages ∧ q % 2 = page % 2 := by
    intro q
    simp
  change (List.foldl (closer page) (none, maxDistance + 1)
    (pages.filter fun q => q % 2 == page % 2)).1 = some d ↔ _
  rcases bestOf_foldl maxDistance page sorted' with ⟨best, far⟩ | ⟨e, found, best, within, near⟩
  · rw [best]
    constructor
    · intro h
      cases h
    · intro donor
      have := far d ((member d).mpr ⟨donor.valid, donor.parity⟩)
      have := donor.within
      rw [pageDistance_eq] at *
      omega
  · obtain ⟨held, parity⟩ := (member e).mp found
    have donor : IsDonor (· ∈ pages) maxDistance page e := {
      valid := held
      parity
      within := by rwa [pageDistance_eq] at within
      nearest := fun q hq same => by
        have := (near q ((member q).mpr ⟨hq, same⟩)).1
        rwa [pageDistance_eq, pageDistance_eq] at this
      lower := fun q hq same tie => by
        have := (near q ((member q).mpr ⟨hq, same⟩)).2
        rw [pageDistance_eq, pageDistance_eq] at this
        exact this tie }
    rw [best]
    constructor
    · intro h
      cases h
      exact donor
    · intro other
      rw [donor.unique other]

variable {K : Type}

def redirectTo (settings : Settings) (page target : Nat) : PageModel K :=
  (PageModel.reference page target settings.build.stride settings.build.reduction).adopted

theorem redirectPage_ledger (candidates : List Nat) (c : Collection K) (page : Nat) :
    SameLedger c (redirectPage candidates c page) := by
  simp only [redirectPage]
  split
  · exact SameLedger.refl c
  · split
    · exact SameLedger.refl c
    · exact setSlot_ledger c _ _

theorem redirectPage_cache (candidates : List Nat) (c : Collection K) (page : Nat) :
    (redirectPage candidates c page).cache = c.cache := by
  simp only [redirectPage]
  split
  · rfl
  · split <;> rfl

theorem redirectPage_capacity (candidates : List Nat) (c : Collection K) (page : Nat) :
    (redirectPage candidates c page).capacity = c.capacity := by
  simp only [redirectPage]
  split
  · rfl
  · split
    · rfl
    · simp

def filledPart (settings : Settings) (candidates : List Nat) (page : Nat)
    (slot : Option (PageModel K)) : Option (PageModel K) :=
  slot.or ((nearest? settings.maxDistance page
    (candidates.filter fun q => q % 2 == page % 2)).map (redirectTo settings page))

theorem redirectPage_slot? (candidates : List Nat) (c : Collection K) (page q : Nat) :
    (redirectPage candidates c page).slot? q =
      if q = page then
        if page < c.capacity then filledPart c.settings candidates page (c.slot? page)
        else c.slot? page
      else c.slot? q := by
  by_cases room : page < c.capacity
  · simp only [redirectPage, filledPart, if_pos room]
    cases held : c.slot? page with
    | some m =>
        by_cases same : q = page
        · simp [same, held]
        · simp [same]
    | none =>
        cases nearest? c.settings.maxDistance page
            (candidates.filter fun q => q % 2 == page % 2) with
        | none =>
            by_cases same : q = page
            · simp [same, held]
            · simp [same]
        | some target => simp [setSlot_slot?_of_lt room, redirectTo, PageModel.adopted]
  · have empty := slot?_eq_none_of_le (Nat.not_lt.mp room)
    simp only [redirectPage, empty, if_neg room]
    split
    · by_cases same : q = page
      · simp [same, empty]
      · simp [same]
    · rw [setSlot_slot?]
      by_cases same : q = page
      · simp [same, room, empty]
      · simp [same]

theorem foldl_redirectPage (candidates : List Nat) (c : Collection K) (pages : List Nat) :
    SameLedger c (pages.foldl (redirectPage candidates) c) ∧
      (pages.foldl (redirectPage candidates) c).cache = c.cache := by
  induction pages generalizing c with
  | nil => exact ⟨SameLedger.refl c, rfl⟩
  | cons p rest ih =>
      have later := ih (redirectPage candidates c p)
      exact ⟨(redirectPage_ledger candidates c p).trans later.1,
        later.2.trans (redirectPage_cache candidates c p)⟩

theorem redirectPages_ledger (c : Collection K) (bound : Nat) :
    SameLedger c (c.redirectPages bound) := (foldl_redirectPage _ c _).1

theorem redirectPages_cache (c : Collection K) (bound : Nat) :
    (c.redirectPages bound).cache = c.cache := (foldl_redirectPage _ c _).2

theorem foldl_redirectPage_slot? (candidates : List Nat) (c : Collection K) {pages : List Nat}
    (distinct : pages.Nodup) (q : Nat) :
    (pages.foldl (redirectPage candidates) c).slot? q =
      if q ∈ pages then
        if q < c.capacity then filledPart c.settings candidates q (c.slot? q) else c.slot? q
      else c.slot? q := by
  refine foldl_slot? (P := fun d => d.settings = c.settings ∧ d.capacity = c.capacity)
    (f := fun p slot =>
      if p < c.capacity then filledPart c.settings candidates p slot else slot)
    ?_ ?_ distinct ⟨rfl, rfl⟩ q
  · rintro d p ⟨settings, capacity⟩
    exact ⟨(redirectPage_ledger candidates d p).settings.trans settings,
      (redirectPage_capacity candidates d p).trans capacity⟩
  · rintro d p r ⟨settings, capacity⟩
    rw [redirectPage_slot?, settings, capacity]

theorem redirectPages_slot? {c : Collection K} {bound : Nat} (room : bound ≤ c.capacity)
    (q : Nat) :
    (c.redirectPages bound).slot? q =
      if q < bound then
        filledPart c.settings ((List.range bound).filter fun p => (c.slot? p).isSome) q (c.slot? q)
      else c.slot? q := by
  rw [redirectPages, foldl_redirectPage_slot? _ c List.nodup_range]
  by_cases below : q < bound
  · simp [below, Nat.lt_of_lt_of_le below room]
  · simp [below]

theorem redirectPages_slot?_of_some {c : Collection K} {bound : Nat} (room : bound ≤ c.capacity)
    {q : Nat} {m : PageModel K} (held : c.slot? q = some m) :
    (c.redirectPages bound).slot? q = some m := by
  rw [redirectPages_slot? room, held]
  split <;> rfl

theorem redirectPages_slot?_eq_some_iff {c : Collection K} {bound : Nat}
    (room : bound ≤ c.capacity) {q : Nat} (below : q < bound) (empty : c.slot? q = none)
    (m : PageModel K) :
    (c.redirectPages bound).slot? q = some m ↔
      ∃ d, IsDonor (fun p => p < bound ∧ (c.slot? p).isSome) c.settings.maxDistance q d ∧
        m = redirectTo c.settings q d := by
  have sorted : ((List.range bound).filter fun p => (c.slot? p).isSome).Pairwise (· < ·) :=
    List.pairwise_lt_range.filter _
  have donor : ∀ d, nearest? c.settings.maxDistance q
      (((List.range bound).filter fun p => (c.slot? p).isSome).filter fun p => p % 2 == q % 2) =
        some d ↔ IsDonor (fun p => p < bound ∧ (c.slot? p).isSome) c.settings.maxDistance q d := by
    intro d
    rw [nearest?_eq_some_iff _ _ sorted]
    constructor <;> exact fun h => h.congr (by simp)
  rw [redirectPages_slot? room, if_pos below, empty, filledPart, Option.none_or,
    Option.map_eq_some_iff]
  constructor
  · rintro ⟨d, found, rfl⟩
    exact ⟨d, (donor d).mp found, rfl⟩
  · rintro ⟨d, found, rfl⟩
    exact ⟨d, (donor d).mpr found, rfl⟩

end Collection

end PageFlattening
