import PageFlattening.Proofs.Eviction
import PageFlattening.Proofs.InsertionOrder

/-! What becomes of the models that a collection keeps. Checks and passes change a model, but it
stays known by its page, its tag and whether it is a redirect. The main statement: a call that is no
insertion takes in nothing but redirects that the collection makes itself, and whatever such a call
lets go is noted in the log as no longer belonging to the collection. -/
namespace PageFlattening

structure Identity where
  page : Nat
  tag : Option Nat
  redirect : Bool

/-- A redirect that nobody else has handed in. -/
def Identity.OwnMaking (i : Identity) : Prop := i.tag = none ∧ i.redirect = true

def PageModel.identity {K : Type} (m : PageModel K) : Identity := ⟨m.page, m.tag, m.isRedirect⟩

@[simp] theorem PageModel.judged_identity {K : Type} (m : PageModel K) (t : Thresholds)
    (untested : Bool) : (m.judged t untested).identity = m.identity := by
  rw [judged]
  split <;> rfl

@[simp] theorem PageModel.adopted_identity {K : Type} (m : PageModel K) :
    m.adopted.identity = m.identity := rfl

namespace Collection

variable {K : Type}

def Keeps (c : Collection K) (m : PageModel K) : Prop := (∃ p, c.slot? p = some m) ∨ m ∈ c.cache

def KeepsAs (c : Collection K) (i : Identity) : Prop :=
  (∃ p, (c.slot? p).map PageModel.identity = some i) ∨ i ∈ c.cache.map PageModel.identity

theorem keepsAs_iff {c : Collection K} {i : Identity} :
    c.KeepsAs i ↔ ∃ m, c.Keeps m ∧ m.identity = i := by
  simp only [KeepsAs, Option.map_eq_some_iff, List.mem_map]
  constructor
  · rintro (⟨p, m, held, known⟩ | ⟨m, cached, known⟩)
    · exact ⟨m, Or.inl ⟨p, held⟩, known⟩
    · exact ⟨m, Or.inr cached, known⟩
  · rintro ⟨m, ⟨p, held⟩ | cached, known⟩
    · exact Or.inl ⟨p, m, held, known⟩
    · exact Or.inr ⟨m, cached, known⟩

theorem Keeps.as {c : Collection K} {m : PageModel K} (h : c.Keeps m) : c.KeepsAs m.identity :=
  keepsAs_iff.mpr ⟨m, h, rfl⟩

theorem keepsAs_congr {c d : Collection K} (slot? : ∀ q, d.slot? q = c.slot? q)
    (cache : d.cache = c.cache) (i : Identity) : d.KeepsAs i ↔ c.KeepsAs i := by
  simp only [KeepsAs, slot?, cache]

def KeepsBeside (c : Collection K) (page : Nat) (i : Identity) : Prop :=
  (∃ q, q ≠ page ∧ (c.slot? q).map PageModel.identity = some i) ∨
    i ∈ c.cache.map PageModel.identity

theorem keepsAs_iff_beside (c : Collection K) (page : Nat) (i : Identity) :
    c.KeepsAs i ↔ (c.slot? page).map PageModel.identity = some i ∨ c.KeepsBeside page i := by
  constructor
  · rintro (⟨q, held⟩ | cached)
    · by_cases same : q = page
      · exact Or.inl (same ▸ held)
      · exact Or.inr (Or.inl ⟨q, same, held⟩)
    · exact Or.inr (Or.inr cached)
  · rintro (held | ⟨q, _, held⟩ | cached)
    · exact Or.inl ⟨page, held⟩
    · exact Or.inl ⟨q, held⟩
    · exact Or.inr cached

theorem keepsBeside_congr {c d : Collection K} {page : Nat}
    (slot? : ∀ q, q ≠ page → d.slot? q = c.slot? q) (cache : d.cache = c.cache) (i : Identity) :
    d.KeepsBeside page i ↔ c.KeepsBeside page i := by
  have slots : (∃ q, q ≠ page ∧ (d.slot? q).map PageModel.identity = some i) ↔
      ∃ q, q ≠ page ∧ (c.slot? q).map PageModel.identity = some i := by
    refine exists_congr fun q => and_congr_right fun away => ?_
    rw [slot? q away]
  rw [KeepsBeside, KeepsBeside, slots, cache]

theorem setSlot_beside (c : Collection K) (page : Nat) (m : Option (PageModel K)) (i : Identity) :
    (c.setSlot page m).KeepsBeside page i ↔ c.KeepsBeside page i := by
  have others : ∀ q, q ≠ page → (c.setSlot page m).slot? q = c.slot? q := by
    intro q away
    rw [setSlot_slot?, if_neg fun here => away here.1]
  exact keepsBeside_congr others rfl i

theorem setSlot_none_keepsAs (c : Collection K) (page : Nat) (i : Identity) :
    (c.setSlot page none).KeepsAs i ↔ c.KeepsBeside page i := by
  rw [keepsAs_iff_beside _ page, setSlot_none_slot?, if_pos rfl, setSlot_beside]
  simp

theorem setSlot_some_keepsAs {c : Collection K} {page : Nat} (room : page < c.capacity)
    (m : PageModel K) (i : Identity) :
    (c.setSlot page (some m)).KeepsAs i ↔ m.identity = i ∨ c.KeepsBeside page i := by
  rw [keepsAs_iff_beside _ page, setSlot_slot?_of_lt room, if_pos rfl, setSlot_beside]
  simp

theorem cons_keepsAs (c : Collection K) (m : PageModel K) (rest : List (PageModel K))
    (i : Identity) :
    ({ c with cache := m :: rest } : Collection K).KeepsAs i ↔
      m.identity = i ∨ ({ c with cache := rest } : Collection K).KeepsAs i := by
  simp only [KeepsAs, List.map_cons, List.mem_cons, slot?]
  tauto

theorem snoc_keepsAs (c : Collection K) (models : List (PageModel K)) (m : PageModel K)
    (i : Identity) :
    ({ c with cache := models ++ [m] } : Collection K).KeepsAs i ↔
      m.identity = i ∨ ({ c with cache := models } : Collection K).KeepsAs i := by
  rw [← cons_keepsAs]
  simp only [KeepsAs, slot?, List.map_append, List.mem_append, List.map_cons, List.map_nil,
    List.mem_cons, List.not_mem_nil, or_false]
  tauto

/-! One state after another. -/

/-- `d` comes from `c` without any insertion: what it keeps was kept before or is of its own making,
and whatever has left no longer belongs to the collection. -/
structure Descends (c d : Collection K) : Prop where
  held : ∀ i, d.KeepsAs i → c.KeepsAs i ∨ i.OwnMaking
  log : ∃ left, d.departed = left ++ c.departed ∧
    (∀ m ∈ left, m.attached = false ∧ (c.KeepsAs m.identity ∨ m.identity.OwnMaking)) ∧
    ∀ i, c.KeepsAs i → d.KeepsAs i ∨ i ∈ left.map PageModel.identity

namespace Descends

variable {c d e : Collection K}

theorem of_kept (departed : d.departed = c.departed)
    (held : ∀ i, d.KeepsAs i → c.KeepsAs i ∨ i.OwnMaking)
    (kept : ∀ i, c.KeepsAs i → d.KeepsAs i) : Descends c d :=
  ⟨held, [], departed, by simp, fun i h => Or.inl (kept i h)⟩

theorem of_iff (departed : d.departed = c.departed) (same : ∀ i, d.KeepsAs i ↔ c.KeepsAs i) :
    Descends c d :=
  of_kept departed (fun i h => Or.inl ((same i).mp h)) fun i => (same i).mpr

theorem of_contents (departed : d.departed = c.departed) (slot? : ∀ q, d.slot? q = c.slot? q)
    (cache : d.cache = c.cache) : Descends c d :=
  of_iff departed (keepsAs_congr slot? cache)

theorem of_release {m : PageModel K}
    (departed : d.departed = { m with attached := false } :: c.departed)
    (same : ∀ i, c.KeepsAs i ↔ m.identity = i ∨ d.KeepsAs i) : Descends c d where
  held i kept := Or.inl ((same i).mpr (Or.inr kept))
  log := by
    refine ⟨[{ m with attached := false }], departed, ?_, ?_⟩
    · intro gone member
      rw [List.mem_singleton.mp member]
      exact ⟨rfl, Or.inl ((same m.identity).mpr (Or.inl rfl))⟩
    · intro i kept
      rcases (same i).mp kept with rfl | kept
      · exact Or.inr (List.mem_singleton_self m.identity)
      · exact Or.inl kept

theorem refl (c : Collection K) : Descends c c := of_iff rfl fun _ => Iff.rfl

theorem trans (h : Descends c d) (g : Descends d e) : Descends c e where
  held i kept := by
    rcases g.held i kept with kept | own
    · exact h.held i kept
    · exact Or.inr own
  log := by
    obtain ⟨first, departed, released, stay⟩ := h.log
    obtain ⟨second, departed', released', stay'⟩ := g.log
    refine ⟨second ++ first, by rw [departed', departed, List.append_assoc], ?_, ?_⟩
    · intro m member
      rcases List.mem_append.mp member with later | earlier
      · obtain ⟨detached, known⟩ := released' m later
        rcases known with kept | own
        · exact ⟨detached, h.held m.identity kept⟩
        · exact ⟨detached, Or.inr own⟩
      · exact released m earlier
    · intro i kept
      rw [List.map_append, List.mem_append]
      rcases stay i kept with kept | left
      · rcases stay' i kept with kept | left
        · exact Or.inl kept
        · exact Or.inr (Or.inl left)
      · exact Or.inr (Or.inr left)

theorem refresh (c : Collection K) : Descends c c.refreshMaxPage.refreshLists :=
  of_contents rfl (fun _ => rfl) rfl

end Descends

/-! Passes over storage. -/

theorem dropRedirect_descends (c : Collection K) (page : Nat) :
    Descends c (c.dropRedirect page) := by
  rw [dropRedirect]
  split
  · rename_i m held
    split
    · refine Descends.of_release rfl fun i => ?_
      rw [keepsAs_iff_beside c page, held, Option.map_some, Option.some.injEq,
        ← setSlot_none_keepsAs]
      exact or_congr_right (keepsAs_congr (fun _ => rfl) rfl i)
    · exact Descends.refl c
  · exact Descends.refl c

theorem dropRedirects_descends (c : Collection K) : Descends c c.dropRedirects := by
  have pass : ∀ pages : List Nat, Descends c (pages.foldl dropRedirect c) := by
    intro pages
    induction pages generalizing c with
    | nil => exact Descends.refl c
    | cons p rest ih => exact (dropRedirect_descends c p).trans (ih (c.dropRedirect p))
  exact (pass c.span).trans (Descends.of_contents rfl (fun _ => rfl) rfl)

theorem restoreOne_descends {c : Collection K} (room : 0 < c.capacity) (m : PageModel K)
    (rest : List (PageModel K)) :
    Descends { c with cache := m :: rest } { c.restoreOne m with cache := rest } := by
  have inside : m.page < (c.reserve m.page).capacity := by
    rw [reserve_capacity]
    exact lt_capacityFor room m.page
  have reserved : ∀ i, ({ c.reserve m.page with cache := rest } : Collection K).KeepsAs i ↔
      ({ c with cache := rest } : Collection K).KeepsAs i :=
    keepsAs_congr (fun q => reserve_slot? c m.page q) rfl
  simp only [restoreOne]
  split
  · rename_i vacant
    refine Descends.of_iff rfl fun i => ?_
    rw [cons_keepsAs, ← reserved, keepsAs_iff_beside { c.reserve m.page with cache := rest } m.page]
    have empty : ({ c.reserve m.page with cache := rest } : Collection K).slot? m.page = none :=
      vacant
    rw [empty, Option.map_none]
    simp only [reduceCtorEq, false_or]
    exact setSlot_some_keepsAs (c := { c.reserve m.page with cache := rest }) inside m.adopted i
  · refine Descends.of_release (m := m) rfl fun i => ?_
    rw [cons_keepsAs, ← reserved]
    exact or_congr_right (keepsAs_congr (fun _ => rfl) rfl i)

theorem foldl_restoreOne_descends (models : List (PageModel K)) {c : Collection K}
    (room : 0 < c.capacity) :
    Descends { c with cache := models } { models.foldl restoreOne c with cache := [] } := by
  induction models generalizing c with
  | nil => exact Descends.refl _
  | cons m rest ih =>
      have grown : 0 < (c.restoreOne m).capacity := by
        rw [restoreOne_capacity]
        exact Nat.lt_of_lt_of_le room (le_capacityFor _ _)
      exact (restoreOne_descends room m rest).trans (ih grown)

theorem restored_descends {c : Collection K} (room : 0 < c.capacity) :
    Descends c c.dropRedirects.restoreCached := by
  have room' : 0 < c.dropRedirects.capacity := by rwa [dropRedirects_capacity]
  exact (dropRedirects_descends c).trans (foldl_restoreOne_descends c.dropRedirects.cache room')

theorem reopened_descends {c : Collection K} (room : 0 < c.capacity) : Descends c c.reopened :=
  (restored_descends room).trans (Descends.of_contents rfl (fun q => reserve_slot? _ _ q) rfl)

theorem redirectPage_descends (candidates : List Nat) (c : Collection K) (page : Nat) :
    Descends c (redirectPage candidates c page) := by
  simp only [redirectPage]
  split
  · exact Descends.refl c
  · rename_i vacant
    split
    · exact Descends.refl c
    · rename_i target _
      have beside : ∀ i, c.KeepsAs i ↔ c.KeepsBeside page i := by
        intro i
        rw [keepsAs_iff_beside c page, vacant]
        simp
      refine Descends.of_kept rfl ?_ ?_
      · intro i kept
        rw [keepsAs_iff_beside _ page, setSlot_beside, ← beside, setSlot_slot?, vacant] at kept
        rcases kept with new | kept
        · split at new
          · cases new
            exact Or.inr ⟨rfl, rfl⟩
          · cases new
        · exact Or.inl kept
      · intro i kept
        rw [keepsAs_iff_beside _ page, setSlot_beside, ← beside]
        exact Or.inr kept

theorem settled_descends (c : Collection K) (bound : Nat) : Descends c (c.settled bound) := by
  have pass : ∀ candidates pages : List Nat,
      Descends c (pages.foldl (redirectPage candidates) c) := by
    intro candidates pages
    induction pages generalizing c with
    | nil => exact Descends.refl c
    | cons p rest ih => exact (redirectPage_descends candidates c p).trans (ih _)
  exact (pass _ _).trans (Descends.of_contents rfl (fun _ => rfl) rfl)

theorem revalidatePage_descends (untested : Bool) (c : Collection K) (page : Nat) :
    Descends c (revalidatePage untested c page).state := by
  rcases revalidatePage_cases untested c page with same | ⟨m, held, _, same⟩
  · rw [same]
    exact Descends.refl c
  · rw [same]
    refine Descends.of_iff rfl fun i => ?_
    rw [keepsAs_iff_beside c page, held, Outcome.done_state,
      setSlot_some_keepsAs (lt_capacity_of_isSome (by simp [held])), PageModel.judged_identity]
    simp

theorem revalidate_descends (untested : Bool) (c : Collection K) :
    Descends c (c.revalidate untested).state :=
  Outcome.each_invariant (P := Descends c)
    (fun d p h => h.trans (revalidatePage_descends untested d p)) c.span (Descends.refl c)

/-! Single models. -/

theorem mem_cache_iff_uncached {c : Collection K} (distinct : c.cachedPages.Nodup)
    {m other : PageModel K} (cached : m ∈ c.cache) :
    other ∈ c.cache ↔ other = m ∨ other ∈ c.uncached m.page := by
  rw [mem_uncached]
  constructor
  · intro member
    by_cases same : other.page = m.page
    · have found := (cached?_eq_some_iff distinct).mpr ⟨cached, rfl⟩
      have found' := (cached?_eq_some_iff distinct).mpr ⟨member, same⟩
      exact Or.inl (Option.some.inj (found'.symm.trans found))
    · exact Or.inr ⟨member, by omega⟩
  · rintro (rfl | ⟨member, _⟩)
    · exact cached
    · exact member

theorem uncached_keepsAs {c : Collection K} (distinct : c.cachedPages.Nodup) {m : PageModel K}
    (cached : m ∈ c.cache) (i : Identity) :
    c.KeepsAs i ↔ m.identity = i ∨
      ({ c with cache := c.uncached m.page } : Collection K).KeepsAs i := by
  rw [← cons_keepsAs]
  simp only [KeepsAs, slot?, List.mem_map, List.mem_cons, mem_cache_iff_uncached distinct cached]

theorem remove_descends {c : Collection K} (distinct : c.cachedPages.Nodup) (page : Int) :
    Descends c (c.remove page).2 := by
  rw [remove]
  cases stored : c.model? page with
  | some m =>
      have held := (slot?_of_model? stored).2
      refine Descends.of_release (m := m) rfl fun i => ?_
      rw [keepsAs_iff_beside c page.toNat, held, Option.map_some, Option.some.injEq,
        ← setSlot_none_keepsAs]
      exact or_congr_right (keepsAs_congr (fun _ => rfl) rfl i)
  | none =>
      cases found : c.cached? page with
      | none => exact Descends.refresh c
      | some m =>
          obtain ⟨cached, rfl⟩ := mem_cache_of_cached? found
          refine Descends.of_release (m := m) rfl fun i => ?_
          rw [uncached_keepsAs distinct cached]
          exact or_congr_right (keepsAs_congr (fun _ => rfl) rfl i)

theorem consult_descends {c : Collection K} (distinct : c.cachedPages.Nodup) (page : Int) :
    Descends c (c.consult page).2 := by
  rcases consult_cases c page with same | ⟨m, cached, same⟩
  · rw [same]
    exact Descends.refl c
  · rw [same]
    refine Descends.of_iff rfl fun i => ?_
    rw [uncached_keepsAs distinct cached, snoc_keepsAs]

@[simp] theorem entered_identity (c : Collection K) (m : PageModel K) :
    (c.entered m).identity = m.identity := by
  rw [entered]
  split
  · rw [PageModel.judged_identity, PageModel.adopted_identity]
  · rfl

theorem shelved_keepsAs {c : Collection K} (h : c.Stocked) (m : PageModel K) (i : Identity) :
    (c.shelved m).KeepsAs i ↔ m.identity = i ∨ (c.KeepsAs i ∧ i.page ≠ m.page) := by
  have inserted := shelved_inserted h.room m
  simp only [KeepsAs, inserted.slot?, inserted.cache]
  constructor
  · rintro (⟨q, held⟩ | cached)
    · split at held
      · rw [Option.map_some, entered_identity] at held
        exact Or.inl (Option.some.inj held)
      · rename_i away
        obtain ⟨x, stored, rfl⟩ := Option.map_eq_some_iff.mp held
        refine Or.inr ⟨Or.inl ⟨q, held⟩, ?_⟩
        change x.page ≠ m.page
        rw [(h.slots q x stored).1]
        exact away
    · obtain ⟨x, member, rfl⟩ := List.mem_map.mp cached
      obtain ⟨member, away⟩ := mem_uncached.mp member
      exact Or.inr ⟨Or.inr (List.mem_map_of_mem member), fun same => away (congrArg Nat.cast same)⟩
  · rintro (rfl | ⟨⟨q, held⟩ | cached, away⟩)
    · exact Or.inl ⟨m.page, by rw [if_pos rfl, Option.map_some, entered_identity]⟩
    · obtain ⟨x, stored, rfl⟩ := Option.map_eq_some_iff.mp held
      have apart : q ≠ m.page := (h.slots q x stored).1 ▸ away
      exact Or.inl ⟨q, by rw [if_neg apart, held]⟩
    · obtain ⟨x, member, rfl⟩ := List.mem_map.mp cached
      refine Or.inr (List.mem_map_of_mem (mem_uncached.mpr ⟨member, ?_⟩))
      exact fun same => away (Int.ofNat.inj same)

theorem insert_outcome (c : Collection K) (m : PageModel K) :
    ((c.insert m).fault ≠ none ∧ (c.insert m).state = c) ∨
      ((c.insert m).fault = none ∧ (c.insert m).state = c.shelved m) := by
  by_cases foreign : m.stride ≠ c.settings.build.stride ∨ m.reduction ≠ c.settings.build.reduction
  · left
    simp [insert, foreign]
  · right
    rw [not_or, not_not, not_not] at foreign
    rw [insert_eq foreign.1 foreign.2]
    exact ⟨rfl, rfl⟩

theorem SameShelf.descends {c d : Collection K} (same : SameShelf c d)
    (departed : d.departed = c.departed) : Descends c d :=
  Descends.of_contents departed same.slot? same.cache

section Calls

variable [Scalar K]

theorem assign_departed (c : Collection K) (setting : Setting) (v : Value K) :
    (c.assign setting.name v).state.departed = c.departed := by
  cases setting with
  | minLines =>
      change (c.setMinLines v).state.departed = _
      rw [setMinLines]
      split <;> rfl
  | pageCount =>
      rw [assign_pageCount, setPageCount]
      split <;> rfl
  | useBoth => rfl
  | checkColumns => rfl
  | cacheSize => rfl
  | limit l =>
      rw [assign_limit, setThresholds]
      split <;> rfl

theorem setThresholds_departed (c : Collection K) (entries : List (String × Value K)) :
    (c.setThresholds entries).state.departed = c.departed := by
  rw [setThresholds]
  split <;> rfl

theorem trim_descends (bound : Value K) (c : Collection K) (models : List (PageModel K)) :
    Descends { c with cache := models } (trim bound c models).state := by
  induction models generalizing c with
  | nil =>
      rw [trim]
      split <;> exact Descends.refl _
  | cons m rest ih =>
      rw [trim]
      split
      · exact Descends.refl _
      · have dropped : Descends { c with cache := m :: rest }
            { c.release m with cache := rest } :=
          Descends.of_release (m := m) rfl (cons_keepsAs c m rest)
        exact dropped.trans (ih (c.release m))
      · exact Descends.refl _

theorem setAside_descends {c : Collection K} {m : PageModel K}
    (absent : c.uncached m.page = c.cache) :
    Descends { c with cache := c.cache ++ [m] } (c.setAside m).state := by
  rw [setAside, absent]
  split
  · exact Descends.of_release (m := m) rfl (snoc_keepsAs c c.cache m)
  · exact trim_descends c.cacheSize c _

theorem checkPage_descends {c : Collection K} (opened : c.Opened) (untested : Bool) (page : Nat) :
    Descends c (checkPage untested c page).state := by
  rw [checkPage_eq]
  split
  · exact Descends.refl c
  · rename_i m held
    have room : page < c.capacity := lt_capacity_of_isSome (by simp [held])
    have before : ∀ i, c.KeepsAs i ↔ m.identity = i ∨ c.KeepsBeside page i := by
      intro i
      rw [keepsAs_iff_beside c page, held, Option.map_some, Option.some.injEq]
    split
    · refine Descends.of_iff rfl fun i => ?_
      rw [Outcome.done_state, setSlot_some_keepsAs room, PageModel.judged_identity, before]
    · have absent : (c.setSlot page none).uncached
          (m.judged c.settings.thresholds untested).page = (c.setSlot page none).cache := by
        rw [PageModel.judged_page]
        exact opened.uncached_eq held
      refine Descends.trans ?_ (setAside_descends absent)
      refine Descends.of_iff rfl fun i => ?_
      rw [snoc_keepsAs, PageModel.judged_identity, before, ← setSlot_none_keepsAs]

theorem resolve_descends {c : Collection K} (consistent : c.Consistent) (untested : Bool)
    (pages : Value K) : Descends c (c.resolve untested pages).state := by
  by_cases accepted : ∃ n, Announces pages n
  · obtain ⟨n, announces⟩ := accepted
    have announced : (c.announcing n).Consistent := consistent.declare _
    have declared : Descends c (c.announcing n) := Descends.of_contents rfl (fun _ => rfl) rfl
    have ready := declared.trans (reopened_descends announced.room)
    have checked := (Outcome.each_invariant
      (P := fun d : Collection K => d.Opened ∧ Descends c d)
      (fun d p h => ⟨checkPage_opened h.1 untested p,
        h.2.trans (checkPage_descends h.1 untested p)⟩)
      (List.range (c.announcing n).reopened.pageCount) ⟨reopened_opened announced, ready⟩).2
    rw [resolve_eq announces, Outcome.andThen]
    split
    · exact checked.trans (settled_descends _ _)
    · exact checked
  · obtain ⟨fault, same⟩ := resolve_of_rejected c (not_exists.mp accepted) untested
    rw [same]
    exact Descends.refl c

/-- Whatever a call other than an insertion lets go, also one that stops, no longer belongs to the
collection. -/
theorem run_descends {c : Collection K} (h : c.Consistent) {a : Call K}
    (other : ∀ m, a ≠ .insert m) : Descends c (c.run a).state := by
  cases a with
  | insert m => exact absurd rfl (other m)
  | remove page => exact remove_descends h.distinct page
  | consult page => exact consult_descends h.distinct page
  | relist => exact Descends.of_contents rfl (fun _ => rfl) rfl
  | revalidate untested => exact revalidate_descends untested c
  | strip =>
      exact (dropRedirects_descends c).trans (Descends.of_contents rfl (fun _ => rfl) rfl)
  | restore =>
      exact (restored_descends h.room).trans (Descends.of_contents rfl (fun _ => rfl) rfl)
  | resolve untested pages => exact resolve_descends h untested pages
  | setThresholds entries =>
      exact (setThresholds_frame c entries).1.descends (setThresholds_departed c entries)
  | assign setting v => exact (assign_shelf c setting v).descends (assign_departed c setting v)

theorem run_keepsAs {c : Collection K} (h : c.Consistent) {a : Call K} {i : Identity}
    (kept : (c.run a).state.KeepsAs i) :
    c.KeepsAs i ∨ i.OwnMaking ∨ ∃ m, a = .insert m ∧ m.identity = i := by
  by_cases insertion : ∃ m, a = .insert m
  · obtain ⟨m, rfl⟩ := insertion
    rw [run] at kept
    rcases insert_outcome c m with ⟨_, same⟩ | ⟨_, same⟩
    · rw [same] at kept
      exact Or.inl kept
    · rw [same, shelved_keepsAs h.toStocked] at kept
      rcases kept with taken | ⟨kept, _⟩
      · exact Or.inr (Or.inr ⟨m, rfl, taken⟩)
      · exact Or.inl kept
  · exact ((run_descends h (not_exists.mp insertion)).held i kept).imp_right Or.inl

end Calls

end Collection

end PageFlattening
