import PageFlattening.Proofs.Saving

/-! Reading back comes to the same as restoring. What this relies on, `Storable`, is kept by every
call that inserts only models that there can be. Redirects and the order of the cache are not
stored, and a resolution does not look at them: so the copy and the collection itself resolve
alike. -/
namespace PageFlattening

namespace Collection

variable {K : Type}

/-! What saving relies on, in every state that is reached. -/

def Carries (c : Collection K) (m : PageModel K) : Prop :=
  (∃ p, c.slot? p = some m) ∨ m ∈ c.cache

structure Storable (c : Collection K) : Prop where
  top : Top c c.maxPage
  sized : ∃ size : Nat, c.cacheSize = .int size
  formed : ∀ m, c.Carries m → m.WellFormed

theorem carries_of_own? {c : Collection K} {p : Nat} {m : PageModel K} (own : c.own? p = some m) :
    c.Carries m := by
  rcases own?_cases own with ⟨held, _⟩ | ⟨cached, _⟩
  · exact Or.inl ⟨p, held⟩
  · exact Or.inr cached

theorem empty_storable (settings : Settings) (cacheSize : Nat) :
    (empty settings cacheSize : Collection K).Storable := by
  refine ⟨(empty_current settings cacheSize).top, ⟨cacheSize, rfl⟩, ?_⟩
  rintro m (⟨p, held⟩ | cached)
  · rw [empty_slot?] at held
    cases held
  · cases cached

theorem Storable.declare {c : Collection K} (h : c.Storable) (n : Nat) :
    { c with declaredPages := n }.Storable :=
  ⟨h.top.congr fun _ => rfl, h.sized, h.formed⟩

theorem Inserted.storable {c d : Collection K} {m : PageModel K} (i : Inserted c m d)
    (h : c.Storable) (made : m.WellFormed) : d.refreshLists.Storable := by
  have enters : (c.entered m).WellFormed := by
    rw [entered]
    split
    · exact (made.congr rfl fun _ => rfl : m.adopted.WellFormed).judged _ _
    · exact made.congr rfl fun _ => rfl
  obtain ⟨size, cacheSize⟩ := h.sized
  refine ⟨(i.top h.top).congr fun _ => rfl, ⟨size, i.cacheSize.trans cacheSize⟩, ?_⟩
  rintro other (⟨p, held⟩ | cached)
  · change d.slot? p = some other at held
    rw [i.slot?] at held
    split at held
    · cases held
      exact enters
    · exact h.formed other (Or.inl ⟨p, held⟩)
  · change other ∈ d.cache at cached
    rw [i.cache] at cached
    exact h.formed other (Or.inr (mem_uncached.mp cached).1)

theorem remove_storable {c : Collection K} (h : c.Storable) (page : Int) :
    (c.remove page).2.Storable := by
  obtain ⟨d, same, ledger, _, slots, cache⟩ := remove_cases c page
  obtain ⟨size, cacheSize⟩ := h.sized
  rw [same]
  refine ⟨refresh_top d, ⟨size, ledger.cacheSize.trans cacheSize⟩, ?_⟩
  rintro m (⟨p, held⟩ | cached)
  · change d.slot? p = some m at held
    rw [slots] at held
    split at held
    · cases held
    · exact h.formed m (Or.inl ⟨p, held⟩)
  · change m ∈ d.cache at cached
    rw [cache] at cached
    split at cached
    · exact h.formed m (Or.inr cached)
    · exact h.formed m (Or.inr (mem_uncached.mp cached).1)

theorem consult_storable {c : Collection K} (h : c.Storable) (page : Int) :
    (c.consult page).2.Storable := by
  rcases consult_cases c page with same | ⟨m, member, same⟩
  · rw [same]
    exact h
  · rw [same]
    refine ⟨h.top.congr fun _ => rfl, h.sized, ?_⟩
    rintro other (held | cached)
    · exact h.formed other (Or.inl held)
    · rcases List.mem_append.mp cached with old | new
      · exact h.formed other (Or.inr (mem_uncached.mp old).1)
      · rw [List.mem_singleton.mp new]
        exact h.formed m (Or.inr member)

theorem revalidatePage_storable {c : Collection K} (h : c.Storable) (untested : Bool)
    (page : Nat) : (revalidatePage untested c page).state.Storable := by
  refine ⟨revalidatePage_top h.top untested page, ?_, ?_⟩
  · rcases revalidatePage_cases untested c page with same | ⟨_, _, _, same⟩ <;> rw [same] <;>
      exact h.sized
  · rcases revalidatePage_cases untested c page with same | ⟨m, stored, _, same⟩
    · rw [same]
      exact h.formed
    · rw [same]
      rintro other (⟨p, held⟩ | cached)
      · rw [Outcome.done_state, setSlot_slot?] at held
        split at held
        · cases held
          exact (h.formed m (Or.inl ⟨page, stored⟩)).judged _ _
        · exact h.formed other (Or.inl ⟨p, held⟩)
      · exact h.formed other (Or.inr cached)

theorem strip_storable {c : Collection K} (h : c.Storable) (redirects : c.RedirectsBelow) :
    c.strip.Storable := by
  obtain ⟨size, cacheSize⟩ := h.sized
  refine ⟨(dropRedirects_top c).congr fun _ => rfl,
    ⟨size, (dropRedirects_cacheSize c).trans cacheSize⟩, ?_⟩
  rintro m (⟨p, held⟩ | cached)
  · change c.dropRedirects.slot? p = some m at held
    rw [dropRedirects_slot? redirects] at held
    exact h.formed m (Or.inl ⟨p, (builtPart_eq_some_iff.mp held).1⟩)
  · change m ∈ c.dropRedirects.cache at cached
    rw [dropRedirects_cache] at cached
    exact h.formed m (Or.inr cached)

theorem restore_storable {c : Collection K} (h : c.Storable) (workable : c.Workable) :
    c.restore.Storable := by
  obtain ⟨size, cacheSize⟩ := h.sized
  refine ⟨restore_top c, ⟨size, (restore_cacheSize c).trans cacheSize⟩, ?_⟩
  rintro m (⟨p, held⟩ | cached)
  · rw [restore_slot? workable] at held
    exact h.formed m (carries_of_own? held)
  · cases cached

theorem SameShelf.storable {c d : Collection K} (same : SameShelf c d) (h : c.Storable)
    (sized : ∃ size : Nat, d.cacheSize = .int size) : d.Storable := by
  refine ⟨?_, sized, ?_⟩
  · rw [same.maxPage]
    exact h.top.congr fun p => by rw [same.slot?]
  · rintro m (⟨p, held⟩ | cached)
    · rw [same.slot?] at held
      exact h.formed m (Or.inl ⟨p, held⟩)
    · rw [same.cache] at cached
      exact h.formed m (Or.inr cached)

theorem redirectTo_wellFormed (settings : Settings) (page target : Nat) :
    (redirectTo settings page target : PageModel K).WellFormed :=
  (PageModel.blank_wellFormed page 0 0 settings.build.stride settings.build.reduction).congr rfl
    fun _ => rfl

theorem Concluded.storable {c after : Collection K} {untested : Bool} {bound size : Nat}
    (h : Concluded c untested bound size after) (old : c.Storable) : after.Storable := by
  obtain ⟨number, cacheSize⟩ := old.sized
  have judged : ∀ p m, c.own? p = some m →
      (m.judged c.settings.thresholds untested).WellFormed :=
    fun p m own => (old.formed m (carries_of_own? own)).judged _ _
  refine ⟨h.top, ⟨number, h.cacheSize.trans cacheSize⟩, ?_⟩
  rintro m (⟨p, held⟩ | cached)
  · rw [h.slot?, assigned] at held
    split at held
    · rw [filledPart, Option.or_eq_some_iff] at held
      rcases held with passes | ⟨_, redirected⟩
      · obtain ⟨own, found, rfl, _⟩ := keptPart_eq_some_iff.mp passes
        exact judged p own found
      · obtain ⟨target, _, rfl⟩ := Option.map_eq_some_iff.mp redirected
        exact redirectTo_wellFormed c.settings p target
    · cases held
  · obtain ⟨p, _, fails⟩ := h.mem_cache cached
    obtain ⟨own, found, rfl, _⟩ := rejectedPart_eq_some_iff.mp fails
    exact judged p own found

section Calls

variable [Scalar K]

theorem resolve_storable {c : Collection K} (consistent : c.Consistent) (covered : c.Covered)
    (h : c.Storable) (untested : Bool) (pages : Value K) :
    (c.resolve untested pages).state.Storable := by
  by_cases accepted : ∃ n, Announces pages n
  · obtain ⟨n, announced⟩ := accepted
    obtain ⟨size, cacheSize⟩ := h.sized
    obtain ⟨after, done, concluded⟩ := resolve_concluded consistent covered cacheSize untested
      announced
    rw [done]
    exact concluded.storable h
  · obtain ⟨fault, same⟩ := resolve_of_rejected c (not_exists.mp accepted) untested
    rw [same]
    exact h

/-- The calls that insert only models that there can be, never assign fewer pages than there are,
and never a size of the cache that is no natural number. -/
def Orderly (c : Collection K) : Call K → Prop
  | .insert m => m.Made
  | .assign .cacheSize v => ∃ n : Nat, v = .int n
  | a => c.Extending a

theorem Orderly.extending {c : Collection K} {a : Call K} (h : c.Orderly a) : c.Extending a := by
  cases a with
  | insert m => trivial
  | assign setting v =>
      cases setting with
      | cacheSize => trivial
      | _ => exact h
  | _ => exact h

theorem run_storable {c : Collection K} (consistent : c.Consistent) (covered : c.Covered)
    (h : c.Storable) {a : Call K} (orderly : c.Orderly a) : (c.run a).state.Storable := by
  obtain ⟨size, cacheSize⟩ := h.sized
  cases a with
  | insert m =>
      rcases insert_cases consistent.room m with ⟨same, _⟩ | ⟨_, _, d, inserted, same⟩
      · rw [run, same]
        exact h
      · rw [run, same]
        exact inserted.storable h (PageModel.Made.wellFormed orderly)
  | remove page => exact remove_storable h page
  | consult page => exact consult_storable h page
  | relist => exact ⟨h.top.congr fun _ => rfl, h.sized, h.formed⟩
  | revalidate untested =>
      exact Outcome.each_invariant (P := Storable)
        (fun _ p storable => revalidatePage_storable storable untested p) c.span h
  | strip => exact strip_storable h consistent.redirects
  | restore => exact restore_storable h consistent.workable
  | resolve untested pages => exact resolve_storable consistent covered h untested pages
  | setThresholds entries =>
      have frame := setThresholds_frame c entries
      exact frame.1.storable h ⟨size, frame.2.1.trans cacheSize⟩
  | assign setting v =>
      refine (assign_shelf c setting v).storable h ?_
      by_cases resized : setting = .cacheSize
      · subst resized
        obtain ⟨n, rfl⟩ := orderly
        exact ⟨n, rfl⟩
      · exact ⟨size, (assign_cacheSize c resized v).trans cacheSize⟩

theorem Reachable.storable {c : Collection K} (h : Reachable Orderly c) :
    c.Covered ∧ c.Storable := by
  refine Reachable.invariant (P := fun d => d.Covered ∧ d.Storable) ?_ ?_ ?_ ?_ h
  · intro d v m read
    exact .fresh (.loaded read)
  · intro settings cacheSize
    exact ⟨empty_covered settings cacheSize, empty_storable settings cacheSize⟩
  · intro d n old enough
    exact ⟨old.1.declare enough, old.2.declare n⟩
  · intro d a consistent old orderly
    exact ⟨orderly.extending.covered consistent old.1,
      run_storable consistent old.1 old.2 orderly⟩

end Calls

/-! The collection that is read back. -/

theorem filter_judged_untagged {keeps : PageModel K → Bool}
    (h : ∀ m, keeps m.untagged = keeps m) (t : Thresholds) (untested : Bool)
    (slot : Option (PageModel K)) :
    ((slot.map PageModel.untagged).map fun m => m.judged t untested).filter keeps =
      ((slot.map fun m => m.judged t untested).filter keeps).map PageModel.untagged := by
  cases slot with
  | none => rfl
  | some m =>
      simp only [Option.map_some, PageModel.judged_untagged, Option.filter, h]
      split <;> rfl

theorem restore_listed (c : Collection K) : Listed c.restore :=
  (refresh_listed c.dropRedirects.restoreCached).congr rfl rfl fun _ => rfl

theorem Alike.model? {f : PageModel K → PageModel K} {a b : Collection K} (h : Alike f a b)
    (page : Int) : b.model? page = (a.model? page).map f := by
  rw [Collection.model?, Collection.model?, h.maxPage]
  split
  · rfl
  · exact h.slot? page.toNat

theorem Alike.effective_untagged {a b : Collection K} (h : Alike PageModel.untagged a b)
    (page : Int) : b.effective page = (a.effective page).map PageModel.untagged := by
  have redirect : ∀ m : PageModel K, m.untagged.redirect = m.redirect := fun _ => rfl
  have kind : ∀ m : PageModel K, m.untagged.isRedirect = m.isRedirect := fun _ => rfl
  have verdict : ∀ m : PageModel K, m.untagged.verticalValid = m.verticalValid := fun _ => rfl
  simp only [effective, h.model?]
  cases a.model? page with
  | none => rfl
  | some m =>
      simp only [Option.map_some, redirect, verdict]
      cases m.redirect with
      | none => cases m.verticalValid <;> rfl
      | some target =>
          dsimp only
          cases a.model? target with
          | none => rfl
          | some donor =>
              simp only [Option.map_some, kind, verdict]
              cases (donor.isRedirect || !donor.verticalValid) <;> rfl

theorem Alike.cachedPages_untagged {a b : Collection K} (h : Alike PageModel.untagged a b) :
    b.cachedPages = a.cachedPages := by
  rw [cachedPages, h.cache, List.map_map]
  rfl

section Calls

variable [Scalar K]

/-- A collection that was read back, next to the one that was stored: the settings are the same,
the contents are those after a restoration, and nothing is resolved. -/
structure ReadBack (c l : Collection K) : Prop where
  settings : l.settings = c.settings
  cacheSize : l.cacheSize = c.cacheSize
  pageCount : l.pageCount = c.pageCount
  contents : Alike PageModel.untagged c.restore l
  cache : l.cache = []
  ready : l.ready = false

structure SameResolution (c l : Collection K) (untested : Bool) (pages : Value K) : Prop where
  accepted : ∀ n, Announces pages n → ∃ a b, c.resolve untested pages = .done a ∧
    l.resolve untested pages = .done b ∧ Alike PageModel.untagged a b ∧
    (∀ page, b.effective page = (a.effective page).map PageModel.untagged) ∧
    b.cachedPages = a.cachedPages
  refused : (∀ n, ¬ Announces pages n) → ∃ fault, c.resolve untested pages = .stopped c fault ∧
    l.resolve untested pages = .stopped l fault

theorem sameResolution {c l : Collection K} (consistent : c.Consistent) (covered : c.Covered)
    (consistent' : l.Consistent) (covered' : l.Covered) {size : Nat}
    (cacheSize : c.cacheSize = .int size) (cacheSize' : l.cacheSize = c.cacheSize)
    (settings : l.settings = c.settings) (declared : l.declaredPages = c.declaredPages)
    (own : ∀ p, l.own? p = (c.own? p).map PageModel.untagged) (untested : Bool)
    (pages : Value K) : SameResolution c l untested pages where
  accepted n announced := by
    obtain ⟨a, done, concluded⟩ := resolve_concluded consistent covered cacheSize untested announced
    obtain ⟨b, done', concluded'⟩ := resolve_concluded consistent' covered'
      (cacheSize'.trans cacheSize) untested announced
    rw [declared] at concluded'
    have alike : Alike PageModel.untagged a b := by
      refine concluded.alike concluded' settings (fun _ _ => rfl) (fun _ => rfl) ?_ ?_
      · intro p
        rw [passing, passing, settings, own]
        exact filter_judged_untagged (fun _ => rfl) _ _ _
      · have all : l.rejects untested (max n c.declaredPages) =
            (c.rejects untested (max n c.declaredPages)).map PageModel.untagged := by
          rw [rejects, rejects, List.map_filterMap]
          refine List.filterMap_congr fun p _ => ?_
          rw [failing, failing, settings, own]
          exact filter_judged_untagged (fun _ => rfl) _ _ _
        rw [all, List.rtake, List.rtake, List.length_map, List.map_drop]
    exact ⟨a, b, done, done', alike, alike.effective_untagged, alike.cachedPages_untagged⟩
  refused h := by
    obtain ⟨fault, stops⟩ := resolve_of_refused h
    exact ⟨fault, stops c untested, stops l untested⟩

/-- Reading back what was stored comes to the same as a restoration: however a collection has come
about by orderly calls, as long as no model that it holds has a horizontal field valid by itself. -/
theorem ofRecord_restored {c : Collection K} (h : Reachable Orderly c)
    (lawful : ∀ p m, c.own? p = some m → m.Lawful) :
    ∃ l, ofRecord c.record = .ok l ∧ ReadBack c l ∧
      ∀ untested pages, SameResolution c l untested pages := by
  obtain ⟨covered, storable⟩ := h.storable
  obtain ⟨size, cacheSize⟩ := storable.sized
  have consistent := h.consistent
  have workable := consistent.workable
  obtain ⟨l, read, settings, cacheSize', declared, cache, ready, slots⟩ := ofRecord_record consistent
    covered storable.top cacheSize (fun p m own => storable.formed m (carries_of_own? own)) lawful
  have loaded : Reachable Growing l := .loaded read
  have current := (loaded.mono fun _ _ grows => grows.keeps_cacheSize).current
  have restored : ∀ p, l.slot? p = (c.restore.slot? p).map PageModel.untagged := by
    intro p
    rw [slots, restore_slot? workable]
  have kinds : ∀ p, (l.slot? p).map (·.isRedirect) = (c.restore.slot? p).map (·.isRedirect) := by
    intro p
    rw [restored, Option.map_map]
    rfl
  have top := (restore_top c).unique current.top fun p => by rw [restored, Option.isSome_map]
  have lists := (restore_listed c).unique current.listed kinds
  have count : l.pageCount = c.pageCount := by
    rw [loaded.covered.pageCount current.top, covered.pageCount storable.top, declared]
  have own : ∀ p, l.own? p = (c.own? p).map PageModel.untagged := by
    intro p
    rw [own?, slots, cached?, cache, List.find?_nil, Option.or_none]
    cases found : c.own? p with
    | none => rfl
    | some m =>
        have built := workable.own?_isRedirect found
        have same : m.untagged.isRedirect = false := built
        simp [same]
  refine ⟨l, read, ⟨settings, cacheSize', count, ?_, cache, ready⟩, fun untested pages => ?_⟩
  · refine ⟨restored, cache, top, ?_, lists.2, lists.1, ready⟩
    rw [count, (restore_covered covered workable).pageCount (restore_top c), restore_declaredPages,
      covered.pageCount storable.top]
  · exact sameResolution consistent covered loaded.consistent loaded.covered cacheSize cacheSize'
      settings declared own untested pages

end Calls

theorem sheet_fresh (page : Nat) : PageModel.Fresh (sheet page .notAttempted) :=
  .made (PageModel.make_ints
    (show (30 : Int) = 0 → (60 : Int) = 0 ∧ (90 : Int) = 0 by decide) page 1)

theorem sheet_failed_made (page : Nat) : (sheet page .failed).Made :=
  .edited (.fresh (sheet_fresh page)) (.markFailed [.vertical])

theorem sheet_built_made (page : Nat) :
    (sheet page (.held .pending (PageModel.stillField .vertical))).Made :=
  .edited (.fresh (sheet_fresh page)) (.setField (PageModel.stillField .vertical))

theorem narrowed_restored :
    Reachable Orderly (standardShelf.afterCalls narrowedCalls) ∧
      (standardShelf.afterCalls narrowedCalls).cachedPages = [2, 4] ∧
      (∀ p m, (standardShelf.afterCalls narrowedCalls).own? p = some m → m.Lawful) ∧
      ∃ l, ofRecord (standardShelf.afterCalls narrowedCalls).record = .ok l ∧
        ReadBack (standardShelf.afterCalls narrowedCalls) l ∧
        ∀ untested pages,
          SameResolution (standardShelf.afterCalls narrowedCalls) l untested pages := by
  have reachable : Reachable Orderly (standardShelf.afterCalls narrowedCalls) := by
    refine (standardShelf_reachable _).afterCalls ?_
    intro d a member
    simp only [narrowedCalls, List.mem_cons, List.not_mem_nil, or_false] at member
    rcases member with rfl | rfl | rfl | rfl | rfl
    · exact sheet_built_made 0
    · exact sheet_failed_made 2
    · exact sheet_failed_made 4
    · trivial
    · exact ⟨1, rfl⟩
  have stocked := reachable.consistent.toStocked
  have all : ∀ m ∈ (standardShelf.afterCalls narrowedCalls).builtModels, m.Lawful := by
    decide +kernel
  have lawful : ∀ p m, (standardShelf.afterCalls narrowedCalls).own? p = some m → m.Lawful := by
    intro p m own
    have page := own?_page stocked own
    exact all m ((mem_builtModels stocked reachable.storable.2.top).mpr (page ▸ own))
  exact ⟨reachable, by decide +kernel, lawful, ofRecord_restored reachable lawful⟩

end Collection

end PageFlattening
