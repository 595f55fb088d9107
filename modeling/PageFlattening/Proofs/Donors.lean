import PageFlattening.Proofs.Rendering
import PageFlattening.Proofs.Settlement

/-!
Whom a page borrows from. A redirect is made by a resolution alone, and points to another page of
the same parity within the distance; as long as only built models are inserted this stays so,
whatever becomes of the donor. The donor itself is looked up when it is needed, so that it counts
only while it is in storage and valid.
-/
namespace PageFlattening

namespace Collection

variable {K : Type}

def RedirectsNear (c : Collection K) : Prop :=
  ∀ p r, c.slot? p = some r → ∀ q, r.redirect = some q →
    q ≠ p ∧ q % 2 = p % 2 ∧ ((p : Int) - q).natAbs ≤ c.settings.maxDistance

theorem redirect_eq_none {m : PageModel K} (h : m.isRedirect = false) : m.redirect = none := by
  rw [PageModel.isRedirect, Option.isSome_eq_false_iff, Option.isNone_iff_eq_none] at h
  exact h

theorem RedirectsNear.mono {c d : Collection K} (h : c.RedirectsNear)
    (distance : d.settings.maxDistance = c.settings.maxDistance)
    (slots : ∀ p m, d.slot? p = some m → m.isRedirect = false ∨ c.slot? p = some m) :
    d.RedirectsNear := by
  intro p r held q redirect
  rcases slots p r held with built | old
  · rw [redirect_eq_none built] at redirect
    cases redirect
  · rw [distance]
    exact h p r old q redirect

theorem redirectsNear_of_built {c : Collection K}
    (h : ∀ p m, c.slot? p = some m → m.isRedirect = false) : c.RedirectsNear := by
  intro p r held q redirect
  rw [redirect_eq_none (h p r held)] at redirect
  cases redirect

/-! One call. -/

theorem entered_isRedirect (c : Collection K) (m : PageModel K) :
    (c.entered m).isRedirect = m.isRedirect := by
  rw [entered]
  split
  · rw [PageModel.judged_isRedirect]
    rfl
  · rfl

theorem insert_redirectsNear {c : Collection K} (h : c.RedirectsNear) (room : 0 < c.capacity)
    {m : PageModel K} (built : m.isRedirect = false) : (c.insert m).state.RedirectsNear := by
  rcases insert_cases room m with ⟨same, _⟩ | ⟨_, _, d, inserted, same⟩
  · rw [same]
    exact h
  · rw [same]
    apply h.mono (congrArg Settings.maxDistance inserted.settings)
    intro p other held
    change d.slot? p = some other at held
    rw [inserted.slot?] at held
    split at held
    · cases held
      exact Or.inl ((entered_isRedirect c m).trans built)
    · exact Or.inr held

theorem remove_redirectsNear {c : Collection K} (h : c.RedirectsNear) (page : Int) :
    (c.remove page).2.RedirectsNear := by
  obtain ⟨d, same, ledger, _, slots, _⟩ := remove_cases c page
  rw [same]
  apply h.mono (congrArg Settings.maxDistance ledger.settings)
  intro p m held
  change d.slot? p = some m at held
  rw [slots] at held
  split at held
  · cases held
  · exact Or.inr held

theorem consult_redirectsNear {c : Collection K} (h : c.RedirectsNear) (page : Int) :
    (c.consult page).2.RedirectsNear := by
  rcases consult_cases c page with same | ⟨m, _, same⟩ <;> rw [same] <;> exact h

theorem revalidatePage_redirectsNear {c : Collection K} (h : c.RedirectsNear) (untested : Bool)
    (page : Nat) : (revalidatePage untested c page).state.RedirectsNear := by
  rcases revalidatePage_cases untested c page with same | ⟨m, _, built, same⟩
  · rw [same]
    exact h
  · rw [same, Outcome.done_state]
    apply h.mono (congrArg Settings.maxDistance (setSlot_ledger c page _).settings)
    intro p other held
    rw [setSlot_slot?] at held
    split at held
    · cases held
      exact Or.inl ((PageModel.judged_isRedirect m _ _).trans built)
    · exact Or.inr held

theorem strip_redirectsNear {c : Collection K} (below : c.RedirectsBelow) :
    c.strip.RedirectsNear := by
  apply redirectsNear_of_built
  intro p m held
  change c.dropRedirects.slot? p = some m at held
  rw [dropRedirects_slot? below] at held
  exact (builtPart_eq_some_iff.mp held).2

theorem restore_redirectsNear {c : Collection K} (workable : c.Workable) :
    c.restore.RedirectsNear := by
  apply redirectsNear_of_built
  intro p m held
  rw [restore_slot? workable] at held
  exact workable.own?_isRedirect held

theorem Reviewed.redirectsNear {c after : Collection K} {untested : Bool} {bound : Nat}
    (h : Reviewed c untested bound after) (workable : c.Workable)
    (settings : after.settings = c.settings) : after.RedirectsNear := by
  intro p r held q redirect
  rw [settings]
  by_cases below : p < bound
  · by_cases qualifies : c.Qualifies untested p
    · obtain ⟨m, own, passes⟩ := qualifies
      rw [h.kept p m below own passes] at held
      cases held
      have built := (PageModel.judged_isRedirect m c.settings.thresholds untested).trans
        (workable.own?_isRedirect own)
      rw [redirect_eq_none built] at redirect
      cases redirect
    · obtain ⟨d, donor, rfl⟩ := (h.redirected p below qualifies r).mp held
      cases redirect
      have other : q ≠ p := by
        intro same
        exact qualifies (same ▸ donor.valid.2)
      exact ⟨other, donor.parity, donor.within⟩
  · rw [h.beyond p (Nat.not_lt.mp below)] at held
    rw [redirect_eq_none (workable.own?_isRedirect held)] at redirect
    cases redirect

section Calls

variable [Scalar K]

theorem resolve_redirectsNear {c : Collection K} (h : c.RedirectsNear)
    (consistent : c.Consistent) (untested : Bool) (pages : Value K) :
    (c.resolve untested pages).state.RedirectsNear := by
  by_cases accepted : ∃ n, Announces pages n
  · obtain ⟨n, announces⟩ := accepted
    have announced : (c.announcing n).Consistent := consistent.declare _
    have opened := each_checkPage_opened (reopened_opened announced) untested
      (List.range (c.announcing n).reopened.pageCount)
    have frame := each_checkPage_frame untested (c.announcing n).reopened
      (List.range (c.announcing n).reopened.pageCount)
    rw [resolve_eq announces, Outcome.andThen]
    split
    · rename_i runs
      apply (settled_reviewed announced.workable untested runs).redirectsNear announced.workable
      rw [settled_settings, frame.1.settings, reopened_settings]
    · -- What has stopped in the middle of the check has no redirects at all.
      exact redirectsNear_of_built opened.built
  · obtain ⟨fault, same⟩ := resolve_of_rejected c (not_exists.mp accepted) untested
    rw [same]
    exact h

theorem setThresholds_maxDistance (c : Collection K) (entries : List (String × Value K)) :
    (c.setThresholds entries).state.settings.maxDistance = c.settings.maxDistance := by
  rw [setThresholds]
  split <;> rfl

theorem assign_maxDistance (c : Collection K) (setting : Setting) (v : Value K) :
    (c.assign setting.name v).state.settings.maxDistance = c.settings.maxDistance := by
  cases setting with
  | minLines =>
      change (c.setMinLines v).state.settings.maxDistance = _
      rw [setMinLines]
      split <;> rfl
  | pageCount =>
      rw [assign_pageCount, setPageCount]
      split <;> rfl
  | useBoth => rfl
  | checkColumns => rfl
  | cacheSize => rfl
  | limit l =>
      rw [assign_limit]
      exact setThresholds_maxDistance c _

theorem run_redirectsNear {c : Collection K} (h : c.RedirectsNear) (consistent : c.Consistent)
    {a : Call K} (built : ∀ m, a = .insert m → m.isRedirect = false) :
    (c.run a).state.RedirectsNear := by
  cases a with
  | insert m => exact insert_redirectsNear h consistent.room (built m rfl)
  | remove page => exact remove_redirectsNear h page
  | consult page => exact consult_redirectsNear h page
  | relist => exact h
  | revalidate untested =>
      exact Outcome.each_invariant (P := RedirectsNear)
        (fun _ p near => revalidatePage_redirectsNear near untested p) c.span h
  | strip => exact strip_redirectsNear consistent.redirects
  | restore => exact restore_redirectsNear consistent.workable
  | resolve untested pages => exact resolve_redirectsNear h consistent untested pages
  | setThresholds entries =>
      apply h.mono (setThresholds_maxDistance c entries)
      intro p m held
      change (c.setThresholds entries).state.slot? p = some m at held
      rw [(setThresholds_frame c entries).1.slot?] at held
      exact Or.inr held
  | assign setting v =>
      apply h.mono (assign_maxDistance c setting v)
      intro p m held
      change (c.assign setting.name v).state.slot? p = some m at held
      rw [(assign_shelf c setting v).slot?] at held
      exact Or.inr held

/-! Every state that is ever reached. -/

def BuiltRecord (v : Value K) : Prop :=
  ∀ stored models, v.field "models" = .ok stored → storedList stored = .ok models →
    ∀ w ∈ models, ∀ m, PageModel.ofRecord w = .ok m → m.isRedirect = false

/-- The states that a collection comes to when nothing but built models is inserted, whether by a
call or while it is read back. -/
inductive BuiltReachable : Collection K → Prop
  | made {d : Draft K} {c : Collection K} (h : ofDraft d = .ok c) : BuiltReachable c
  | loaded {v : Value K} {c : Collection K} (h : ofRecord v = .ok c) (built : BuiltRecord v) :
      BuiltReachable c
  | call {c : Collection K} (before : BuiltReachable c) (a : Call K)
      (built : ∀ m, a = .insert m → m.isRedirect = false) : BuiltReachable (c.run a).state

theorem BuiltReachable.reachable {c : Collection K} (h : BuiltReachable c) :
    Reachable (fun _ _ => True) c := by
  induction h with
  | made h => exact .made h
  | loaded h _ => exact .loaded h
  | call _ a _ ih => exact .call ih a trivial

theorem BuiltReachable.afterCalls {c : Collection K} (h : BuiltReachable c) {calls : List (Call K)}
    (built : ∀ a ∈ calls, ∀ m, a = .insert m → m.isRedirect = false) :
    BuiltReachable (c.afterCalls calls) := by
  induction calls generalizing c with
  | nil => exact h
  | cons a rest ih =>
      rw [List.forall_mem_cons] at built
      exact ih (.call h a built.1) built.2

theorem insertStored_redirectsNear {models : List (Value K)}
    (built : ∀ w ∈ models, ∀ m, PageModel.ofRecord w = .ok m → m.isRedirect = false)
    {c d : Collection K} (h : c.RedirectsNear) (consistent : c.Consistent)
    (inserted : c.insertStored models = .ok d) : d.RedirectsNear := by
  induction models generalizing c with
  | nil =>
      cases inserted
      exact h
  | cons w rest ih =>
      rw [List.forall_mem_cons] at built
      rw [insertStored] at inserted
      obtain ⟨m, read, inserted⟩ := exists_of_bind_eq_ok inserted
      obtain ⟨next, first, inserted⟩ := exists_of_bind_eq_ok inserted
      have same := Outcome.result_eq_ok_iff.mp first
      have near := insert_redirectsNear h consistent.room (built.1 m read)
      have kept := insert_consistent consistent m
      rw [same] at near kept
      exact ih built.2 near kept inserted

theorem ofRecord_redirectsNear {v : Value K} {c : Collection K} (built : BuiltRecord v)
    (h : ofRecord v = .ok c) : c.RedirectsNear := by
  rw [ofRecord] at h
  obtain ⟨first, made, h⟩ := exists_of_bind_eq_ok h
  obtain ⟨settings, cacheSize, rfl⟩ := ofStoredSettings_eq_empty made
  obtain ⟨stored, found, h⟩ := exists_of_bind_eq_ok h
  obtain ⟨models, listed, h⟩ := exists_of_bind_eq_ok h
  obtain ⟨filled, inserted, h⟩ := exists_of_bind_eq_ok h
  obtain ⟨w, _, h⟩ := exists_of_bind_eq_ok h
  have start := empty_opened (K := K) settings cacheSize
  have near := insertStored_redirectsNear (built stored models found listed)
    (redirectsNear_of_built start.built) start.consistent inserted
  have counted := Outcome.result_eq_ok_iff.mp h
  rw [setPageCount] at counted
  split at counted
  · cases counted
    exact near
  · cases counted

theorem BuiltReachable.redirectsNear {c : Collection K} (h : BuiltReachable c) :
    c.RedirectsNear := by
  induction h with
  | made h =>
      obtain ⟨settings, cacheSize, rfl⟩ := ofDraft_eq_empty h
      exact redirectsNear_of_built (empty_opened settings cacheSize).built
  | loaded h built => exact ofRecord_redirectsNear built h
  | call before a built ih => exact run_redirectsNear ih before.reachable.consistent built

end Calls

theorem effective_cases {c : Collection K} {page : Int} {m : PageModel K}
    (h : c.effective page = some m) :
    m.isRedirect = false ∧ m.verticalValid = true ∧
      (c.model? page = some m ∨
        ∃ r q, c.model? page = some r ∧ r.redirect = some q ∧ c.model? q = some m) := by
  rw [effective] at h
  split at h
  · cases h
  · rename_i r held
    split at h
    · rename_i q redirect
      split at h
      · rename_i donor found
        split at h
        · cases h
        · rename_i sound
          cases h
          simp only [Bool.or_eq_true, Bool.not_eq_true', not_or, Bool.not_eq_true,
            Bool.not_eq_false] at sound
          exact ⟨sound.1, sound.2, Or.inr ⟨r, q, held, redirect, found⟩⟩
      · cases h
    · rename_i redirect
      split at h
      · rename_i valid
        cases h
        exact ⟨by rw [PageModel.isRedirect, redirect]; rfl, valid, Or.inl held⟩
      · cases h

/-- A model that a page may be rendered with: a built one in storage whose vertical field is there
and valid, of a page of the same parity within the distance. -/
structure Suits (c : Collection K) (page : Int) (m : PageModel K) : Prop where
  built : m.isRedirect = false
  stored : c.slot? m.page = some m
  valid : m.vertical.status = .valid
  field : ∃ f, m.vertical.field? = some f
  parity : (m.page : Int) % 2 = page % 2
  within : (page - m.page).natAbs ≤ c.settings.maxDistance

theorem RedirectsNear.suits {c : Collection K} (h : c.RedirectsNear) (stocked : c.Stocked)
    {page : Int} {m : PageModel K} (found : c.effective page = some m) : c.Suits page m := by
  obtain ⟨built, valid, held⟩ := effective_cases found
  -- The page of the model is the one asked for, or the one that its redirect names.
  have near : c.slot? m.page = some m ∧ (m.page : Int) % 2 = page % 2 ∧
      (page - m.page).natAbs ≤ c.settings.maxDistance := by
    rcases held with own | ⟨r, q, held, redirect, donor⟩
    · obtain ⟨natural, stored⟩ := slot?_of_model? own
      have here := (stocked.slots _ m stored).1
      rw [here]
      exact ⟨stored, by omega, by omega⟩
    · obtain ⟨natural, stored⟩ := slot?_of_model? held
      obtain ⟨_, lent⟩ := slot?_of_model? donor
      rw [Int.toNat_natCast] at lent
      have there := (stocked.slots q m lent).1
      obtain ⟨_, parity, within⟩ := h _ r stored q redirect
      rw [there]
      exact ⟨lent, by omega, by omega⟩
  exact ⟨built, near.1, (Track.accepted_eq_true_iff _).mp valid, Track.field?_of_accepted valid,
    near.2.1, near.2.2⟩

/-- However a collection has come about, as long as only built models were inserted, and whether or
not donors have since been replaced, removed or judged anew: redirects point to other pages of the
same parity within the distance, and a model that a page is rendered with suits it. -/
theorem donors_sound [Scalar K] {c : Collection K} (h : BuiltReachable c) :
    (∀ p r, c.slot? p = some r → r.isRedirect = true → ∃ q, r.redirect = some q ∧
      q ≠ p ∧ q % 2 = p % 2 ∧ ((p : Int) - q).natAbs ≤ c.settings.maxDistance) ∧
    ∀ page m, c.effective page = some m → c.Suits page m := by
  have near := h.redirectsNear
  constructor
  · intro p r held redirect
    obtain ⟨q, target⟩ := Option.isSome_iff_exists.mp redirect
    exact ⟨q, target, near p r held q target⟩
  · intro page m found
    exact near.suits h.reachable.consistent.toStocked found

def relentCalls : List (Call Rat) :=
  bookletCalls ++ [.insert (sheet 0 (.held .pending (PageModel.stillField .vertical))),
    .assign (.limit .lineCurvature) (.int 0), .revalidate false]

theorem relent_sound :
    ((standardShelf.afterCalls relentCalls).slot? 4).bind (·.redirect) = some 0 ∧
      ((standardShelf.afterCalls relentCalls).effective 4).map (·.page) = some 0 ∧
      (∀ p r, (standardShelf.afterCalls relentCalls).slot? p = some r → r.isRedirect = true →
        ∃ q, r.redirect = some q ∧ q ≠ p ∧ q % 2 = p % 2 ∧ ((p : Int) - q).natAbs ≤
          (standardShelf.afterCalls relentCalls).settings.maxDistance) ∧
      ∀ page m, (standardShelf.afterCalls relentCalls).effective page = some m →
        (standardShelf.afterCalls relentCalls).Suits page m := by
  refine ⟨by decide +kernel, by decide +kernel, donors_sound ?_⟩
  apply BuiltReachable.afterCalls (.made (d := ⟨[], .standard⟩) rfl)
  intro a member m same
  subst same
  simp only [relentCalls, bookletCalls, List.cons_append, List.nil_append, List.mem_cons,
    Call.insert.injEq, reduceCtorEq, false_or, or_false, List.not_mem_nil] at member
  rcases member with rfl | rfl | rfl <;> rfl

end Collection

end PageFlattening
