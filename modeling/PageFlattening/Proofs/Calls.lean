import PageFlattening.Collection.Record
import PageFlattening.Proofs.Storage
import PageFlattening.Proofs.Outcome

/-! Histories of a collection: it is set up or read back, and then called any number of times,
whether the calls succeed or stop. A property of the empty collection that announcing more pages and
every call keep is one of every state that is ever reached. -/
namespace PageFlattening

inductive Setting where
  | minLines
  | pageCount
  | useBoth
  | checkColumns
  | cacheSize
  | limit (l : Limit)
deriving DecidableEq

def Setting.name : Setting → String
  | minLines => "minlines"
  | pageCount => "npages"
  | useBoth => "useboth"
  | checkColumns => "check_columns"
  | cacheSize => "cache_size"
  | limit l => l.name

inductive Call (K : Type) where
  | insert (m : PageModel K)
  | remove (page : Int)
  | consult (page : Int)
  | relist
  | revalidate (untested : Bool)
  | strip
  | restore
  | resolve (untested : Bool) (pages : Value K)
  | setThresholds (entries : List (String × Value K))
  | assign (setting : Setting) (v : Value K)

namespace Collection

variable {K : Type}

/-! Changes of settings. -/

/-- Two states with the same contents, which differ at most in settings other than the stride and
the reduction, and in the announced pages. -/
structure SameShelf (c d : Collection K) : Prop where
  slots : d.slots = c.slots
  cache : d.cache = c.cache
  maxPage : d.maxPage = c.maxPage
  builtPages : d.builtPages = c.builtPages
  heldPages : d.heldPages = c.heldPages
  stride : d.settings.build.stride = c.settings.build.stride
  reduction : d.settings.build.reduction = c.settings.build.reduction

theorem SameShelf.refl (c : Collection K) : SameShelf c c := ⟨rfl, rfl, rfl, rfl, rfl, rfl, rfl⟩

theorem SameShelf.trans {a b c : Collection K} (h : SameShelf a b) (g : SameShelf b c) :
    SameShelf a c where
  slots := g.slots.trans h.slots
  cache := g.cache.trans h.cache
  maxPage := g.maxPage.trans h.maxPage
  builtPages := g.builtPages.trans h.builtPages
  heldPages := g.heldPages.trans h.heldPages
  stride := g.stride.trans h.stride
  reduction := g.reduction.trans h.reduction

theorem SameShelf.slot? {c d : Collection K} (h : SameShelf c d) (p : Nat) :
    d.slot? p = c.slot? p := by
  rw [Collection.slot?, h.slots, Collection.slot?]

theorem SameShelf.capacity {c d : Collection K} (h : SameShelf c d) : d.capacity = c.capacity := by
  rw [Collection.capacity, h.slots, Collection.capacity]

variable [Scalar K]

theorem setThresholds_frame (c : Collection K) (entries : List (String × Value K)) :
    SameShelf c (c.setThresholds entries).state ∧
      (c.setThresholds entries).state.cacheSize = c.cacheSize ∧
      (c.setThresholds entries).state.declaredPages = c.declaredPages := by
  rw [setThresholds]
  split
  · exact ⟨⟨rfl, rfl, rfl, rfl, rfl, rfl, rfl⟩, rfl, rfl⟩
  · exact ⟨SameShelf.refl c, rfl, rfl⟩

theorem setMinLines_frame (c : Collection K) (v : Value K) :
    SameShelf c (c.setMinLines v).state ∧ (c.setMinLines v).state.cacheSize = c.cacheSize ∧
      (c.setMinLines v).state.declaredPages = c.declaredPages := by
  rw [setMinLines]
  split
  · rename_i build changed
    rw [BuildSettings.withMinLines] at changed
    obtain ⟨lines, _, same⟩ := exists_of_bind_eq_ok changed
    cases same
    exact ⟨⟨rfl, rfl, rfl, rfl, rfl, rfl, rfl⟩, rfl, rfl⟩
  · exact ⟨SameShelf.refl c, rfl, rfl⟩

theorem setPageCount_frame (c : Collection K) (v : Value K) :
    SameShelf c (c.setPageCount v).state ∧ (c.setPageCount v).state.cacheSize = c.cacheSize := by
  rw [setPageCount]
  split
  · exact ⟨⟨rfl, rfl, rfl, rfl, rfl, rfl, rfl⟩, rfl⟩
  · exact ⟨SameShelf.refl c, rfl⟩

theorem assign_limit (c : Collection K) (l : Limit) (v : Value K) :
    c.assign (Setting.limit l).name v = c.setThresholds [(l.name, v)] := by
  simp [assign, Setting.name, Limit.ofName?_name]

theorem assign_pageCount (c : Collection K) (v : Value K) :
    c.assign Setting.pageCount.name v = c.setPageCount v := rfl

theorem assign_shelf (c : Collection K) (setting : Setting) (v : Value K) :
    SameShelf c (c.assign setting.name v).state := by
  cases setting with
  | minLines => exact (setMinLines_frame c v).1
  | pageCount => exact (setPageCount_frame c v).1
  | useBoth => exact ⟨rfl, rfl, rfl, rfl, rfl, rfl, rfl⟩
  | checkColumns => exact ⟨rfl, rfl, rfl, rfl, rfl, rfl, rfl⟩
  | cacheSize => exact ⟨rfl, rfl, rfl, rfl, rfl, rfl, rfl⟩
  | limit l =>
      rw [assign_limit]
      exact (setThresholds_frame c _).1

theorem assign_cacheSize (c : Collection K) {setting : Setting} (h : setting ≠ .cacheSize)
    (v : Value K) : (c.assign setting.name v).state.cacheSize = c.cacheSize := by
  cases setting with
  | minLines => exact (setMinLines_frame c v).2.1
  | pageCount => exact (setPageCount_frame c v).2
  | useBoth => rfl
  | checkColumns => rfl
  | cacheSize => exact absurd rfl h
  | limit l =>
      rw [assign_limit]
      exact (setThresholds_frame c _).2.1

theorem assign_declaredPages (c : Collection K) (setting : Setting) (v : Value K) :
    (c.assign setting.name v).state.declaredPages = c.declaredPages ∨
      (setting = .pageCount ∧
        checkPageCount v = .ok (c.assign setting.name v).state.declaredPages) := by
  cases setting with
  | minLines => exact Or.inl (setMinLines_frame c v).2.2
  | pageCount =>
      rw [assign_pageCount, setPageCount]
      split
      · rename_i n accepted
        exact Or.inr ⟨rfl, accepted⟩
      · exact Or.inl rfl
  | useBoth => exact Or.inl rfl
  | checkColumns => exact Or.inl rfl
  | cacheSize => exact Or.inl rfl
  | limit l =>
      rw [assign_limit]
      exact Or.inl (setThresholds_frame c _).2.2

/-! Histories. -/

def run (c : Collection K) : Call K → Outcome (Collection K)
  | .insert m => c.insert m
  | .remove page => .done (c.remove page).2
  | .consult page => .done (c.consult page).2
  | .relist => .done c.refreshLists
  | .revalidate untested => c.revalidate untested
  | .strip => .done c.strip
  | .restore => .done c.restore
  | .resolve untested pages => c.resolve untested pages
  | .setThresholds entries => c.setThresholds entries
  | .assign setting v => c.assign setting.name v

/-- The states that a collection comes to by calls of some kind, from its creation on. -/
inductive Reachable (Allowed : Collection K → Call K → Prop) : Collection K → Prop
  | made {d : Draft K} {c : Collection K} (h : ofDraft d = .ok c) : Reachable Allowed c
  | loaded {v : Value K} {c : Collection K} (h : ofRecord v = .ok c) : Reachable Allowed c
  | call {c : Collection K} (before : Reachable Allowed c) (a : Call K) (allowed : Allowed c a) :
      Reachable Allowed (c.run a).state

theorem Reachable.mono {Allowed Allowed' : Collection K → Call K → Prop}
    (wider : ∀ c a, Allowed c a → Allowed' c a) {c : Collection K} (h : Reachable Allowed c) :
    Reachable Allowed' c := by
  induction h with
  | made h => exact .made h
  | loaded h => exact .loaded h
  | call _ a allowed ih => exact .call ih a (wider _ a allowed)

def afterCalls (c : Collection K) (calls : List (Call K)) : Collection K :=
  calls.foldl (fun d a => (d.run a).state) c

theorem Reachable.afterCalls {Allowed : Collection K → Call K → Prop} {c : Collection K}
    (h : Reachable Allowed c) {calls : List (Call K)} (allowed : ∀ d, ∀ a ∈ calls, Allowed d a) :
    Reachable Allowed (c.afterCalls calls) := by
  induction calls generalizing c with
  | nil => exact h
  | cons a rest ih =>
      refine ih (.call h a (allowed c a (by simp))) ?_
      intro d b member
      exact allowed d b (by simp [member])

theorem afterCalls_iff_settled {I : Collection K → Prop} (P : Collection K → Prop)
    (Spoils Settles : Collection K → Call K → Prop) {c : Collection K} {calls : List (Call K)}
    (inv : I c) (start : P c) (keeps : ∀ d, ∀ a ∈ calls, I d → I (d.run a).state)
    (law : ∀ d, ∀ a ∈ calls, I d →
      (P (d.run a).state ↔ ¬ Spoils d a ∧ (P d ∨ Settles d a))) :
    P (c.afterCalls calls) ↔
      ∀ before a rest, calls = before ++ a :: rest → Spoils (c.afterCalls before) a →
        ∃ mid b tail, rest = mid ++ b :: tail ∧ Settles (c.afterCalls (before ++ a :: mid)) b :=
  foldl_iff_settled inv start keeps law

theorem ofDraft_eq_empty {d : Draft K} {c : Collection K} (h : ofDraft d = .ok c) :
    ∃ settings cacheSize, c = empty settings cacheSize := by
  rw [ofDraft] at h
  obtain ⟨⟨settings, cacheSize⟩, _, same⟩ := exists_of_bind_eq_ok h
  cases same
  exact ⟨settings, cacheSize, rfl⟩

theorem ofStoredSettings_eq_empty {v : Value K} {c : Collection K}
    (h : ofStoredSettings v = .ok c) : ∃ settings cacheSize, c = empty settings cacheSize := by
  rw [ofStoredSettings] at h
  replace ⟨_, _, h⟩ := exists_of_bind_eq_ok h
  replace ⟨_, _, h⟩ := exists_of_bind_eq_ok h
  replace ⟨_, _, h⟩ := exists_of_bind_eq_ok h
  replace ⟨_, _, h⟩ := exists_of_bind_eq_ok h
  replace ⟨_, _, h⟩ := exists_of_bind_eq_ok h
  replace ⟨_, _, h⟩ := exists_of_bind_eq_ok h
  replace ⟨_, _, h⟩ := exists_of_bind_eq_ok h
  replace ⟨_, _, h⟩ := exists_of_bind_eq_ok h
  replace ⟨_, _, h⟩ := exists_of_bind_eq_ok h
  exact ofDraft_eq_empty h

theorem insertStored_induction {P : Collection K → Prop}
    (insert : ∀ c v m, PageModel.ofRecord v = .ok m → P c → P (Collection.insert c m).state)
    {models : List (Value K)}
    {c d : Collection K} (start : P c) (h : c.insertStored models = .ok d) : P d := by
  induction models generalizing c with
  | nil =>
      cases h
      exact start
  | cons v rest ih =>
      rw [insertStored] at h
      obtain ⟨m, read, h⟩ := exists_of_bind_eq_ok h
      obtain ⟨next, inserted, h⟩ := exists_of_bind_eq_ok h
      have same := Outcome.result_eq_ok_iff.mp inserted
      have kept := insert c v m read start
      rw [same] at kept
      exact ih kept h

theorem checkNatural_eq_ok_iff {fault : String → SettingFault} {v : Value K} {n : Nat} :
    checkNatural fault v = .ok n ↔ v = .int n := by
  cases v with
  | int k =>
      rw [checkNatural]
      by_cases negative : k < 0
      · simp only [negative, if_true, Value.int.injEq]
        constructor
        · intro h
          cases h
        · intro h
          omega
      · simp only [negative, if_false, Except.ok.injEq, Value.int.injEq]
        omega
  | _ => simp [checkNatural]

theorem checkNatural_natCast (fault : String → SettingFault) (n : Nat) :
    checkNatural fault (.int n : Value K) = .ok n :=
  checkNatural_eq_ok_iff.mpr rfl

theorem checkPageCount_eq_ok_iff {v : Value K} {n : Nat} :
    checkPageCount v = .ok n ↔ v = .int n := checkNatural_eq_ok_iff

theorem le_of_storedPageCount {v w : Value K} {needed n : Nat}
    (h : storedPageCount v needed = .ok w) (accepted : checkPageCount w = .ok n) : needed ≤ n := by
  obtain rfl := checkPageCount_eq_ok_iff.mp accepted
  simp only [storedPageCount] at h
  obtain ⟨less, compared, same⟩ := exists_of_bind_eq_ok h
  have chosen := Except.ok.inj same
  cases less with
  | true =>
      rw [if_pos rfl, Value.int.injEq] at chosen
      omega
  | false =>
      rw [if_neg (by simp)] at chosen
      rw [chosen, Value.lessThan] at compared
      have := Except.ok.inj compared
      simp only [decide_eq_false_iff_not] at this
      omega

/-- A property of empty collections that announcing more pages, inserting what has been read back
and every allowed call keep is one of every reachable state. -/
theorem Reachable.induction {Allowed : Collection K → Call K → Prop} {P : Collection K → Prop}
    (start : ∀ settings cacheSize, P (empty settings cacheSize))
    (announce : ∀ c n, P c → c.pageCount ≤ n → P { c with declaredPages := n })
    (insert : ∀ c v m, PageModel.ofRecord v = .ok m → P c → P (Collection.insert c m).state)
    (step : ∀ c a, P c → Allowed c a → P (c.run a).state) {c : Collection K}
    (h : Reachable Allowed c) : P c := by
  induction h with
  | made h =>
      obtain ⟨settings, cacheSize, rfl⟩ := ofDraft_eq_empty h
      exact start settings cacheSize
  | loaded h =>
      rw [ofRecord] at h
      obtain ⟨first, made, h⟩ := exists_of_bind_eq_ok h
      obtain ⟨settings, cacheSize, rfl⟩ := ofStoredSettings_eq_empty made
      replace ⟨_, _, h⟩ := exists_of_bind_eq_ok h
      replace ⟨_, _, h⟩ := exists_of_bind_eq_ok h
      obtain ⟨filled, inserted, h⟩ := exists_of_bind_eq_ok h
      obtain ⟨w, stored, h⟩ := exists_of_bind_eq_ok h
      have kept : P filled := insertStored_induction insert (start settings cacheSize) inserted
      have counted := Outcome.result_eq_ok_iff.mp h
      rw [setPageCount] at counted
      split at counted
      · rename_i n accepted
        cases counted
        exact announce filled n kept (le_of_storedPageCount stored accepted)
      · cases counted
  | call _ a allowed ih => exact step _ a ih allowed

end Collection

end PageFlattening
