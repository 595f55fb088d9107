import PageFlattening.Proofs.Representation

/-!
Refused calls. Whatever stops a call stops it before its first lasting change, so that a refused
call leaves a collection, or a model, as it was. What is refused hangs on the argument and on the
settings, and for a model on the statuses of its directions: with a cache whose size is a number no
resolution stops half way, and no check ever stops.
-/
namespace PageFlattening

namespace Outcome

variable {σ α : Type}

/-- Under some condition a run is refused with nothing changed; otherwise it comes to its end. -/
structure RefusedWhen (refused : Prop) (s : σ) (o : Outcome σ) : Prop where
  stops : refused → ∃ fault, o = stopped s fault
  ends : ¬ refused → o.fault = none

theorem RefusedWhen.fault_iff {refused : Prop} {s : σ} {o : Outcome σ}
    (h : RefusedWhen refused s o) : o.fault ≠ none ↔ refused := by
  constructor
  · intro stopped
    by_contra accepted
    exact stopped (h.ends accepted)
  · intro refuses
    obtain ⟨fault, same⟩ := h.stops refuses
    simp [same]

theorem RefusedWhen.state {refused : Prop} {s : σ} {o : Outcome σ}
    (h : RefusedWhen refused s o) (stopped : o.fault ≠ none) : o.state = s := by
  obtain ⟨fault, same⟩ := h.stops (h.fault_iff.mp stopped)
  rw [same, stopped_state]

theorem RefusedWhen.never {s : σ} {o : Outcome σ} (h : o.fault = none) : RefusedWhen False s o :=
  ⟨False.elim, fun _ => h⟩

theorem RefusedWhen.congr {refused refused' : Prop} {s : σ} {o : Outcome σ}
    (h : RefusedWhen refused s o) (same : refused ↔ refused') : RefusedWhen refused' s o := by
  rwa [← propext same]

theorem RefusedWhen.of_checked (checked : Except Fault α) {s : σ} {o : Outcome σ}
    (accepts : ∀ a, checked = .ok a → o.fault = none)
    (refuses : ∀ fault, checked = .error fault → o = stopped s fault) :
    RefusedWhen (∀ a, checked ≠ .ok a) s o := by
  cases checked with
  | ok a => exact ⟨fun refused => absurd rfl (refused a), fun _ => accepts a rfl⟩
  | error fault =>
      exact ⟨fun _ => ⟨fault, refuses fault rfl⟩, fun accepted => absurd (by simp) accepted⟩

end Outcome

namespace Thresholds

variable {K : Type} [Scalar K]

theorem overridden_eq_ok_iff (limit : Limit → Nat) (entries : List (String × Value K)) :
    (∃ limit', overridden limit entries = .ok limit') ↔
      ∀ e ∈ entries, ∃ (l : Limit) (n : Nat), e = (l.name, .int n) := by
  induction entries generalizing limit with
  | nil => simp [overridden]
  | cons e rest ih =>
      obtain ⟨name, v⟩ := e
      rw [List.forall_mem_cons, overridden]
      constructor
      · rintro ⟨limit', done⟩
        split at done
        · cases done
        · rename_i l found
          obtain ⟨n, checked, done⟩ := exists_of_bind_eq_ok done
          obtain rfl := checkLimit_eq_ok_iff.mp checked
          have named : l.name = name := by simpa using List.find?_some found
          exact ⟨⟨l, n, by rw [named]⟩, (ih _).mp ⟨limit', done⟩⟩
      · rintro ⟨⟨l, n, same⟩, others⟩
        cases same
        obtain ⟨limit', done⟩ := (ih (replace limit l n)).mpr others
        refine ⟨limit', ?_⟩
        rw [Limit.ofName?_name]
        dsimp only
        rw [checkLimit_eq_ok_iff.mpr rfl]
        exact done

def Rejects (t : Thresholds) (entries : List (String × Value K)) : Prop :=
  (∃ e ∈ entries, ∀ (l : Limit) (n : Nat), e ≠ (l.name, .int n)) ∨
    ∃ limit, overridden t.limit entries = .ok limit ∧ limit .lineSpread < limit .lineSpreadFloor

omit [Scalar K] in
/-- No limit goes by the word for the receiver, so that it needs no case of its own. -/
theorem exists_foreign_of_self {entries : List (String × Value K)}
    (h : entries.any (fun e => e.1 == "self") = true) :
    ∃ e ∈ entries, ∀ (l : Limit) (n : Nat), e ≠ (l.name, .int n) := by
  obtain ⟨e, member, named⟩ := List.any_eq_true.mp h
  refine ⟨e, member, ?_⟩
  rintro l n rfl
  cases l <;> cases named

theorem revise_ne_ok_iff (t : Thresholds) (entries : List (String × Value K)) :
    (∀ t', t.revise entries ≠ .ok t') ↔ t.Rejects entries := by
  have limits := overridden_eq_ok_iff t.limit entries
  rw [Rejects, revise]
  by_cases own : entries.any (fun e => e.1 == "self") = true
  · rw [if_pos own]
    exact iff_of_true (fun t' done => by cases done) (.inl (exists_foreign_of_self own))
  rw [if_neg own]
  cases found : overridden t.limit entries with
  | error fault =>
      have foreign : ∃ e ∈ entries, ∀ (l : Limit) (n : Nat), e ≠ (l.name, .int n) := by
        by_contra known
        push Not at known
        obtain ⟨_, same⟩ := limits.mpr known
        cases found.symm.trans same
      refine iff_of_true ?_ (.inl foreign)
      intro t' done
      cases done
  | ok limit =>
      have known : ¬ ∃ e ∈ entries, ∀ (l : Limit) (n : Nat), e ≠ (l.name, .int n) := by
        push Not
        exact limits.mp ⟨limit, found⟩
      simp only [known, false_or, Except.ok.injEq, exists_eq_left']
      change (∀ t', make limit ≠ .ok t') ↔ _
      rw [make]
      split
      · rename_i ordered
        exact iff_of_false (fun refused => refused _ rfl) (Nat.not_lt.mpr ordered)
      · rename_i disordered
        exact iff_of_true (fun t' done => by cases done) (Nat.lt_of_not_le disordered)

end Thresholds

theorem BuildSettings.withMinLines_ne_ok_iff {K : Type} [Scalar K] (b : BuildSettings)
    (v : Value K) : (∀ b', b.withMinLines v ≠ .ok b') ↔ ∀ n : Nat, 4 ≤ n → v ≠ .int n := by
  rw [withMinLines]
  cases v with
  | int k =>
      rw [checkMinLines]
      split
      · rename_i enough
        refine iff_of_false (fun refused => refused _ rfl) fun none => ?_
        exact none k.toNat enough (by rw [Int.toNat_of_nonneg (by omega)])
      · rename_i few
        refine iff_of_true (fun b' done => by cases done) ?_
        intro n enough same
        cases same
        exact few enough
  | _ => exact iff_of_true (fun b' done => by cases done) fun n _ same => by cases same

namespace PageModel

variable {K : Type}

def Refuses (m : PageModel K) : Edit K → Prop
  | .setField f => ¬ m.Takes f
  | .markFailed _ => False
  | .setValidity vertical horizontal =>
      (vertical = true ∧ m.vertical.succeeded = false) ∨
      (horizontal = true ∧ m.horizontal.succeeded = false) ∨
      (horizontal = true ∧ vertical = false)
  | .validate _ _ => False

theorem setField_refusedWhen (m : PageModel K) (f : Field K) :
    Outcome.RefusedWhen (¬ m.Takes f) m (m.setField f) := by
  rw [setField]
  split
  · rename_i pointing
    refine ⟨fun _ => ⟨_, rfl⟩, fun accepted => absurd ?_ accepted⟩
    rintro ⟨built, _⟩
    rw [built] at pointing
    cases pointing
  · rename_i built
    split
    · rename_i foreign
      exact ⟨fun _ => ⟨_, rfl⟩, fun accepted => absurd (fun taken => foreign taken.2) accepted⟩
    · rename_i own
      refine ⟨fun refused => absurd ?_ refused, fun _ => rfl⟩
      exact ⟨Bool.eq_false_iff.mpr built, not_not.mp own⟩

theorem setValidity_refusedWhen (m : PageModel K) (vertical horizontal : Bool) :
    Outcome.RefusedWhen (m.Refuses (.setValidity vertical horizontal)) m
      (m.setValidity vertical horizontal) := by
  rw [setValidity, Refuses]
  split
  · rename_i unbuilt
    have refused : vertical = true ∧ m.vertical.succeeded = false := by simpa using unbuilt
    exact ⟨fun _ => ⟨_, rfl⟩, fun accepted => absurd (.inl refused) accepted⟩
  split
  · rename_i unbuilt
    have refused : horizontal = true ∧ m.horizontal.succeeded = false := by simpa using unbuilt
    exact ⟨fun _ => ⟨_, rfl⟩, fun accepted => absurd (.inr (.inl refused)) accepted⟩
  split
  · rename_i alone
    have refused : horizontal = true ∧ vertical = false := by simpa using alone
    exact ⟨fun _ => ⟨_, rfl⟩, fun accepted => absurd (.inr (.inr refused)) accepted⟩
  · rename_i first second third
    simp only [Bool.and_eq_true, Bool.not_eq_true', not_and, Bool.not_eq_false]
      at first second third
    refine ⟨fun refused => ?_, fun _ => rfl⟩
    rcases refused with ⟨asked, unbuilt⟩ | ⟨asked, unbuilt⟩ | ⟨asked, alone⟩
    · cases (first asked).symm.trans unbuilt
    · cases (second asked).symm.trans unbuilt
    · cases (third asked).symm.trans alone

theorem run_refusedWhen (m : PageModel K) (e : Edit K) :
    Outcome.RefusedWhen (m.Refuses e) m (e.run m) := by
  cases e with
  | setField f => exact setField_refusedWhen m f
  | markFailed directions => exact .never rfl
  | setValidity vertical horizontal => exact setValidity_refusedWhen m vertical horizontal
  | validate t untested => exact .never (by rw [Edit.run, validate_eq, Outcome.done_fault])

end PageModel

namespace Collection

variable {K : Type}

theorem revalidate_fault (c : Collection K) (untested : Bool) :
    (c.revalidate untested).fault = none := by
  refine Outcome.each_fault (P := fun _ => True) (fun _ _ _ => trivial) ?_ c.span trivial
  intro d page _
  rcases revalidatePage_cases untested d page with same | ⟨_, _, _, same⟩ <;>
    rw [same, Outcome.done_fault]

variable [Scalar K]

def Refuses (c : Collection K) : Call K → Prop
  | .insert m => m.stride ≠ c.settings.build.stride ∨ m.reduction ≠ c.settings.build.reduction
  | .resolve _ pages => pages ≠ .null ∧ ∀ n : Nat, pages ≠ .int n
  | .setThresholds entries => c.settings.thresholds.Rejects entries
  | .assign .minLines v => ∀ n : Nat, 4 ≤ n → v ≠ .int n
  | .assign .pageCount v => ∀ n : Nat, v ≠ .int n
  | .assign (.limit l) v => c.settings.thresholds.Rejects [(l.name, v)]
  | _ => False

theorem insert_refusedWhen (c : Collection K) (m : PageModel K) :
    Outcome.RefusedWhen (c.Refuses (.insert m)) c (c.insert m) := by
  by_cases foreign : c.Refuses (.insert m)
  · exact ⟨fun _ => ⟨_, if_pos foreign⟩, fun accepted => absurd foreign accepted⟩
  · refine ⟨fun refused => absurd refused foreign, fun _ => ?_⟩
    have own := not_or.mp foreign
    rw [insert_eq (not_not.mp own.1) (not_not.mp own.2), Outcome.done_fault]

theorem announces_iff {pages : Value K} :
    (∃ n, Announces pages n) ↔ ¬ (pages ≠ .null ∧ ∀ n : Nat, pages ≠ .int n) := by
  constructor
  · rintro ⟨n, announces⟩ ⟨given, refused⟩
    cases announces with
    | omitted => exact given rfl
    | given h => exact refused n (checkPageCount_eq_ok_iff.mp h)
  · intro accepted
    by_cases omitted : pages = .null
    · exact ⟨0, omitted ▸ .omitted⟩
    · have number : ∃ n : Nat, pages = .int n := by
        by_contra refused
        exact accepted ⟨omitted, not_exists.mp refused⟩
      obtain ⟨n, same⟩ := number
      exact ⟨n, .given (checkPageCount_eq_ok_iff.mpr same)⟩

theorem resolve_refusedWhen {c : Collection K} {size : Nat} (cacheSize : c.cacheSize = .int size)
    (untested : Bool) (pages : Value K) :
    Outcome.RefusedWhen (c.Refuses (.resolve untested pages)) c (c.resolve untested pages) := by
  refine ⟨fun refused => ?_, fun accepted => ?_⟩
  · refine resolve_of_rejected c (not_exists.mp ?_) untested
    rw [announces_iff, not_not]
    exact refused
  · -- No page stops the check: a cache of that size always finds room for a model.
    obtain ⟨n, announces⟩ := announces_iff.mpr accepted
    have runs := each_checkPage_fault ((reopened_cacheSize (c.announcing n)).trans cacheSize)
      untested (List.range (c.announcing n).reopened.pageCount)
    rw [resolve_eq announces, Outcome.eq_done_of_fault runs]
    rfl

theorem setThresholds_refusedWhen (c : Collection K) (entries : List (String × Value K)) :
    Outcome.RefusedWhen (c.settings.thresholds.Rejects entries) c (c.setThresholds entries) := by
  refine .congr (.of_checked (c.settings.thresholds.revise entries) ?_ ?_)
    (Thresholds.revise_ne_ok_iff _ _)
  · intro t accepted
    rw [setThresholds, accepted, Outcome.done_fault]
  · intro fault refused
    rw [setThresholds, refused]

theorem setMinLines_refusedWhen (c : Collection K) (v : Value K) :
    Outcome.RefusedWhen (∀ n : Nat, 4 ≤ n → v ≠ .int n) c (c.setMinLines v) := by
  refine .congr (.of_checked (c.settings.build.withMinLines v) ?_ ?_)
    (BuildSettings.withMinLines_ne_ok_iff _ v)
  · intro build accepted
    rw [setMinLines, accepted, Outcome.done_fault]
  · intro fault refused
    rw [setMinLines, refused]

theorem setPageCount_refusedWhen (c : Collection K) (v : Value K) :
    Outcome.RefusedWhen (∀ n : Nat, v ≠ .int n) c (c.setPageCount v) := by
  refine .congr (.of_checked (checkPageCount v) ?_ ?_)
    (forall_congr' fun n => not_congr checkPageCount_eq_ok_iff)
  · intro n accepted
    rw [setPageCount, accepted, Outcome.done_fault]
  · intro fault refused
    rw [setPageCount, refused]

theorem assign_refusedWhen (c : Collection K) (setting : Setting) (v : Value K) :
    Outcome.RefusedWhen (c.Refuses (.assign setting v)) c (c.assign setting.name v) := by
  cases setting with
  | minLines => exact setMinLines_refusedWhen c v
  | pageCount => exact setPageCount_refusedWhen c v
  | useBoth => exact .never rfl
  | checkColumns => exact .never rfl
  | cacheSize => exact .never rfl
  | limit l =>
      rw [assign_limit]
      exact setThresholds_refusedWhen c [(l.name, v)]

theorem run_refusedWhen {c : Collection K} {size : Nat} (cacheSize : c.cacheSize = .int size)
    (a : Call K) : Outcome.RefusedWhen (c.Refuses a) c (c.run a) := by
  cases a with
  | insert m => exact insert_refusedWhen c m
  | remove page => exact .never rfl
  | consult page => exact .never rfl
  | relist => exact .never rfl
  | revalidate untested => exact .never (revalidate_fault c untested)
  | strip => exact .never rfl
  | restore => exact .never rfl
  | resolve untested pages => exact resolve_refusedWhen cacheSize untested pages
  | setThresholds entries => exact setThresholds_refusedWhen c entries
  | assign setting v => exact assign_refusedWhen c setting v

/-- A call or an edit that stops has changed nothing, and it stops exactly where it is refused. -/
theorem refused_unchanged :
    (∀ c : Collection K, Reachable (fun _ a => ∀ v, a ≠ .assign .cacheSize v) c → ∀ a : Call K,
      ((c.run a).fault ≠ none ↔ c.Refuses a) ∧
      ((c.run a).fault ≠ none → (c.run a).state = c)) ∧
    (∀ (m : PageModel K) (e : PageModel.Edit K),
      ((e.run m).fault ≠ none ↔ m.Refuses e) ∧
      ((e.run m).fault ≠ none → (e.run m).state = m)) := by
  constructor
  · intro c reachable a
    obtain ⟨size, cacheSize, _⟩ := reachable.current.bounded
    have decided := run_refusedWhen cacheSize a
    exact ⟨decided.fault_iff, decided.state⟩
  · intro m e
    have decided := PageModel.run_refusedWhen m e
    exact ⟨decided.fault_iff, decided.state⟩

def refusedCalls : List (Call Rat) :=
  [.insert { sheet 1 .failed with stride := 31 }, .resolve false (.text "6"),
    .setThresholds [("max_linecurv", .int 10), ("min_diff_linecurv", .int 200)],
    .assign .minLines (.int 3), .assign .pageCount (.bool true),
    .assign (.limit .edgeSlope) (.int (-1))]

theorem booklet_unchanged :
    (∀ a ∈ refusedCalls, ((standardShelf.afterCalls bookletCalls).run a).fault ≠ none ∧
      ((standardShelf.afterCalls bookletCalls).run a).state =
        standardShelf.afterCalls bookletCalls) ∧
    ((PageModel.Edit.setValidity true true).run PageModel.bareSheet).fault ≠ none ∧
      ((PageModel.Edit.setValidity true true).run PageModel.bareSheet).state =
        PageModel.bareSheet := by
  have reachable : Reachable (fun _ a => ∀ v, a ≠ .assign .cacheSize v)
      (standardShelf.afterCalls bookletCalls) := by
    refine (standardShelf_reachable _).afterCalls ?_
    intro d a member v same
    simp [bookletCalls, same] at member
  have stops : ∀ a ∈ refusedCalls,
      ((standardShelf.afterCalls bookletCalls).run a).fault ≠ none := by decide +kernel
  refine ⟨fun a member => ⟨stops a member, ?_⟩, by decide, ?_⟩
  · exact (refused_unchanged.1 _ reachable a).2 (stops a member)
  · exact ((refused_unchanged (K := Rat)).2 _ _).2 (by decide)

end Collection

end PageFlattening
