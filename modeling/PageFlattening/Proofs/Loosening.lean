import PageFlattening.Proofs.Donors
import PageFlattening.Proofs.Eviction
import PageFlattening.Proofs.Serving

/-!
Two resolutions of one collection, the second under a milder check. What a check passes the milder
one passes, so that pages with a valid model only become more; then no page loses the model that it
is rendered with, and none has to look farther for it. Which size the cache has makes no difference,
and where the first resolution comes to its end the second one does.
-/
namespace PageFlattening

namespace Thresholds

theorem Looser.acceptsLines {loose tight : Thresholds} (h : loose.Looser tight)
    {s : LineStatistics} (ok : tight.acceptsLines s = true) : loose.acceptsLines s = true := by
  have curvature := h.ceilings .lineCurvature (by decide)
  have spread := h.ceilings .lineSpread (by decide)
  have floor := h.floor
  simp only [Thresholds.acceptsLines, Bool.and_eq_true, decide_eq_true_eq] at ok ⊢
  omega

theorem Looser.acceptsEdges {loose tight : Thresholds} (h : loose.Looser tight)
    {s : LineStatistics} (ok : tight.acceptsEdges s = true) : loose.acceptsEdges s = true := by
  have slope := h.ceilings .edgeSlope (by decide)
  have curvature := h.ceilings .edgeCurvature (by decide)
  have spread := h.ceilings .edgeSpread (by decide)
  simp only [Thresholds.acceptsEdges, Bool.and_eq_true, decide_eq_true_eq] at ok ⊢
  omega

theorem overridden_map {K : Type} [Scalar K] (limit new : Limit → Nat) (limits : List Limit) :
    overridden limit (limits.map fun l => (l.name, (.int (new l) : Value K))) =
      .ok fun l => if l ∈ limits then new l else limit l := by
  induction limits generalizing limit with
  | nil => simp [overridden]
  | cons first rest ih =>
      rw [List.map_cons, overridden, Limit.ofName?_name]
      dsimp only
      rw [checkLimit_eq_ok_iff.mpr rfl]
      refine (ih _).trans (congrArg Except.ok (funext fun l => ?_))
      by_cases here : l = first <;> by_cases later : l ∈ rest <;> simp [replace, here, later]

theorem revise_entries {K : Type} [Scalar K] (t new : Thresholds) :
    t.revise (new.entries : List (String × Value K)) = .ok new := by
  have named : (new.entries : List (String × Value K)).any (fun e => e.1 == "self") = false := by
    simp [entries, Limit.all, Limit.name]
  rw [revise, named, entries, overridden_map]
  simp only [Limit.mem_all, if_true, bind, Except.bind, make, new.ordered, dif_pos,
    Bool.false_eq_true, if_false]

end Thresholds

/-- One check is milder than another: it tests nothing, or both test and its limits are looser. -/
def Milder (tight : Thresholds) (untested : Bool) (loose : Thresholds) (untested' : Bool) : Prop :=
  untested' = true ∨ (untested = false ∧ loose.Looser tight)

namespace Milder

variable {tight loose : Thresholds} {untested untested' : Bool}

theorem lines (h : Milder tight untested loose untested') {s : LineStatistics}
    (ok : (untested || tight.acceptsLines s) = true) :
    (untested' || loose.acceptsLines s) = true := by
  rcases h with rfl | ⟨rfl, looser⟩
  · exact Bool.true_or _
  · rw [looser.acceptsLines ok, Bool.or_true]

theorem edges (h : Milder tight untested loose untested') {s : LineStatistics}
    (ok : (untested || tight.acceptsEdges s) = true) :
    (untested' || loose.acceptsEdges s) = true := by
  rcases h with rfl | ⟨rfl, looser⟩
  · exact Bool.true_or _
  · rw [looser.acceptsEdges ok, Bool.or_true]

variable {K : Type} {m : PageModel K}

theorem passes (h : Milder tight untested loose untested')
    (ok : m.passes tight untested = true) : m.passes loose untested' = true := by
  rw [PageModel.passes, Bool.and_eq_true] at ok ⊢
  exact ⟨ok.1, h.lines ok.2⟩

theorem horizontalValid (h : Milder tight untested loose untested')
    (ok : (m.judged tight untested).horizontalValid = true) :
    (m.judged loose untested').horizontalValid = true := by
  simp only [PageModel.judged] at ok ⊢
  split at ok
  · rename_i skipped
    rw [if_pos skipped]
    exact ok
  · rename_i judged
    rw [if_neg judged]
    simp only [PageModel.horizontalValid, Track.accepted_judge, Bool.and_eq_true] at ok ⊢
    exact ⟨ok.1, ⟨ok.1, h.lines ok.2.1.2⟩, h.edges ok.2.2⟩

end Milder

theorem PageModel.SameSheet.join {K : Type} {old m m' : PageModel K} (left : SameSheet old m)
    (right : SameSheet old m') : SameSheet m m' where
  rest := congrArg (fun x : PageModel K => { x with
    vertical := m.vertical, horizontal := m.horizontal }) (right.rest.trans left.rest.symm)
  vertical := right.vertical.trans left.vertical.symm
  horizontal := right.horizontal.trans left.horizontal.symm

namespace Collection

variable {K : Type}

/-! More valid pages. -/

theorem Serves.nearer {valid valid' : Nat → Option (PageModel K)} {maxDistance page : Nat}
    (more : ∀ q, (valid q).isSome → (valid' q).isSome)
    (pages : ∀ q m, valid q = some m → m.page = q)
    (pages' : ∀ q m, valid' q = some m → m.page = q) {m : PageModel K}
    (h : Serves valid maxDistance page (some m)) {served : Option (PageModel K)}
    (g : Serves valid' maxDistance page served) :
    ∃ m', served = some m' ∧
      ((page : Int) - m'.page).natAbs ≤ ((page : Int) - m.page).natAbs := by
  have stays : valid' page = none → valid page = none := by
    intro absent
    rw [← Option.not_isSome_iff_eq_none] at absent ⊢
    exact fun held => absent (more page held)
  cases g with
  | @own m' held =>
      refine ⟨m', rfl, ?_⟩
      rw [pages' page m' held, Int.sub_self]
      exact Nat.zero_le _
  | @borrowed q' m' absent donor held =>
      refine ⟨m', rfl, ?_⟩
      rw [pages' q' m' held]
      cases h with
      | own held => cases held.symm.trans (stays absent)
      | @borrowed q _ _ donor' held' =>
          rw [pages q m held']
          exact donor.nearest q (more q donor'.valid) donor'.parity
  | unserved absent far =>
      cases h with
      | own held => cases held.symm.trans (stays absent)
      | @borrowed q _ _ donor _ =>
          have away := far q (more q donor.valid) donor.parity
          have within := donor.within
          omega

def under (c : Collection K) (t : Thresholds) : Collection K :=
  { c with settings := { c.settings with thresholds := t } }

theorem under_consistent {c : Collection K} (h : c.Consistent) (t : Thresholds) :
    (c.under t).Consistent :=
  SameShelf.consistent (c := c) ⟨rfl, rfl, rfl, rfl, rfl, rfl, rfl⟩ h

section Two

variable {c : Collection K} {tight loose : Thresholds} {untested untested' : Bool}

theorem under_passing_mono (h : c.Consistent) (milder : Milder tight untested loose untested')
    {p : Nat} (ok : ((c.under tight).passing untested p).isSome) :
    ((c.under loose).passing untested' p).isSome := by
  rw [passing, keptPart_isSome_iff (under_consistent h tight).workable] at ok
  rw [passing, keptPart_isSome_iff (under_consistent h loose).workable]
  obtain ⟨m, own, passes⟩ := ok
  exact ⟨m, own, milder.passes passes⟩

theorem under_failing_mono (h : c.Consistent) (milder : Milder tight untested loose untested')
    {p : Nat} (rejected : ((c.under loose).failing untested' p).isSome) :
    ((c.under tight).failing untested p).isSome := by
  rw [failing_isSome (under_consistent h loose).workable, Option.any_eq_true] at rejected
  rw [failing_isSome (under_consistent h tight).workable, Option.any_eq_true]
  obtain ⟨m, own, fails⟩ := rejected
  refine ⟨m, own, ?_⟩
  simp only [Bool.not_eq_true', ← Bool.not_eq_true] at fails ⊢
  exact fun passes => fails (milder.passes passes)

end Two

/-! Resolutions that come to their end. -/

section Checks

variable [Scalar K]

def TakesFirst (size : Value K) : Prop :=
  size.equalsInt 0 = true ∨ size.lessThan 1 = .ok false ∨
    (size.lessThan 1 = .ok true ∧ size.lessThan 0 = .ok false)

theorem takesFirst_int (size : Nat) : TakesFirst (.int size : Value K) := by
  cases size with
  | zero => exact .inl rfl
  | succ k =>
      have enough : ¬ ((k + 1 : Nat) : Int) < 1 := by omega
      refine .inr (.inl ?_)
      rw [Value.lessThan, decide_eq_false enough]

theorem setAside_of_empty {c : Collection K} (empty : c.cache = []) (m : PageModel K) :
    (c.setAside m).fault = none ↔ TakesFirst c.cacheSize := by
  have first : c.uncached m.page ++ [m] = [m] := by rw [uncached, empty]; rfl
  rw [setAside, TakesFirst, first]
  cases c.cacheSize.equalsInt 0 with
  | true => simp
  | false =>
      have length : ((([] : List (PageModel K)).length : Int) + 1) = 1 := rfl
      simp only [Bool.false_eq_true, if_false, trim, length, false_or]
      cases c.cacheSize.lessThan 1 with
      | error fault => simp
      | ok less =>
          cases less with
          | false => simp
          | true =>
              cases c.cacheSize.lessThan 0 with
              | error fault => simp
              | ok less' => cases less' <;> simp

theorem each_checkPage_fault_iff {c : Collection K} (opened : c.Opened) (empty : c.cache = [])
    {untested : Bool} {pages : List Nat} (distinct : pages.Nodup) :
    (Outcome.each (checkPage untested) c pages).fault = none ↔
      TakesFirst c.cacheSize ∨
        ∀ p ∈ pages, rejectedPart c.settings.thresholds untested (c.slot? p) = none := by
  induction pages generalizing c with
  | nil => simp [Outcome.each]
  | cons p rest ih =>
      obtain ⟨fresh, distinct⟩ := List.nodup_cons.mp distinct
      rw [List.forall_mem_cons]
      rcases checkPage_cases opened untested p with
        ⟨passed, runs, cache⟩ | ⟨d, m, rejected, same, others, before⟩
      · have ledger := checkPage_ledger untested c p
        have later : ∀ q ∈ rest, (checkPage untested c p).state.slot? q = c.slot? q := by
          intro q member
          have away : q ≠ p := fun same => fresh (same ▸ member)
          rw [checkPage_slot?, if_neg away]
        rw [Outcome.each_cons_of_done (Outcome.eq_done_of_fault runs),
          ih (checkPage_opened opened untested p) (cache.trans empty) distinct, ledger.cacheSize,
          ledger.settings, passed]
        simp only [true_and]
        exact or_congr_right (forall₂_congr fun q member => by rw [later q member])
      · have first := setAside_of_empty (before.1.trans empty) m
        rw [before.2, ← same] at first
        simp only [rejected, reduceCtorEq, false_and, or_false, ← first]
        constructor
        · exact Outcome.fault_of_each_cons
        · intro runs
          -- From here on the cache is within its size, and each further model displaces one at most.
          have steady : (checkPage untested c p).state.Steady := by
            rw [same] at runs ⊢
            exact setAside_steady runs
          rw [Outcome.each_cons_of_done (Outcome.eq_done_of_fault runs)]
          exact each_checkPage_of_steady (checkPage_opened opened untested p) steady untested rest

theorem resolve_eq_done {c after : Collection K} {untested : Bool} {pages : Value K}
    (done : c.resolve untested pages = .done after) :
    ∃ n, Announces pages n ∧
      (Outcome.each (checkPage untested) (c.announcing n).reopened
        (List.range (c.announcing n).reopened.pageCount)).fault = none ∧
      after = (Outcome.each (checkPage untested) (c.announcing n).reopened
        (List.range (c.announcing n).reopened.pageCount)).state.settled
          (c.announcing n).reopened.pageCount := by
  by_cases accepted : ∃ n, Announces pages n
  · obtain ⟨n, announces⟩ := accepted
    rw [resolve_eq announces] at done
    by_cases runs : (Outcome.each (checkPage untested) (c.announcing n).reopened
        (List.range (c.announcing n).reopened.pageCount)).fault = none
    · rw [Outcome.eq_done_of_fault runs, Outcome.done_andThen] at done
      exact ⟨n, announces, runs, (congrArg Outcome.state done).symm⟩
    · rw [Outcome.andThen_of_fault runs] at done
      rw [done] at runs
      exact absurd rfl runs
  · obtain ⟨fault, refused⟩ := resolve_of_rejected c (not_exists.mp accepted) untested
    cases refused.symm.trans done

theorem exists_resolve_eq_done_iff {c : Collection K} (consistent : c.Consistent)
    (covered : c.Covered) (untested : Bool) (pages : Value K) :
    (∃ after, c.resolve untested pages = .done after) ↔
      (∃ n, Announces pages n) ∧
        (TakesFirst c.cacheSize ∨ ∀ p, c.failing untested p = none) := by
  have ends : ∀ n, (Outcome.each (checkPage untested) (c.announcing n).reopened
      (List.range (c.announcing n).reopened.pageCount)).fault = none ↔
        TakesFirst c.cacheSize ∨ ∀ p, c.failing untested p = none := by
    intro n
    have wider : (c.announcing n).Consistent := consistent.declare _
    have inside : ∀ p m, c.own? p = some m → p < (c.announcing n).reopened.pageCount := by
      intro p m own
      rw [reopened_pageCount (announcing_covered covered n) wider.workable]
      exact own?_lt_declaredPages (announcing_covered covered n) own
    rw [each_checkPage_fault_iff (reopened_opened wider) rfl List.nodup_range]
    simp only [reopened_slot? wider.workable, reopened_settings, reopened_cacheSize,
      List.mem_range]
    refine or_congr_right ⟨fun none p => ?_, fun none p _ => none p⟩
    cases own : c.own? p with
    | none =>
        rw [failing, own]
        rfl
    | some m => exact none p (inside p m own)
  constructor
  · rintro ⟨after, done⟩
    obtain ⟨n, announces, runs, _⟩ := resolve_eq_done done
    exact ⟨⟨n, announces⟩, (ends n).mp runs⟩
  · rintro ⟨⟨n, announces⟩, takes⟩
    have done := resolve_eq (c := c) announces untested
    rw [Outcome.eq_done_of_fault ((ends n).mpr takes), Outcome.done_andThen] at done
    exact ⟨_, done⟩

theorem resolve_arranged {c after : Collection K} (consistent : c.Consistent)
    (covered : c.Covered) {untested : Bool} {pages : Value K}
    (done : c.resolve untested pages = .done after) :
    ∃ n, Announces pages n ∧ Arranged c untested (max n c.declaredPages) after ∧
      ∀ m ∈ after.cache, ∃ p, c.failing untested p = some m := by
  obtain ⟨n, announces, runs, rfl⟩ := resolve_eq_done done
  have wider : (c.announcing n).Consistent := consistent.declare _
  have covers := announcing_covered covered n
  have retains := each_checkPage_retains (reopened_opened wider) (reopened_retains _)
    List.nodup_range runs
  rw [reopened_pageCount covers wider.workable] at runs retains ⊢
  have arranged := checked_arranged wider.workable covers runs
  refine ⟨n, announces, ⟨arranged.slot?, arranged.top, arranged.listed⟩, ?_⟩
  intro m member
  rw [settled_cache, retains.cache, List.nil_append] at member
  obtain ⟨p, _, rejected⟩ := List.mem_filterMap.mp (List.mem_of_mem_drop member)
  rw [reopened_slot? wider.workable, reopened_settings] at rejected
  exact ⟨p, rejected⟩

end Checks

/-! Before and after. -/

namespace Arranged

variable {c after : Collection K} {untested : Bool} {bound : Nat}

theorem mem_builtPages (h : Arranged c untested bound after) (workable : c.Workable)
    (below : ∀ p m, c.own? p = some m → p < bound) (p : Nat) :
    p ∈ after.builtPages ↔ (c.passing untested p).isSome := by
  rw [h.listed.mem_built, ← builtPart_assigned workable below, ← h.slot?,
    Option.isSome_iff_exists]
  exact exists_congr fun m => builtPart_eq_some_iff.symm

theorem own?_eq_judged (h : Arranged c untested bound after) (consistent : c.Consistent)
    (below : ∀ p m, c.own? p = some m → p < bound)
    (cache : ∀ m ∈ after.cache, ∃ p, c.failing untested p = some m) {p : Nat} {m : PageModel K}
    (held : after.own? p = some m) :
    ∃ old, c.own? p = some old ∧ m = old.judged c.settings.thresholds untested := by
  rw [own?, h.slot?, builtPart_assigned consistent.workable below, Option.or_eq_some_iff] at held
  rcases held with kept | ⟨_, cached⟩
  · obtain ⟨old, own, same, _⟩ := keptPart_eq_some_iff.mp kept
    exact ⟨old, own, same⟩
  · obtain ⟨member, page⟩ := mem_cache_of_cached? cached
    obtain ⟨q, fails⟩ := cache m member
    have here : q = p := by
      have := failing_page consistent.toStocked fails
      omega
    subst here
    obtain ⟨old, own, same, _⟩ := rejectedPart_eq_some_iff.mp fails
    exact ⟨old, own, same⟩

theorem exists_lt_of_effective (h : Arranged c untested bound after) {page : Int}
    {m : PageModel K} (found : after.effective page = some m) : ∃ p < bound, page = (p : Int) := by
  have stored : ∃ r, after.model? page = some r := by
    rcases (effective_cases found).2.2 with held | ⟨r, _, held, _⟩
    · exact ⟨m, held⟩
    · exact ⟨r, held⟩
  obtain ⟨r, held⟩ := stored
  obtain ⟨natural, slot⟩ := slot?_of_model? held
  refine ⟨page.toNat, ?_, by omega⟩
  by_contra beyond
  rw [h.slot?, assigned, if_neg beyond] at slot
  cases slot

end Arranged

/-- Nothing is lost from one state to another: pages with a built model keep one, a model that is
held in both keeps a valid horizontal field, and a page that is rendered with a model still is, with
one that is no farther away. -/
structure NothingLost (strict lenient : Collection K) : Prop where
  built : strict.builtPages ⊆ lenient.builtPages
  horizontal : ∀ p m m', strict.own? p = some m → lenient.own? p = some m' →
    m.SameSheet m' ∧ (m.horizontalValid = true → m'.horizontalValid = true)
  effective : ∀ (page : Int) m, strict.effective page = some m →
    ∃ m', lenient.effective page = some m' ∧ (page - m'.page).natAbs ≤ (page - m.page).natAbs

section Checks

variable [Scalar K]

theorem setThresholds_entries (c : Collection K) (t : Thresholds) :
    c.setThresholds t.entries = .done (c.under t) := by
  rw [setThresholds, Thresholds.revise_entries]
  rfl

theorem resolve_nothingLost {c strict lenient : Collection K} (consistent : c.Consistent)
    (covered : c.Covered) {tight loose : Thresholds} {untested untested' : Bool}
    (milder : Milder tight untested loose untested') {pages : Value K}
    (done : (c.under tight).resolve untested pages = .done strict)
    (done' : (c.under loose).resolve untested' pages = .done lenient) :
    NothingLost strict lenient := by
  have consistent₁ := under_consistent consistent tight
  have consistent₂ := under_consistent consistent loose
  obtain ⟨n, announces, arranged, cache⟩ := resolve_arranged consistent₁ covered done
  obtain ⟨n', announces', arranged', cache'⟩ := resolve_arranged consistent₂ covered done'
  obtain rfl := announces.unique announces'
  have below : ∀ p m, c.own? p = some m → p < max n c.declaredPages := by
    intro p m own
    have := own?_lt_declaredPages covered own
    omega
  refine ⟨?_, ?_, ?_⟩
  · intro p member
    rw [arranged.mem_builtPages consistent₁.workable below] at member
    rw [arranged'.mem_builtPages consistent₂.workable below]
    exact under_passing_mono consistent milder member
  · intro p m m' held held'
    obtain ⟨old, own, rfl⟩ := arranged.own?_eq_judged consistent₁ below cache held
    obtain ⟨old', own', rfl⟩ := arranged'.own?_eq_judged consistent₂ below cache' held'
    obtain rfl : old = old' := Option.some.inj (own.symm.trans own')
    exact ⟨(PageModel.judged_sameSheet old tight untested).join
      (PageModel.judged_sameSheet old loose untested'), milder.horizontalValid⟩
  · -- Both states serve the page by the models that pass, of which the second has more.
    intro page m found
    obtain ⟨p, inside, rfl⟩ := arranged.exists_lt_of_effective found
    have served := arranged.serves consistent₁.workable below inside
    have served' := arranged'.serves consistent₂.workable below inside
    rw [found] at served
    exact served.nearer (fun q => under_passing_mono consistent milder)
      (fun q m => passing_page consistent₁.toStocked)
      (fun q m => passing_page consistent₂.toStocked) served'

/-- However a collection has come about, as long as no smaller number of pages was assigned: where a
resolution succeeds one under a milder check does, and nothing is lost by it. Under a cache whose
size is a number every resolution succeeds. -/
theorem milder_loses_nothing {c : Collection K} (h : Reachable Extending c)
    {tight loose : Thresholds} {untested untested' : Bool}
    (milder : Milder tight untested loose untested') (pages : Value K) :
    (∀ strict, (c.setThresholds tight.entries).andThen (·.resolve untested pages) = .done strict →
      ∃ lenient,
        (c.setThresholds loose.entries).andThen (·.resolve untested' pages) = .done lenient ∧
          NothingLost strict lenient) ∧
    (∀ size n : Nat, c.cacheSize = .int size → Announces pages n →
      ∃ strict,
        (c.setThresholds tight.entries).andThen (·.resolve untested pages) = .done strict) := by
  have consistent := h.consistent
  have covered := h.covered_of_extending
  rw [setThresholds_entries, setThresholds_entries, Outcome.done_andThen, Outcome.done_andThen]
  constructor
  · intro strict done
    have ends := (exists_resolve_eq_done_iff (under_consistent consistent tight) covered untested
      pages).mp ⟨strict, done⟩
    have ends' : ∃ lenient, (c.under loose).resolve untested' pages = .done lenient := by
      refine (exists_resolve_eq_done_iff (under_consistent consistent loose) covered untested'
        pages).mpr ⟨ends.1, ends.2.imp_right fun none p => ?_⟩
      rw [← Option.not_isSome_iff_eq_none]
      intro rejected
      have rejected' := under_failing_mono consistent milder rejected
      rw [none p] at rejected'
      cases rejected'
    obtain ⟨lenient, done'⟩ := ends'
    exact ⟨lenient, done', resolve_nothingLost consistent covered milder done done'⟩
  · intro size n cacheSize announces
    refine (exists_resolve_eq_done_iff (under_consistent consistent tight) covered untested
      pages).mpr ⟨⟨n, announces⟩, .inl ?_⟩
    have same : (c.under tight).cacheSize = .int size := cacheSize
    rw [same]
    exact takesFirst_int size

end Checks

def narrowThresholds : Thresholds :=
  ⟨Thresholds.replace Limit.standard .lineCurvature 50, by decide⟩

def curvedCalls : List (Call Rat) :=
  [.insert (sheet 0 (.held .pending (PageModel.stillField .vertical))),
    .insert { sheet 4 (.held .pending (PageModel.stillField .vertical)) with
      statistics := { LineStatistics.zero with maxCurvature := 100 } },
    .assign .pageCount (.int 7)]

/-- Under the standard the last page borrows from the curved page, which is nearer. -/
theorem curved_loses_nothing :
    Reachable Extending (standardShelf.afterCalls curvedCalls) ∧
      Milder narrowThresholds false .standard false ∧
      ∃ strict lenient,
        ((standardShelf.afterCalls curvedCalls).setThresholds narrowThresholds.entries).andThen
          (·.resolve false .null) = .done strict ∧
        ((standardShelf.afterCalls curvedCalls).setThresholds Thresholds.standard.entries).andThen
          (·.resolve false .null) = .done lenient ∧
        (strict.effective 6).map (·.page) = some 0 ∧
        (lenient.effective 6).map (·.page) = some 4 ∧ NothingLost strict lenient := by
  have reachable : Reachable Extending (standardShelf.afterCalls curvedCalls) := by
    refine .call (.call (.call (standardShelf_reachable _) _ trivial) _ trivial) _ ?_
    intro n accepted
    cases accepted
    decide +kernel
  have milder : Milder narrowThresholds false .standard false := by
    refine .inr ⟨rfl, ?_, by decide⟩
    intro l _
    cases l <;> decide
  obtain ⟨loses, succeeds⟩ := milder_loses_nothing reachable milder .null
  have unresized : Reachable (fun _ a => ∀ v, a ≠ .assign .cacheSize v)
      (standardShelf.afterCalls curvedCalls) := by
    refine (standardShelf_reachable _).afterCalls ?_
    intro d a member v same
    simp [curvedCalls, same] at member
  obtain ⟨size, cacheSize, _⟩ := unresized.current.bounded
  obtain ⟨strict, done⟩ := succeeds size 0 cacheSize .omitted
  obtain ⟨lenient, done', nothing⟩ := loses strict done
  refine ⟨reachable, milder, strict, lenient, done, done', ?_, ?_, nothing⟩
  · have same := congrArg Outcome.state done
    rw [Outcome.done_state] at same
    rw [← same]
    decide +kernel
  · have same := congrArg Outcome.state done'
    rw [Outcome.done_state] at same
    rw [← same]
    decide +kernel

end Collection

end PageFlattening
