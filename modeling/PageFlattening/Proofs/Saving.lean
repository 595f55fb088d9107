import PageFlattening.Proofs.Cycles
import PageFlattening.Proofs.Records

/-! What a stored collection holds. Its settings are read back as they were, and its models are the
built ones, each on its page, whether they stood in storage or in the cache. -/
namespace PageFlattening

namespace PageModel

def untagged {K : Type} (m : PageModel K) : PageModel K :=
  { m with tag := none, attached := true }

theorem judged_untagged {K : Type} (m : PageModel K) (t : Thresholds) (untested : Bool) :
    m.untagged.judged t untested = (m.judged t untested).untagged := by
  by_cases skipped : (m.isRedirect || !m.vertical.succeeded) = true
  · have same : (m.untagged.isRedirect || !m.untagged.vertical.succeeded) = true := skipped
    rw [judged, judged, if_pos same, if_pos skipped]
  · have same : ¬ (m.untagged.isRedirect || !m.untagged.vertical.succeeded) = true := skipped
    rw [judged, judged, if_neg same, if_neg skipped]
    rfl

end PageModel

namespace Thresholds

variable {K : Type} [Scalar K]

theorem given_entries (t : Thresholds) (l : Limit) :
    given (t.entries : List (String × Value K)) l = .ok (t.limit l) := by
  have stored : Value.entry? (t.entries : List (String × Value K)) l.name =
      some (.int (t.limit l)) := by
    cases l <;> rfl
  have natural : ¬ (t.limit l : Int) < 0 := by omega
  rw [given, stored]
  simp [checkLimit, natural]

theorem ofEntries_entries (t : Thresholds) :
    ofEntries (t.entries : List (String × Value K)) = .ok t := by
  have known : (t.entries : List (String × Value K)).any
      (fun e => (Limit.ofName? e.1).isNone) = false := by
    simp [entries, Limit.ofName?_name]
  simp only [ofEntries, known, given_entries, bind, Except.bind, make]
  simp only [t.ordered, Bool.false_eq_true, if_false, dif_pos]
  congr 2
  funext l
  cases l <;> rfl

end Thresholds

theorem BuildSettings.check_ints {K : Type} [Scalar K] (b : BuildSettings) :
    check (.int b.stride : Value K) (.int b.reduction) (.int b.minLines) = .ok b := by
  have stride : 8 ≤ (b.stride : Int).toNat := b.stride_ge
  have reduction : (b.reduction : Int).toNat = 1 ∨ (b.reduction : Int).toNat = 2 := b.reduction_eq
  have minLines : 4 ≤ (b.minLines : Int).toNat := b.minLines_ge
  simp only [check, checkStride, checkReduction, checkMinLines, stride, reduction, minLines,
    dif_pos, bind, Except.bind, pure, Except.pure]
  rfl

namespace Collection

variable {K : Type}

section Stored

variable [Scalar K]

/-- The configuration that a collection has come to, as one would write it out to make another. -/
def configuration (c : Collection K) : Draft K where
  parameters :=
    [("sampling", .int c.settings.build.stride), ("redfactor", .int c.settings.build.reduction),
     ("minlines", .int c.settings.build.minLines), ("maxdist", .int c.settings.maxDistance),
     ("useboth", .bool c.settings.useBoth), ("check_columns", .bool c.settings.checkColumns),
     ("cache_size", c.cacheSize)]
  limits := .whole c.settings.thresholds

theorem configuration_settings (c : Collection K) :
    c.configuration.settings =
      (checkCacheSize c.cacheSize).map fun size => (c.settings, size) := by
  have distance := checkNatural_natCast (K := K) .maxDistance c.settings.maxDistance
  have build := BuildSettings.check_ints (K := K) c.settings.build
  simp only [configuration, Draft.settings, Draft.thresholds, Draft.parameterNames,
    Draft.parameter, Value.entry?]
  simp only [List.any_cons, List.any_nil, List.find?_cons, checkMaxDistance]
  simp [build, distance, Value.truthy, bind, Except.bind, pure, Except.pure, Except.map]

theorem ofStoredSettings_record_eq (c : Collection K) :
    ofStoredSettings c.record = ofDraft c.configuration := by
  have stride : c.record.field "sampling" = .ok (.int c.settings.build.stride) := rfl
  have reduction : c.record.field "redfactor" = .ok (.int c.settings.build.reduction) := rfl
  have minLines : c.record.field "minlines" = .ok (.int c.settings.build.minLines) := rfl
  have maxDistance : c.record.field "maxdist" = .ok (.int c.settings.maxDistance) := rfl
  have useBoth : c.record.field "useboth" = .ok (.bool c.settings.useBoth) := rfl
  have checkColumns : c.record.field "check_columns" = .ok (.bool c.settings.checkColumns) := rfl
  have thresholds : c.record.field "thresholds" = .ok (.table c.settings.thresholds.entries) := rfl
  have cacheSize : c.record.field "cache_size" = .ok c.cacheSize := rfl
  have limits := Thresholds.ofEntries_entries (K := K) c.settings.thresholds
  rw [ofStoredSettings, stride, reduction, minLines, maxDistance, useBoth, checkColumns,
    thresholds, cacheSize]
  simp only [storedThresholds, limits, bind, Except.bind]
  rfl

theorem ofStoredSettings_record {c : Collection K} {size : Nat} (h : c.cacheSize = .int size) :
    ofStoredSettings c.record = .ok (empty c.settings size) := by
  have room := checkNatural_natCast (K := K) .cacheSize size
  rw [ofStoredSettings_record_eq, ofDraft, configuration_settings, h, checkCacheSize, room]
  rfl

end Stored

/-! The built models, each once. -/

section Contents

variable {c : Collection K}

theorem mem_builtModels (stocked : c.Stocked) (top : Top c c.maxPage) {m : PageModel K} :
    m ∈ c.builtModels ↔ c.own? m.page = some m := by
  simp only [builtModels, List.mem_append, List.mem_filter, models, List.mem_filterMap]
  constructor
  · rintro (⟨⟨p, _, held⟩, built⟩ | cached)
    · have page := (stocked.slots p m held).1
      rw [page, own?, held]
      simp_all
    · rw [own?, stocked.apart m cached, Option.none_or]
      exact (cached?_eq_some_iff stocked.distinct).mpr ⟨cached, rfl⟩
  · intro own
    rcases own?_cases own with ⟨held, built⟩ | ⟨cached, _⟩
    · have inside := mem_span_of_isSome top (by simp [held] : (c.slot? m.page).isSome)
      exact Or.inl ⟨⟨m.page, inside, held⟩, by simp [built]⟩
    · exact Or.inr cached

theorem models_sorted (stocked : c.Stocked) :
    c.models.Pairwise fun m other => m.page < other.page := by
  refine List.pairwise_filterMap.mpr ((span_sorted c).imp ?_)
  intro p q less m held other held'
  rwa [(stocked.slots p m held).1, (stocked.slots q other held').1]

theorem builtModels_distinct (stocked : c.Stocked) : (c.builtModels.map (·.page)).Nodup := by
  rw [builtModels, List.map_append, List.nodup_append]
  refine ⟨?_, stocked.distinct, ?_⟩
  · refine (List.pairwise_map.mpr ?_ : List.Nodup _)
    exact ((models_sorted stocked).filter _).imp fun less => Nat.ne_of_lt less
  · intro p hp q hq same
    obtain ⟨m, member, rfl⟩ := List.mem_map.mp hp
    obtain ⟨⟨r, _, held⟩, built⟩ : (∃ r, r ∈ c.span ∧ c.slot? r = some m) ∧ _ := by
      simpa [models] using member
    have page := (stocked.slots r m held).1
    subst same
    exact stocked.not_mem_cachedPages held built (page ▸ hq)

theorem storedModels_perm (c : Collection K) : c.storedModels.Perm c.builtModels :=
  List.mergeSort_perm _ _

theorem find?_storedModels (stocked : c.Stocked) (top : Top c c.maxPage) (p : Nat) :
    (c.storedModels.find? fun m => (m.page : Int) == p) = c.own? p := by
  have distinct : (c.storedModels.map (·.page)).Nodup :=
    ((storedModels_perm c).map _).nodup_iff.mpr (builtModels_distinct stocked)
  refine Option.ext fun m => ?_
  rw [find?_page_eq_some_iff distinct, (storedModels_perm c).mem_iff, mem_builtModels stocked top]
  constructor
  · rintro ⟨own, rfl⟩
    exact own
  · intro own
    have page := own?_page stocked own
    exact ⟨page ▸ own, page⟩

end Contents

/-! Inserting what has been read back. -/

structure Filled (c : Collection K) (models : List (PageModel K)) (bound : Nat)
    (d : Collection K) : Prop where
  settings : d.settings = c.settings
  cacheSize : d.cacheSize = c.cacheSize
  ready : d.ready = false
  cache : d.cache = []
  slot? : ∀ p, d.slot? p =
    ((models.find? fun m => (m.page : Int) == p).map PageModel.untagged).or (c.slot? p)
  pageCount : d.pageCount ≤ bound

theorem insert_copied {c : Collection K} (room : 0 < c.capacity) (waiting : c.ready = false)
    (uncached : c.cache = []) {m : PageModel K} (stride : m.stride = c.settings.build.stride)
    (reduction : m.reduction = c.settings.build.reduction) {bound : Nat} (below : m.page < bound)
    (fits : c.pageCount ≤ bound) :
    ∃ d, c.insert m.copied = .done d ∧ 0 < d.capacity ∧ Filled c [m] bound d := by
  have inserted := placed_inserted room m.copied
  have done := insert_eq (m := m.copied) stride reduction
  have page : m.copied.page = m.page := rfl
  have entered : c.entered m.copied = m.untagged := by
    rw [Collection.entered, waiting]
    rfl
  rw [entered, page] at inserted done
  generalize (c.placed m.copied).setSlot m.page (some m.untagged) = d at inserted done
  have room' : 0 < d.capacity := by
    rw [inserted.capacity]
    exact Nat.lt_of_le_of_lt (Nat.zero_le _) (lt_capacityFor room m.page)
  refine ⟨_, done, room', inserted.settings, inserted.cacheSize, ?_, ?_, fun p => ?_, ?_⟩
  · exact inserted.ready.trans waiting
  · change d.cache = []
    rw [inserted.cache, Collection.uncached, uncached]
    rfl
  · change d.slot? p = _
    rw [inserted.slot?, entered, page]
    by_cases here : p = m.page
    · simp [here]
    · have away : ¬ (m.page : Int) = p := by omega
      simp [here, away]
  · change d.pageCount ≤ bound
    have declared := inserted.declaredPages
    have highest := inserted.maxPage
    rw [Collection.pageCount] at fits ⊢
    rw [declared, highest, page]
    omega

section Stored

variable [Scalar K]

theorem insertStored_records {c : Collection K} (room : 0 < c.capacity) (waiting : c.ready = false)
    (uncached : c.cache = []) {models : List (PageModel K)}
    (built : ∀ m ∈ models, m.isRedirect = false ∧ m.WellFormed ∧ m.Lawful)
    (grid : ∀ m ∈ models, m.stride = c.settings.build.stride ∧
      m.reduction = c.settings.build.reduction)
    (distinct : (models.map (·.page)).Nodup) (bound : Nat) (below : ∀ m ∈ models, m.page < bound)
    (fits : c.pageCount ≤ bound) :
    ∃ d, c.insertStored (models.map PageModel.record) = .ok d ∧ Filled c models bound d := by
  induction models generalizing c with
  | nil => exact ⟨c, rfl, rfl, rfl, waiting, uncached, fun _ => rfl, fits⟩
  | cons m rest ih =>
      obtain ⟨redirect, formed, lawful⟩ := built m (by simp)
      obtain ⟨stride, reduction⟩ := grid m (by simp)
      obtain ⟨fresh, distinct⟩ := List.nodup_cons.mp distinct
      have sized : m.Sized := by
        intro zero
        have := c.settings.build.stride_ge
        omega
      obtain ⟨first, inserted, room', filled⟩ := insert_copied room waiting uncached stride reduction
        (below m (by simp)) fits
      obtain ⟨last, done, more⟩ := ih room' filled.ready filled.cache
        (fun other member => built other (by simp [member]))
        (fun other member => by
          rw [filled.settings]
          exact grid other (by simp [member]))
        distinct (fun other member => below other (by simp [member])) filled.pageCount
      refine ⟨last, ?_, more.settings.trans filled.settings, more.cacheSize.trans filled.cacheSize,
        more.ready, more.cache, fun p => ?_, more.pageCount⟩
      · rw [List.map_cons, insertStored, PageModel.ofRecord_record redirect formed lawful sized]
        change ((c.insert m.copied).result >>= fun next => next.insertStored _) = _
        rw [inserted]
        exact done
      · -- No other model of the same page follows, so that the first one stays.
        rw [more.slot?, filled.slot?]
        by_cases here : (m.page : Int) = p
        · have absent : (rest.find? fun other => (other.page : Int) == p) = none := by
            rw [List.find?_eq_none]
            intro other member same
            rw [beq_iff_eq, ← here] at same
            exact fresh (List.mem_map.mpr ⟨other, member, Int.ofNat.inj same⟩)
          simp [absent, here]
        · have differs : ((m.page : Int) == (p : Int)) = false := by simpa using here
          simp [differs]

theorem storedPageCount_record {c : Collection K} {needed : Nat} (h : needed ≤ c.declaredPages) :
    storedPageCount c.record needed = .ok (.int c.declaredPages) := by
  have enough : ¬ (c.declaredPages : Int) < needed := by omega
  have stored : Value.entry? c.recordEntries "npages" = some (.int c.declaredPages) := rfl
  simp [storedPageCount, record, stored, Value.lessThan, enough, bind, Except.bind, pure,
    Except.pure]

theorem ofRecord_record {c : Collection K} (consistent : c.Consistent) (covered : c.Covered)
    (top : Top c c.maxPage) {size : Nat} (h : c.cacheSize = .int size)
    (formed : ∀ p m, c.own? p = some m → m.WellFormed)
    (lawful : ∀ p m, c.own? p = some m → m.Lawful) :
    ∃ l, ofRecord c.record = .ok l ∧ l.settings = c.settings ∧ l.cacheSize = c.cacheSize ∧
      l.declaredPages = c.declaredPages ∧ l.cache = [] ∧ l.ready = false ∧
      ∀ p, l.slot? p = (c.own? p).map PageModel.untagged := by
  have stocked := consistent.toStocked
  have workable := consistent.workable
  have own : ∀ m ∈ c.storedModels, c.own? m.page = some m := by
    intro m member
    exact (mem_builtModels stocked top).mp ((storedModels_perm c).mem_iff.mp member)
  have distinct : (c.storedModels.map (·.page)).Nodup :=
    ((storedModels_perm c).map _).nodup_iff.mpr (builtModels_distinct stocked)
  have grid : ∀ m ∈ c.storedModels, m.stride = c.settings.build.stride ∧
      m.reduction = c.settings.build.reduction := by
    intro m member
    rcases own?_cases (own m member) with ⟨held, _⟩ | ⟨cached, _⟩
    · have belongs := (stocked.slots m.page m held).2
      exact ⟨belongs.stride, belongs.reduction⟩
    · have belongs := (stocked.cached m cached).1
      exact ⟨belongs.stride, belongs.reduction⟩
  have built : ∀ m ∈ c.storedModels, m.isRedirect = false ∧ m.WellFormed ∧ m.Lawful := by
    intro m member
    have held := own m member
    exact ⟨workable.own?_isRedirect held, formed _ m held, lawful _ m held⟩
  obtain ⟨d, inserted, filled⟩ := insertStored_records (c := empty c.settings size)
    (empty_opened c.settings size).room rfl rfl built grid distinct c.declaredPages
    (fun m member => own?_lt_declaredPages covered (own m member)) (Nat.zero_le _)
  have models : c.record.field "models" = .ok (.list (c.storedModels.map PageModel.record)) := rfl
  have counted := storedPageCount_record filled.pageCount
  have announced : checkPageCount (.int c.declaredPages : Value K) = .ok c.declaredPages :=
    checkNatural_natCast _ _
  refine ⟨{ d with declaredPages := c.declaredPages }, ?_, filled.settings,
    filled.cacheSize.trans h.symm, rfl, filled.cache, filled.ready, fun p => ?_⟩
  · simp only [ofRecord, ofStoredSettings_record h, models, storedList, bind, Except.bind, inserted,
      counted, setPageCount, announced]
    rfl
  · refine (filled.slot? p).trans ?_
    rw [find?_storedModels stocked top, empty_slot?, Option.or_none]

end Stored

end Collection

end PageFlattening
