import PageFlattening.Collection.Basic
import PageFlattening.Proofs.Choices

/-!
Configurations put together step by step. Whatever was selected or set before, only the overrides
since the last selection count, and of these the last value under each name: so a collection built
at the end is the one that the preset gives with all those overrides at once. The two ways part only
over an override that goes by the name of the preset itself.
-/
namespace PageFlattening

namespace Draft

variable {K : Type}

def table? (entries : List (String × Value K)) : Option (List (String × Value K)) :=
  match (splitLimits entries).1 with
  | .null => some []
  | .table named => some named
  | _ => none

def tables (calls : List (List (String × Value K))) : List (String × Value K) :=
  calls.flatMap fun entries => (table? entries).getD []

/-- Overrides that do at once what calls do one after the other: under each name of a parameter and
of a limit stands the value that was given last. -/
structure Merges (calls : List (List (String × Value K))) (merged : List (String × Value K)) :
    Prop where
  parameters : ∀ name, name ≠ "thresholds" →
    Value.latest? merged name = Value.latest? calls.flatten name
  limits : ∃ named, table? merged = some named ∧
    ∀ name, Value.latest? named name = Value.latest? (tables calls) name

def lastGiven (calls : List (List (String × Value K))) : Choice → Option (Value K)
  | .limit l => Value.latest? (tables calls) l.name
  | x => Value.latest? calls.flatten x.name

end Draft

namespace Preset

def limit (p : Preset) (l : Limit) : Nat :=
  ((p.limits.find? fun e => e.1 = l).map (·.2)).getD l.standard

def value {K : Type} (p : Preset) : Choice → Value K
  | .stride => .int p.stride
  | .reduction => .int p.reduction
  | .minLines => .int p.minLines
  | .maxDistance => .int p.maxDistance
  | .limit l => .int (p.limit l)
  | x => x.standard

def collection {K : Type} [Scalar K] (name : String) (entries : List (String × Value K)) :
    Except Fault (Collection K) := do
  Collection.ofDraft (← configured name entries none)

end Preset

inductive Assembly.Step (K : Type) where
  | select (name : String)
  | set (entries : List (String × Value K))
  | build

namespace Assembly

variable {K : Type}

/-- The overrides that a step hands over. One that names the receiver is no call at all. -/
def Step.call? : Step K → Option (List (String × Value K))
  | .set entries => if entries.any fun e => e.1 == "self" then none else some entries
  | _ => none

def calls (steps : List (Step K)) : List (List (String × Value K)) := steps.filterMap Step.call?

variable [Scalar K]

def build (a : Assembly K) : Except Fault (Collection K) := do
  Collection.ofDraft (← a.draft)

/-- What a step leaves; building leaves everything as it is. -/
def next (a : Assembly K) : Step K → Assembly K
  | .select name => (a.select name).state
  | .set entries => (a.set entries).state
  | .build => a

def after (a : Assembly K) (steps : List (Step K)) : Assembly K := steps.foldl next a

end Assembly

/-! Presets as drafts. -/

namespace Preset

variable {K : Type}

theorem draft_namedLimits (p : Preset) : (p.draft : Draft K).namedLimits = p.limitEntries := by
  cases none : p.limits with
  | nil => simp [draft, Draft.namedLimits, limitEntries, none]
  | cons e rest => simp [draft, Draft.namedLimits, none]

theorem entry?_limitEntries (p : Preset) (l : Limit) :
    Value.entry? (p.limitEntries : List (String × Value K)) l.name =
      (p.limits.find? fun e => e.1 = l).map fun e => .int e.2 := by
  rw [limitEntries]
  induction p.limits with
  | nil => rfl
  | cons e rest ih =>
      rw [List.map_cons, Value.entry?_cons, ih, List.find?_cons]
      by_cases here : e.1 = l
      · simp [here]
      · have away : e.1.name ≠ l.name := fun same => here (Thresholds.name_injective same)
        simp [here, away]

theorem draft_value (p : Preset) (x : Choice) : (p.draft : Draft K).value x = p.value x := by
  cases x with
  | limit l =>
      rw [Draft.value, draft_namedLimits, entry?_limitEntries, value, limit]
      cases p.limits.find? fun e => e.1 = l <;> rfl
  | _ => rfl

end Preset

/-! Overrides one after the other. -/

namespace Draft

variable {K : Type} [Scalar K]

def overridden (d : Draft K) (calls : List (List (String × Value K))) : Draft K :=
  calls.foldl (fun d entries => (d.override entries).state) d

theorem overridden_parameters (d : Draft K) (calls : List (List (String × Value K)))
    (name : String) :
    Value.entry? (d.overridden calls).parameters name =
      Value.entry? ((calls.flatMap fun entries => (splitLimits entries).2).reverse ++
        d.parameters) name := by
  induction calls generalizing d with
  | nil => rfl
  | cons entries rest ih =>
      rw [overridden, List.foldl_cons, ← overridden, ih, List.flatMap_cons, List.reverse_append,
        List.append_assoc, Value.entry?_append, override_parameters, ← Value.entry?_append]

theorem overridden_limits (d : Draft K) (calls : List (List (String × Value K)))
    (name : String) :
    Value.entry? (d.overridden calls).namedLimits name =
      Value.entry? ((calls.flatMap fun entries => filed (splitLimits entries).1).reverse ++
        d.namedLimits) name := by
  induction calls generalizing d with
  | nil => rfl
  | cons entries rest ih =>
      rw [overridden, List.foldl_cons, ← overridden, ih, List.flatMap_cons, List.reverse_append,
        List.append_assoc, Value.entry?_append, override_limits, ← Value.entry?_append]

omit [Scalar K] in
theorem flatMap_split (calls : List (List (String × Value K))) :
    (calls.flatMap fun entries => (splitLimits entries).2) =
      Value.dropEntry calls.flatten "thresholds" :=
  (List.filter_flatten ..).symm

theorem filed_of_table {entries named : List (String × Value K)} (h : table? entries = some named) :
    filed (splitLimits entries).1 = named ∧ unread (splitLimits entries).1 = none := by
  rw [table?] at h
  split at h
  · rename_i absent
    cases h
    rw [absent]
    exact ⟨rfl, rfl⟩
  · rename_i given
    cases h
    rw [given]
    exact ⟨rfl, unread_table named⟩
  · cases h

theorem flatMap_filed {calls : List (List (String × Value K))}
    (h : ∀ entries ∈ calls, (table? entries).isSome) :
    (calls.flatMap fun entries => filed (splitLimits entries).1) = tables calls := by
  refine List.flatMap_congr fun entries member => ?_
  obtain ⟨named, given⟩ := Option.isSome_iff_exists.mp (h entries member)
  rw [(filed_of_table given).1, given, Option.getD_some]

theorem overridden_parameters_latest (d : Draft K) (calls : List (List (String × Value K)))
    (name : String) :
    Value.entry? (d.overridden calls).parameters name =
      (if name = "thresholds" then none else Value.latest? calls.flatten name).or
        (Value.entry? d.parameters name) := by
  rw [overridden_parameters, flatMap_split, Value.entry?_append, ← Value.latest?_dropEntry]
  rfl

theorem overridden_limits_latest (d : Draft K) {calls : List (List (String × Value K))}
    (h : ∀ entries ∈ calls, (table? entries).isSome) (name : String) :
    Value.entry? (d.overridden calls).namedLimits name =
      (Value.latest? (tables calls) name).or (Value.entry? d.namedLimits name) := by
  rw [overridden_limits, flatMap_filed h, Value.entry?_append]
  rfl

theorem alike_of_lookups {d d' : Draft K}
    (parameters : ∀ name, Value.entry? d.parameters name = Value.entry? d'.parameters name)
    (limits : ∀ name, Value.entry? d.namedLimits name = Value.entry? d'.namedLimits name) :
    d.Alike d' where
  parameters := Value.forall_name_congr parameters (p := (· ∈ parameterNames))
  limits := Value.forall_name_congr limits (p := fun name => (Limit.ofName? name).isSome)
  judged x := by
    cases x with
    | limit l => rw [judged, judged, value, value, limits]
    | _ => simp only [judged, value, parameter, parameters]

theorem Merges.alike {calls : List (List (String × Value K))} {merged : List (String × Value K)}
    (h : Merges calls merged) (given : ∀ entries ∈ calls, (table? entries).isSome) (d : Draft K) :
    (d.overridden calls).Alike (d.overridden [merged]) := by
  obtain ⟨named, whole, limits⟩ := h.limits
  have given' : ∀ entries ∈ [merged], (table? entries).isSome := by simp [whole]
  apply alike_of_lookups
  · intro name
    rw [overridden_parameters_latest, overridden_parameters_latest, List.flatten_singleton]
    by_cases away : name = "thresholds"
    · simp [away]
    · simp [away, h.parameters name away]
  · intro name
    have once : tables [merged] = named := by simp [tables, whole]
    rw [overridden_limits_latest d given, overridden_limits_latest d given', once, limits]

theorem foreign_of_preset {calls : List (List (String × Value K))}
    (taken : Value.latest? calls.flatten "preset" ≠ none) (d : Draft K) :
    ¬ (d.overridden calls).KnownParameters := by
  intro known
  obtain ⟨v, held⟩ := Option.ne_none_iff_exists'.mp taken
  have stored : Value.entry? (d.overridden calls).parameters "preset" = some v := by
    rw [overridden_parameters_latest, if_neg (by decide), held]
    rfl
  exact absurd (known _ (Value.mem_of_found stored)) (by decide : "preset" ∉ parameterNames)

theorem overridden_value (d : Draft K) {calls : List (List (String × Value K))}
    (h : ∀ entries ∈ calls, (table? entries).isSome) (x : Choice) :
    (d.overridden calls).value x = (lastGiven calls x).getD (d.value x) := by
  cases x with
  | limit l =>
      simp only [value, lastGiven, overridden_limits_latest d h, Option.getD_or]
  | _ =>
      simp only [value, lastGiven, parameter, overridden_parameters_latest, Option.getD_or,
        Choice.name]
      simp

end Draft

/-! Merging calls. -/

namespace Draft

variable {K : Type}

theorem exists_merges (calls : List (List (String × Value K))) :
    ∃ merged, Merges calls merged ∧ (merged.map (·.1)).Nodup := by
  let parameters := Value.gathered (Value.dropEntry calls.flatten "thresholds")
  let limits : String × Value K := ("thresholds", .table (Value.gathered (tables calls)))
  have found : ∀ name, Value.entry? parameters name =
      if name = "thresholds" then none else Value.latest? calls.flatten name := by
    intro name
    rw [Value.entry?_gathered, Value.latest?_dropEntry]
  have absent : Value.entry? parameters "thresholds" = none := by rw [found, if_pos rfl]
  have distinct : ((parameters ++ [limits]).map (·.1)).Nodup := by
    rw [List.map_append, List.nodup_append]
    refine ⟨Value.gathered_nodup _, List.nodup_singleton _, ?_⟩
    intro name member other isOther same
    obtain ⟨e, stored, named⟩ := List.mem_map.mp member
    have here : e.1 = "thresholds" := named.trans (same.trans (List.mem_singleton.mp isOther))
    exact Value.entry?_eq_none_iff.mp absent e stored here
  refine ⟨parameters ++ [limits], ⟨?_, Value.gathered (tables calls), ?_, ?_⟩, distinct⟩
  · intro name away
    rw [Value.latest?_of_nodup distinct, Value.entry?_append, found, if_neg away, Value.entry?_cons,
      if_neg away.symm, Value.entry?_nil, Option.or_none]
  · rw [table?, splitLimits, Value.entry?_append, absent, Value.entry?_cons, if_pos rfl]
    rfl
  · intro name
    rw [Value.latest?_of_nodup (Value.gathered_nodup _), Value.entry?_gathered]

end Draft

namespace Preset

variable {K : Type} [Scalar K]

omit [Scalar K] in
theorem any_preset_iff {entries : List (String × Value K)} :
    entries.any (fun e => e.1 == "preset") = true ↔ Value.latest? entries "preset" ≠ none := by
  rw [Value.latest?, ne_eq, Value.entry?_eq_none_iff]
  simp

theorem collection_eq {name : String} {p : Preset} (found : find name = .ok p)
    {entries named : List (String × Value K)} (whole : Draft.table? entries = some named)
    (free : Value.latest? entries "preset" = none) :
    collection name entries = Collection.ofDraft (p.draft.overridden [entries]) := by
  have done : (p.draft.override entries).fault = none := by
    rw [Draft.override_fault, (Draft.filed_of_table whole).2]
  have ready : (p.draft.override entries).result = .ok (p.draft.override entries).state :=
    Outcome.result_eq_ok_iff.mpr (Outcome.eq_done_of_fault done)
  rw [collection, configured, if_neg (any_preset_iff.not.mpr (not_not.mpr free)), found]
  change (p.draft.override entries).result >>= Collection.ofDraft = _
  rw [ready]
  rfl

theorem collection_of_preset (name : String) {entries : List (String × Value K)}
    (taken : Value.latest? entries "preset" ≠ none) :
    collection name entries = .error (.misuse .wrongType) := by
  rw [collection, configured, if_pos (any_preset_iff.mpr taken)]
  rfl

end Preset

/-! Steps. -/

namespace Assembly

variable {K : Type} [Scalar K]

theorem build_some (d : Draft K) : build (some d) = Collection.ofDraft d := rfl

theorem after_some (d : Draft K) {later : List (Step K)}
    (last : ∀ name p, Preset.find name = .ok p → Step.select name ∉ later) :
    after (some d) later = some (d.overridden (calls later)) := by
  induction later generalizing d with
  | nil => rfl
  | cons s rest ih =>
      have others : ∀ name p, Preset.find name = .ok p → Step.select name ∉ rest :=
        fun name p found member => last name p found (List.mem_cons_of_mem s member)
      rw [after, List.foldl_cons, ← after]
      cases s with
      | select name =>
          cases found : Preset.find name with
          | ok p => exact absurd List.mem_cons_self (last name p found)
          | error fault =>
              -- A preset that does not exist is refused, and what was selected stays.
              rw [next, select, found]
              exact ih d others
      | set entries =>
          rw [next, set, calls, List.filterMap_cons, Step.call?]
          split
          · exact ih d others
          · exact ih (d.override entries).state others
      | build => exact ih d others

theorem after_last_select (a : Assembly K) (earlier : List (Step K)) {later : List (Step K)}
    {name : String} {p : Preset} (found : Preset.find name = .ok p)
    (last : ∀ other q, Preset.find other = .ok q → Step.select other ∉ later) :
    a.after (earlier ++ .select name :: later) = some (p.draft.overridden (calls later)) := by
  have selected : next (a.after earlier) (.select name) = some p.draft := by
    rw [next, select, found]
    rfl
  rw [after, List.foldl_append, List.foldl_cons, ← after, ← after, selected]
  exact after_some p.draft last

omit [Scalar K] in
theorem table?_of_mem_calls {later : List (Step K)}
    (given : ∀ entries, Step.set entries ∈ later → (Draft.table? entries).isSome) :
    ∀ entries ∈ calls later, (Draft.table? entries).isSome := by
  intro entries member
  obtain ⟨s, step, called⟩ := List.mem_filterMap.mp member
  cases s with
  | select name => cases called
  | set handed =>
      rw [Step.call?] at called
      split at called
      · cases called
      · cases called
        exact given entries step
  | build => cases called

theorem ofDraft_of_foreign {d : Draft K} (foreign : ¬ d.KnownParameters) :
    Collection.ofDraft d =
      Thresholds.ofEntries d.namedLimits >>= fun _ => .error (.misuse .wrongType) := by
  rw [Collection.ofDraft, ← Draft.thresholds_eq]
  cases made : d.thresholds with
  | error fault =>
      rw [Draft.settings_of_thresholds made]
      rfl
  | ok t =>
      rw [Draft.settings_of_foreign foreign made]
      rfl

/-- A configuration assembled in steps is the one of the preset selected last with all overrides
since then at once, the last value of a name holding: the collections built are the same, or the
faults are. Each choice is checked by the value given last, by the one of the preset where none was
given, and by the standard where the preset has none either. Only an override that goes by the name
of the preset is refused at once in one way and after the thresholds in the other. -/
theorem assembled_as_configured (a : Assembly K) (earlier later : List (Step K)) {name : String}
    {p : Preset} (found : Preset.find name = .ok p)
    (last : ∀ other q, Preset.find other = .ok q → Step.select other ∉ later)
    (given : ∀ entries, Step.set entries ∈ later → (Draft.table? entries).isSome) :
    (∃ merged, Draft.Merges (calls later) merged ∧ (merged.map (·.1)).Nodup) ∧
    (∀ merged, Draft.Merges (calls later) merged →
      (Value.latest? merged "preset" = none →
        (a.after (earlier ++ .select name :: later)).build = Preset.collection name merged) ∧
      (Value.latest? merged "preset" ≠ none →
        Preset.collection name merged = .error (.misuse .wrongType) ∧
        ∃ limits, (∀ key, Value.entry? limits key =
            (Value.latest? (Draft.tables (calls later)) key).or
              (Value.entry? p.limitEntries key)) ∧
          (a.after (earlier ++ .select name :: later)).build =
            Thresholds.ofEntries limits >>= fun _ => .error (.misuse .wrongType))) ∧
    ∀ c, (a.after (earlier ++ .select name :: later)).build = .ok c →
      ∃ s size, c = Collection.empty s size ∧
        ∀ x : Choice, x.check ((Draft.lastGiven (calls later) x).getD (p.value x)) =
          .ok (x.read s size) := by
  have tabled := table?_of_mem_calls given
  rw [after_last_select a earlier found last, build_some]
  refine ⟨Draft.exists_merges _, fun merged merges => ⟨fun free => ?_, fun taken => ?_⟩,
    fun c done => ?_⟩
  -- Both ways lead to drafts in which the same is found under every name.
  · obtain ⟨named, whole, _⟩ := merges.limits
    rw [Preset.collection_eq found whole free, Collection.ofDraft, Collection.ofDraft,
      (merges.alike tabled p.draft).settings]
  · refine ⟨Preset.collection_of_preset name taken, _, ?_, ofDraft_of_foreign ?_⟩
    · intro key
      rw [Draft.overridden_limits_latest p.draft tabled, Preset.draft_namedLimits]
    · rw [merges.parameters "preset" (by decide)] at taken
      exact Draft.foreign_of_preset taken p.draft
  · obtain ⟨⟨s, size⟩, checked, made⟩ := exists_of_bind_eq_ok done
    cases made
    refine ⟨s, size, rfl, fun x => ?_⟩
    rw [← Preset.draft_value, ← Draft.overridden_value p.draft tabled]
    exact (Draft.judged_of_settings checked).2.2 x

def misnamed : List (String × Value Rat) :=
  [("preset", .text "reduced"), ("thresholds", .table [("max_linecurv", .int (-1))])]

/-- Built in steps the threshold is refused, and at once the name. -/
theorem misnamed_apart :
    Draft.Merges (calls [.set misnamed]) misnamed ∧
      (after none [.select "default", .set misnamed]).build =
        .error (.setting (.thresholdNegative "max_linecurv" "-1")) ∧
      Preset.collection "default" misnamed = .error (.misuse .wrongType) :=
  ⟨⟨fun _ _ => rfl, _, rfl, fun _ => rfl⟩, rfl, rfl⟩

def raisingSteps : List (Step Rat) :=
  [.set [("maxdist", .int 5), ("thresholds", .table [("min_diff_linecurv", .int 500)])], .build,
    .set [("thresholds", .table [("max_diff_linecurv", .int 600)])], .set [("maxdist", .int 7)]]

def raisedEntries : List (String × Value Rat) :=
  [("thresholds", .table [("min_diff_linecurv", .int 500), ("max_diff_linecurv", .int 600)]),
    ("maxdist", .int 7)]

/-- What was set before the selection is gone, and what was refused on the way does no harm. -/
theorem raised_as_configured :
    (∃ p, Preset.find "lenient" = .ok p) ∧
      (∀ other q, Preset.find other = .ok q → Step.select other ∉ raisingSteps) ∧
      (∀ entries, Step.set entries ∈ raisingSteps → (Draft.table? entries).isSome) ∧
      Draft.Merges (calls raisingSteps) raisedEntries ∧
      (after none ([.select "strict", .set [("minlines", .int 3)]] ++
        .select "lenient" :: raisingSteps)).build = Preset.collection "lenient" raisedEntries ∧
      ∃ c, Preset.collection "lenient" raisedEntries = .ok c ∧ c.settings.maxDistance = 7 ∧
        c.settings.build.minLines = 8 ∧ c.settings.thresholds.limit .lineSpreadFloor = 500 ∧
        c.settings.thresholds.limit .lineSpread = 600 ∧
        c.settings.thresholds.limit .edgeSlope = 120 := by
  have found : ∃ p, Preset.find "lenient" = .ok p := ⟨_, rfl⟩
  have last : ∀ other q, Preset.find other = .ok q → Step.select other ∉ raisingSteps := by
    simp [raisingSteps]
  have given : ∀ entries, Step.set entries ∈ raisingSteps → (Draft.table? entries).isSome := by
    simp only [raisingSteps, List.mem_cons, Step.set.injEq, reduceCtorEq, List.not_mem_nil,
      or_false, false_or]
    rintro entries (rfl | rfl | rfl) <;> rfl
  have merges : Draft.Merges (calls raisingSteps) raisedEntries := by
    refine ⟨fun name away => ?_, _, rfl, fun _ => rfl⟩
    change Value.entry? [("maxdist", .int 7), ("thresholds", _)] name =
      Value.entry? [("maxdist", .int 7), ("thresholds", _), ("thresholds", _), ("maxdist", .int 5)]
        name
    by_cases here : "maxdist" = name <;> simp [Value.entry?_cons, here, away.symm]
  obtain ⟨p, selected⟩ := found
  obtain ⟨_, same, _⟩ := assembled_as_configured none
    [.select "strict", .set [("minlines", .int 3)]] raisingSteps selected last given
  exact ⟨⟨p, selected⟩, last, given, merges, (same _ merges).1 rfl, _, rfl, rfl, rfl, rfl, rfl, rfl⟩

end Assembly

end PageFlattening
