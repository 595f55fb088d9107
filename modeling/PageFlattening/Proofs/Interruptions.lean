import PageFlattening.Proofs.Assembling

/-!
Calls that stop. A call that overrides parameters and thresholds takes the parameters over before it
reads the thresholds, so one that stops there has done what a shorter call does. Later calls see
nothing of it exactly if every value taken over comes to what the old one came to: after a call that
fills in all other choices, what is built shows the one that is left.
-/
namespace PageFlattening

namespace Assembly

variable {K : Type} [Scalar K]

def answer (a : Assembly K) : Step K → Except Fault (Option (Collection K))
  | .select name => (a.select name).result.map fun _ => none
  | .set entries => (a.set entries).result.map fun _ => none
  | .build => a.build.map some

def answers (a : Assembly K) : List (Step K) → List (Except Fault (Option (Collection K)))
  | [] => []
  | s :: rest => a.answer s :: (a.next s).answers rest

def Known (a : Assembly K) : Prop := ∀ d, a = some d → d.KnownParameters ∧ d.KnownLimits

/-- A step hands over, as far as it can be read, only choices that come to what they were. -/
def Idle (a : Assembly K) (s : Step K) : Prop :=
  ∀ d entries, a = some d → s.call? = some entries →
    Draft.Proper entries ∧ ∀ x v, Draft.handed entries x = some v → x.check v = d.judged x

end Assembly

namespace Draft

variable {K : Type} [Scalar K]

/-- A call with the parameters of another and its thresholds as far as they can be read. -/
def heeded (entries : List (String × Value K)) : List (String × Value K) :=
  (splitLimits entries).2 ++ [("thresholds", .table (filed (splitLimits entries).1))]

theorem Alike.refl (d : Draft K) : d.Alike d := ⟨Iff.rfl, Iff.rfl, fun _ => rfl⟩

omit [Scalar K] in
theorem splitLimits_append (parameters : List (String × Value K)) (limits : Value K)
    (none : Value.entry? parameters "thresholds" = none) :
    splitLimits (parameters ++ [("thresholds", limits)]) = (limits, parameters) := by
  have kept : Value.dropEntry parameters "thresholds" = parameters := by
    refine List.filter_eq_self.mpr fun e member => ?_
    simpa using Value.entry?_eq_none_iff.mp none e member
  have dropped : Value.dropEntry (parameters ++ [("thresholds", limits)]) "thresholds" =
      parameters := by
    rw [Value.dropEntry, List.filter_append, ← Value.dropEntry, kept]
    simp
  rw [splitLimits, dropped, Value.entry?_append, none, Value.entry?_cons, if_pos rfl]
  rfl

theorem splitLimits_heeded (entries : List (String × Value K)) :
    splitLimits (heeded entries) =
      (.table (filed (splitLimits entries).1), (splitLimits entries).2) := by
  refine splitLimits_append _ _ ?_
  rw [splitLimits, Value.entry?_dropEntry, if_pos rfl]

theorem alike_heeded (d : Draft K) (entries : List (String × Value K)) :
    (d.override entries).state.Alike (d.override (heeded entries)).state := by
  apply alike_of_lookups
  · intro name
    rw [override_parameters, override_parameters, splitLimits_heeded]
  · intro name
    rw [override_limits, override_limits, splitLimits_heeded]
    rfl

theorem alike_of_idle (d : Draft K) {entries : List (String × Value K)} (proper : Proper entries)
    (same : ∀ x v, handed entries x = some v → x.check v = d.judged x) :
    (d.override entries).state.Alike d where
  parameters := by
    rw [override_knownParameters]
    exact and_iff_right proper.parameters
  limits := by
    rw [override_knownLimits]
    exact and_iff_right proper.limits
  judged x := by
    rw [override_judged]
    cases given : handed entries x with
    | none => rfl
    | some v => exact same x v given

theorem heeded_fault (d : Draft K) (entries : List (String × Value K)) :
    (d.override (heeded entries)).fault = none := by
  rw [override_fault, splitLimits_heeded, unread_table]

end Draft

/-! What later steps can see. -/

namespace Assembly

variable {K : Type} [Scalar K]

abbrev Alike (a b : Assembly K) : Prop := Option.Rel Draft.Alike a b

theorem Alike.refl (a : Assembly K) : a.Alike a := by
  cases a with
  | none => exact .none
  | some d => exact .some (.refl d)

theorem Alike.step {a b : Assembly K} (h : a.Alike b) (s : Step K) :
    a.answer s = b.answer s ∧ (a.next s).Alike (b.next s) := by
  cases h with
  | none => exact ⟨rfl, .refl _⟩
  | @some d d' same =>
      cases s with
      | select name =>
          rw [answer, answer, next, next, select, select]
          cases Preset.find name with
          | ok p => exact ⟨rfl, .refl _⟩
          | error fault => exact ⟨rfl, .some same⟩
      | set entries =>
          rw [answer, answer, next, next, set, set]
          split
          · exact ⟨rfl, .some same⟩
          · refine ⟨?_, .some (same.override entries)⟩
            simp only [Outcome.result, Draft.override_fault]
            cases Draft.unread (Draft.splitLimits entries).1 <;> rfl
      | build =>
          rw [answer, answer, build_some, build_some, Collection.ofDraft, Collection.ofDraft,
            same.settings]
          exact ⟨rfl, .some same⟩

theorem Alike.answers {a b : Assembly K} (h : a.Alike b) (steps : List (Step K)) :
    a.answers steps = b.answers steps := by
  induction steps generalizing a b with
  | nil => rfl
  | cons s rest ih =>
      obtain ⟨now, later⟩ := h.step s
      rw [Assembly.answers, Assembly.answers, now, ih later]

end Assembly

/-! Filling in all choices but one. -/

namespace Choice

def parameters : List Choice :=
  [.stride, .reduction, .minLines, .maxDistance, .cacheSize, .useBoth, .checkColumns]

def usual (high : Nat) : Choice → Nat
  | .stride => BuildSettings.standard.stride
  | .reduction => BuildSettings.standard.reduction
  | .minLines => BuildSettings.standard.minLines
  | .maxDistance => Draft.standardMaxDistance
  | .cacheSize => Draft.standardCacheSize
  | .useBoth => 1
  | .checkColumns => 0
  | .limit .lineSpread => high
  | .limit l => l.standard

variable {K : Type} [Scalar K]

theorem check_usual (high : Nat) (x : Choice) :
    x.check (.int (x.usual high) : Value K) = .ok (x.usual high) := by
  cases x with
  | limit l => rw [check, Thresholds.checkLimit_eq_ok_iff]
  | _ => rfl

theorem name_injective : ∀ x ∈ parameters, ∀ y ∈ parameters, x.name = y.name → x = y := by
  decide

end Choice

namespace Draft

variable {K : Type} [Scalar K]

def filler (filled : Choice → Bool) (high : Nat) : List (String × Value K) :=
  ((Choice.parameters.filter filled).map fun x => (x.name, .int (x.usual high))) ++
    [("thresholds", .table ((Limit.all.filter fun l => filled (.limit l)).map fun l =>
      (l.name, .int (Choice.usual high (.limit l)))))]

omit [Scalar K] in
theorem splitLimits_filler (filled : Choice → Bool) (high : Nat) :
    splitLimits (filler filled high : List (String × Value K)) =
      (.table ((Limit.all.filter fun l => filled (.limit l)).map fun l =>
          (l.name, .int (Choice.usual high (.limit l)))),
        (Choice.parameters.filter filled).map fun x => (x.name, .int (x.usual high))) := by
  refine splitLimits_append _ _ (Value.entry?_eq_none_iff.mpr ?_)
  have away : ∀ x ∈ Choice.parameters, x.name ≠ "thresholds" := by decide
  intro e member
  obtain ⟨x, listed, rfl⟩ := List.mem_map.mp member
  exact away x (List.mem_filter.mp listed).1

theorem proper_filler (filled : Choice → Bool) (high : Nat) :
    Proper (filler filled high : List (String × Value K)) where
  parameters := by
    have known : ∀ x ∈ Choice.parameters, x.name ∈ parameterNames := by decide
    rw [splitLimits_filler]
    intro e member
    obtain ⟨x, listed, rfl⟩ := List.mem_map.mp member
    exact known x (List.mem_filter.mp listed).1
  limits := by
    rw [splitLimits_filler]
    intro e member
    obtain ⟨l, _, rfl⟩ := List.mem_map.mp member
    rw [Limit.ofName?_name]
    rfl

theorem handed_filler (filled : Choice → Bool) (high : Nat) (x : Choice) :
    handed (filler filled high : List (String × Value K)) x =
      if filled x then some (.int (x.usual high)) else none := by
  by_cases limit : ∃ l, x = .limit l
  · obtain ⟨l, rfl⟩ := limit
    rw [handed, splitLimits_filler, filed,
      Value.latest?_map Limit.name _ fun _ _ same => Thresholds.name_injective same]
    simp [Limit.mem_all]
  · have listed : x ∈ Choice.parameters := by
      cases x with
      | limit l => exact absurd ⟨l, rfl⟩ limit
      | _ => decide
    have given : handed (filler filled high : List (String × Value K)) x =
        Value.latest? (splitLimits (filler filled high)).2 x.name := by
      cases x with
      | limit l => exact absurd ⟨l, rfl⟩ limit
      | _ => rfl
    rw [given, splitLimits_filler, Value.latest?_map Choice.name]
    · simp [listed]
    · intro y member
      exact Choice.name_injective y (List.mem_filter.mp member).1 x listed

theorem judged_filler (d : Draft K) (filled : Choice → Bool) (high : Nat) (x : Choice) :
    (d.override (filler filled high)).state.judged x =
      if filled x then .ok (x.usual high) else d.judged x := by
  rw [override_judged, handed_filler]
  cases filled x with
  | true => exact Choice.check_usual high x
  | false => rfl

theorem settings_filler {d : Draft K} (known : d.KnownParameters) (named : d.KnownLimits)
    (x : Choice) {high : Nat} (bounded : ∀ n, d.judged x = .ok n → n ≤ high) :
    ((d.override (filler (· ≠ x) high)).state.settings.map fun r => x.read r.1 r.2) =
      d.judged x := by
  have proper : Proper (filler (· ≠ x) high : List (String × Value K)) := proper_filler _ high
  have known' := (override_knownParameters d _).mpr ⟨proper.parameters, known⟩
  have named' := (override_knownLimits d _).mpr ⟨proper.limits, named⟩
  have left : (d.override (filler (· ≠ x) high)).state.judged x = d.judged x := by
    rw [judged_filler]
    simp
  have others : ∀ y, y ≠ x →
      (d.override (filler (· ≠ x) high)).state.judged y = .ok (y.usual high) := by
    intro y away
    rw [judged_filler]
    simp [away]
  cases found : d.judged x with
  | error fault =>
      rw [settings_of_refused known' named' (left.trans found) others (Nat.zero_le high)]
      rfl
  | ok n =>
      have all : ∀ y, (d.override (filler (· ≠ x) high)).state.judged y =
          .ok (if y = x then n else y.usual high) := by
        intro y
        by_cases here : y = x
        · rw [if_pos here, here, left, found]
        · rw [if_neg here, others y here]
      -- The floor may be the choice that is left, so the ceiling has been put above it.
      have ordered : (if Choice.limit .lineSpreadFloor = x then n else 0) ≤
          if Choice.limit .lineSpread = x then n else high := by
        have low := bounded n found
        by_cases floor : Choice.limit .lineSpreadFloor = x
        · have away : Choice.limit .lineSpread ≠ x := fun same => by
            cases floor.trans same.symm
          rw [if_pos floor, if_neg away]
          exact low
        · rw [if_neg floor]
          exact Nat.zero_le _
      obtain ⟨s, size, done, read⟩ := exists_settings known' named' all ordered
      rw [done]
      exact congrArg Except.ok ((read x).trans (if_pos rfl))

end Draft

/-- Overrides that leave the settings the same, however choices are filled in after them, hand over
only what was there. -/
theorem Draft.idle_of_shown {K : Type} [Scalar K] {d : Draft K} {entries : List (String × Value K)}
    (known : d.KnownParameters) (named : d.KnownLimits)
    (shown : ∀ filled high,
      ((d.override entries).state.override (filler filled high)).state.settings =
        (d.override (filler filled high)).state.settings) :
    Proper entries ∧ ∀ x v, handed entries x = some v → x.check v = d.judged x := by
  have filled : Proper (filler (fun _ => true) 0 : List (String × Value K)) := proper_filler _ 0
  have sound : ∀ x, (d.override (filler (fun _ => true) 0)).state.judged x = .ok (x.usual 0) :=
    fun x => judged_filler d _ 0 x
  obtain ⟨s, size, done, _⟩ := exists_settings
    ((override_knownParameters d _).mpr ⟨filled.parameters, known⟩)
    ((override_knownLimits d _).mpr ⟨filled.limits, named⟩) sound (Nat.le_refl 0)
  -- Names that stand for no choice would be refused even with every choice filled in.
  obtain ⟨known', named', _⟩ := judged_of_settings ((shown _ 0).trans done)
  rw [override_knownParameters] at known'
  rw [override_knownLimits] at named'
  refine ⟨⟨((override_knownParameters d entries).mp known'.2).1,
    ((override_knownLimits d entries).mp named'.2).1⟩, fun x v given => ?_⟩
  have left : (d.override entries).state.judged x = x.check v := by
    rw [override_judged, given]
    rfl
  have below : ∀ {r : Except Fault Nat} {n : Nat}, r = .ok n → n ≤ r.toOption.getD 0 := by
    rintro _ n rfl
    exact Nat.le_refl n
  let high := max ((d.judged x).toOption.getD 0)
    ((d.override entries).state.judged x |>.toOption.getD 0)
  have old : ∀ n, d.judged x = .ok n → n ≤ high :=
    fun n found => (below found).trans (le_max_left _ _)
  have new : ∀ n, (d.override entries).state.judged x = .ok n → n ≤ high :=
    fun n found => (below found).trans (le_max_right _ _)
  rw [← left, ← settings_filler known'.2 named'.2 x new, shown, settings_filler known named x old]

/-! Calls that stop. -/

namespace Assembly

variable {K : Type} [Scalar K]

omit [Scalar K] in
theorem empty_injective :
    Function.Injective fun r : Settings × Nat => (Collection.empty r.1 r.2 : Collection K) := by
  intro r r' same
  have size : (.int r.2 : Value K) = .int r'.2 := congrArg Collection.cacheSize same
  exact Prod.ext (congrArg Collection.settings same) (Int.ofNat.inj (Value.int.inj size))

theorem settings_eq_of_ofDraft {d d' : Draft K}
    (h : Collection.ofDraft d = Collection.ofDraft d') : d.settings = d'.settings := by
  have made : ∀ d : Draft K, Collection.ofDraft d =
      d.settings.map fun r => (Collection.empty r.1 r.2 : Collection K) := by
    intro d
    rw [Collection.ofDraft]
    cases d.settings <;> rfl
  rw [made, made] at h
  exact map_injective empty_injective h

omit [Scalar K] in
theorem call?_eq_some_iff {s : Step K} {entries : List (String × Value K)} :
    s.call? = some entries ↔
      s = .set entries ∧ ¬ entries.any (fun e => e.1 == "self") = true := by
  cases s with
  | set handed =>
      rw [Step.call?]
      constructor
      · intro called
        split at called
        · cases called
        · rename_i own
          cases called
          exact ⟨rfl, own⟩
      · rintro ⟨same, own⟩
        cases same
        rw [if_neg own]
  | _ => simp [Step.call?]

omit [Scalar K] in
theorem call?_append {parameters : List (String × Value K)}
    (own : ∀ e ∈ parameters, e.1 ≠ "self") (limits : Value K) :
    Step.call? (.set (parameters ++ [("thresholds", limits)])) =
      some (parameters ++ [("thresholds", limits)]) := by
  refine call?_eq_some_iff.mpr ⟨rfl, ?_⟩
  simpa using fun v member => own ("self", v) member rfl

theorem call?_heeded {s : Step K} {entries : List (String × Value K)}
    (h : s.call? = some entries) :
    Step.call? (.set (Draft.heeded entries)) = some (Draft.heeded entries) := by
  obtain ⟨_, own⟩ := call?_eq_some_iff.mp h
  refine call?_append (fun e member named => own ?_) _
  exact List.any_eq_true.mpr ⟨e, (List.mem_filter.mp member).1, beq_iff_eq.mpr named⟩

omit [Scalar K] in
theorem call?_filler (filled : Choice → Bool) (high : Nat) :
    Step.call? (.set (Draft.filler filled high : List (String × Value K))) =
      some (Draft.filler filled high) := by
  refine call?_append ?_ _
  have away : ∀ x ∈ Choice.parameters, x.name ≠ "self" := by decide
  intro e member
  obtain ⟨x, listed, rfl⟩ := List.mem_map.mp member
  exact away x (List.mem_filter.mp listed).1

theorem step_of_call {s : Step K} {entries : List (String × Value K)}
    (h : s.call? = some entries) (d : Draft K) :
    answer (some d) s = (d.override entries).result.map (fun _ => none) ∧
      next (some d) s = some (d.override entries).state := by
  obtain ⟨rfl, own⟩ := call?_eq_some_iff.mp h
  rw [answer, next, set, if_neg own]
  refine ⟨?_, rfl⟩
  simp only [Outcome.result]
  cases (d.override entries).fault <;> rfl

theorem settings_of_unseen {d d' : Draft K}
    (unseen : ∀ later, answers (some d') later = answers (some d) later)
    (filled : Choice → Bool) (high : Nat) :
    (d'.override (Draft.filler filled high)).state.settings =
      (d.override (Draft.filler filled high)).state.settings := by
  have shown := unseen [.set (Draft.filler filled high), .build]
  simp only [answers, (step_of_call (call?_filler filled high) _).2, answer, build_some,
    List.cons.injEq, and_true] at shown
  exact settings_eq_of_ofDraft (map_injective (Option.some_injective _) shown.2)

theorem next_of_refused {a : Assembly K} {s : Step K} {fault : Fault} (call : s ≠ .build)
    (raised : a.answer s = .error fault) (h : a = none ∨ s.call? = none) : a.next s = a := by
  cases s with
  | select name =>
      rw [answer, select] at raised
      rw [next, select]
      cases found : Preset.find name with
      | ok p =>
          rw [found] at raised
          cases raised
      | error _ => rfl
  | set entries =>
      cases a with
      | none =>
          rw [next, set]
          split <;> rfl
      | some d =>
          have refused : Step.call? (.set entries) = none := h.resolve_left (by simp)
          have own : entries.any (fun e => e.1 == "self") = true := by
            by_contra own
            cases refused.symm.trans (call?_eq_some_iff.mpr ⟨rfl, own⟩)
          rw [next, set, if_pos own]
          rfl
  | build => exact absurd rfl call

/-- A call that stops leaves what the call leaves that hands over only what was read. It leaves no
trace in any later answer if all of that comes to what was there; and, as long as only names of
choices have been given, only then. -/
theorem stopped_call_seen (a : Assembly K) {s : Step K} {fault : Fault} (call : s ≠ .build)
    (raised : a.answer s = .error fault) :
    (a = none ∨ s.call? = none → a.next s = a) ∧
    (∀ entries, a ≠ none → s.call? = some entries →
      a.answer (.set (Draft.heeded entries)) = .ok none ∧
      ∀ later, (a.next s).answers later = (a.next (.set (Draft.heeded entries))).answers later) ∧
    (a.Idle s → ∀ later, (a.next s).answers later = a.answers later) ∧
    (a.Known → (∀ later, (a.next s).answers later = a.answers later) → a.Idle s) := by
  refine ⟨next_of_refused call raised, ?_, ?_, ?_⟩
  · intro entries present called
    obtain ⟨d, rfl⟩ := Option.ne_none_iff_exists'.mp present
    obtain ⟨answered, left⟩ := step_of_call (call?_heeded called) d
    rw [answered, (step_of_call called d).2, left]
    refine ⟨?_, fun later => Alike.answers (.some (d.alike_heeded entries)) later⟩
    simp only [Outcome.result, Draft.heeded_fault]
    rfl
  · intro idle later
    apply Alike.answers
    cases a with
    | none =>
        rw [next_of_refused call raised (.inl rfl)]
        exact .none
    | some d =>
        cases called : s.call? with
        | none =>
            rw [next_of_refused call raised (.inr called)]
            exact .refl _
        | some entries =>
            obtain ⟨proper, same⟩ := idle d entries rfl called
            rw [(step_of_call called d).2]
            exact .some (d.alike_of_idle proper same)
  -- What a call has changed shows once all other choices have been filled in.
  · intro known unseen d entries present called
    subst present
    obtain ⟨parameters, limits⟩ := known d rfl
    rw [(step_of_call called d).2] at unseen
    exact Draft.idle_of_shown parameters limits (settings_of_unseen unseen)

def interrupted : List (String × Value Rat) := [("maxdist", .int 3), ("thresholds", .int 5)]

/-- What is built later has the distance of the call that was refused. -/
theorem interrupted_seen :
    answer (after none [.select "default"]) (.set interrupted) = .error (.misuse .wrongType) ∧
      (∃ c, (after none [.select "default", .set interrupted]).build = .ok c ∧
        c.settings.maxDistance = 3) ∧
      ∃ c, (after none [.select "default"] : Assembly Rat).build = .ok c ∧
        c.settings.maxDistance = 16 :=
  ⟨rfl, ⟨_, rfl, rfl⟩, _, rfl, rfl⟩

def repeated : List (String × Value Rat) :=
  [("maxdist", .int 16), ("thresholds", .list [.list [.text "max_linecurv", .int 150], .int 7])]

/-- A call that stops after repeating what was there is not seen again, and one that stops after
changing it is. -/
theorem repeated_unseen :
    (after none [.select "default"]).answer (.set repeated) = .error (.misuse .wrongType) ∧
      (∀ later, ((after none [.select "default"]).next (.set repeated)).answers later =
        (after none [.select "default"]).answers later) ∧
      (after none [.select "default"]).answer (.set interrupted) = .error (.misuse .wrongType) ∧
      ¬ ∀ later, ((after none [.select "default"]).next (.set interrupted)).answers later =
        (after none [.select "default"]).answers later := by
  have refused : answer (after none [.select "default"]) (.set repeated) =
    .error (.misuse .wrongType) := rfl
  have refused' : answer (after none [.select "default"]) (.set interrupted) =
    .error (.misuse .wrongType) := rfl
  obtain ⟨_, _, unseen, _⟩ := stopped_call_seen (after none [.select "default"]) (by simp) refused
  obtain ⟨_, _, _, seen⟩ := stopped_call_seen (after none [.select "default"]) (by simp) refused'
  refine ⟨refused, unseen ?_, refused', fun same => ?_⟩
  · intro d entries present called
    cases present
    cases called
    refine ⟨⟨by decide, by decide⟩, fun x v given => ?_⟩
    cases x with
    | maxDistance =>
        cases given
        rfl
    | limit l =>
        cases l with
        | lineCurvature =>
            cases given
            rfl
        | _ => cases given
    | _ => cases given
  · have known : Known (after none [.select "default"] : Assembly Rat) := by
      intro d present
      cases present
      exact ⟨by decide, by decide⟩
    obtain ⟨_, moved⟩ := seen known same _ interrupted rfl rfl
    have distance := moved .maxDistance (.int 3) rfl
    cases distance

end Assembly

end PageFlattening
