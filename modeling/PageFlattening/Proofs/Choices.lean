import PageFlattening.Proofs.Overrides
import PageFlattening.Proofs.Saving
import PageFlattening.Settings.Preset

/-!
What a draft comes to. Each choice is judged by the value that was given for it last, or by its
standard, and nothing else of a draft is looked at besides names that stand for no choice. An
override puts the values that it hands over in the place of the old ones, up to the first that
cannot be read.
-/
namespace PageFlattening

inductive Choice where
  | stride
  | reduction
  | minLines
  | maxDistance
  | cacheSize
  | useBoth
  | checkColumns
  | limit (l : Limit)
deriving DecidableEq

namespace Choice

variable {K : Type}

def name : Choice → String
  | .stride => "sampling"
  | .reduction => "redfactor"
  | .minLines => "minlines"
  | .maxDistance => "maxdist"
  | .cacheSize => "cache_size"
  | .useBoth => "useboth"
  | .checkColumns => "check_columns"
  | .limit l => l.name

def standard : Choice → Value K
  | .stride => .int BuildSettings.standard.stride
  | .reduction => .int BuildSettings.standard.reduction
  | .minLines => .int BuildSettings.standard.minLines
  | .maxDistance => .int Draft.standardMaxDistance
  | .cacheSize => .int Draft.standardCacheSize
  | .useBoth => .bool true
  | .checkColumns => .bool false
  | .limit l => .int l.standard

/-- A choice as it stands in checked settings; truth values are zero and one. -/
def read (s : Settings) (cacheSize : Nat) : Choice → Nat
  | .stride => s.build.stride
  | .reduction => s.build.reduction
  | .minLines => s.build.minLines
  | .maxDistance => s.maxDistance
  | .cacheSize => cacheSize
  | .useBoth => s.useBoth.toNat
  | .checkColumns => s.checkColumns.toNat
  | .limit l => s.thresholds.limit l

def check [Scalar K] : Choice → Value K → Except Fault Nat
  | .stride, v => (BuildSettings.checkStride v).map (·.val)
  | .reduction, v => (BuildSettings.checkReduction v).map (·.val)
  | .minLines, v => (BuildSettings.checkMinLines v).map (·.val)
  | .maxDistance, v => checkMaxDistance v
  | .cacheSize, v => checkCacheSize v
  | .useBoth, v => .ok v.truthy.toNat
  | .checkColumns, v => .ok v.truthy.toNat
  | .limit l, v => Thresholds.checkLimit l.name v

end Choice

def Thresholds.Named {K : Type} (entries : List (String × Value K)) : Prop :=
  ∀ e ∈ entries, (Limit.ofName? e.1).isSome

instance {K : Type} (entries : List (String × Value K)) : Decidable (Thresholds.Named entries) :=
  inferInstanceAs (Decidable (∀ e ∈ entries, (Limit.ofName? e.1).isSome))

namespace Draft

variable {K : Type}

def value (d : Draft K) : Choice → Value K
  | .limit l => (Value.entry? d.namedLimits l.name).getD (.int l.standard)
  | x => d.parameter x.name x.standard

def judged [Scalar K] (d : Draft K) (x : Choice) : Except Fault Nat := x.check (d.value x)

def KnownParameters (d : Draft K) : Prop := ∀ e ∈ d.parameters, e.1 ∈ parameterNames

def KnownLimits (d : Draft K) : Prop := Thresholds.Named d.namedLimits

instance (d : Draft K) : Decidable d.KnownParameters :=
  inferInstanceAs (Decidable (∀ e ∈ d.parameters, e.1 ∈ parameterNames))

instance (d : Draft K) : Decidable d.KnownLimits :=
  inferInstanceAs (Decidable (Thresholds.Named d.namedLimits))

/-- Two drafts that no check tells apart. -/
structure Alike [Scalar K] (d d' : Draft K) : Prop where
  parameters : d.KnownParameters ↔ d'.KnownParameters
  limits : d.KnownLimits ↔ d'.KnownLimits
  judged : ∀ x, d.judged x = d'.judged x

end Draft

/-! Checking a draft. -/

theorem eq_of_toNat {a b : Bool} (h : a.toNat = b.toNat) : a = b := by
  revert a b
  decide

namespace Thresholds

variable {K : Type} [Scalar K]

theorem given_eq (entries : List (String × Value K)) (l : Limit) :
    given entries l =
      checkLimit l.name ((Value.entry? entries l.name).getD (.int l.standard)) := by
  rw [given]
  cases Value.entry? entries l.name with
  | some v => rfl
  | none => exact (checkLimit_eq_ok_iff.mpr rfl).symm

omit [Scalar K] in
theorem any_foreign_iff {entries : List (String × Value K)} :
    entries.any (fun e => (Limit.ofName? e.1).isNone) = true ↔ ¬ Named entries := by
  simp [Named]

theorem ofEntries_eq_ok_iff {entries : List (String × Value K)} {t : Thresholds} :
    ofEntries entries = .ok t ↔ Named entries ∧ ∀ l, given entries l = .ok (t.limit l) := by
  rw [ofEntries]
  constructor
  · intro made
    split at made
    · cases made
    · rename_i named
      rw [any_foreign_iff, not_not] at named
      obtain ⟨_, first, made⟩ := exists_of_bind_eq_ok made
      obtain ⟨_, second, made⟩ := exists_of_bind_eq_ok made
      obtain ⟨_, third, made⟩ := exists_of_bind_eq_ok made
      obtain ⟨_, fourth, made⟩ := exists_of_bind_eq_ok made
      obtain ⟨_, fifth, made⟩ := exists_of_bind_eq_ok made
      obtain ⟨_, sixth, made⟩ := exists_of_bind_eq_ok made
      refine ⟨named, fun l => ?_⟩
      rw [make_eq_ok_iff.mp made]
      cases l <;> assumption
  · rintro ⟨named, made⟩
    rw [if_neg (any_foreign_iff.not.mpr (not_not.mpr named))]
    simp only [made, bind, Except.bind, make_eq_ok_iff]
    funext l
    cases l <;> rfl

theorem ofEntries_nil : ofEntries ([] : List (String × Value K)) = .ok standard :=
  ofEntries_eq_ok_iff.mpr ⟨fun _ member => absurd member List.not_mem_nil, fun _ => rfl⟩

theorem ofEntries_congr {entries others : List (String × Value K)}
    (named : Named entries ↔ Named others) (same : ∀ l, given entries l = given others l) :
    ofEntries entries = ofEntries others := by
  have foreign : entries.any (fun e => (Limit.ofName? e.1).isNone) =
      others.any fun e => (Limit.ofName? e.1).isNone := by
    rw [Bool.eq_iff_iff, any_foreign_iff, any_foreign_iff, named]
  simp only [ofEntries, foreign, same]

theorem refused_of_ofEntries {entries : List (String × Value K)} (named : Named entries)
    {fault : Fault} (h : ofEntries entries = .error fault) :
    (∃ l, given entries l = .error fault) ∨
      ∃ low high, given entries .lineSpreadFloor = .ok low ∧ given entries .lineSpread = .ok high ∧
        high < low := by
  have known : ¬ entries.any (fun e => (Limit.ofName? e.1).isNone) = true :=
    any_foreign_iff.not.mpr (not_not.mpr named)
  rw [ofEntries, if_neg known] at h
  rcases eq_error_of_bind h with refused | ⟨_, _, h⟩
  · exact .inl ⟨_, refused⟩
  rcases eq_error_of_bind h with refused | ⟨low, floor, h⟩
  · exact .inl ⟨_, refused⟩
  rcases eq_error_of_bind h with refused | ⟨high, ceiling, h⟩
  · exact .inl ⟨_, refused⟩
  rcases eq_error_of_bind h with refused | ⟨_, _, h⟩
  · exact .inl ⟨_, refused⟩
  rcases eq_error_of_bind h with refused | ⟨_, _, h⟩
  · exact .inl ⟨_, refused⟩
  rcases eq_error_of_bind h with refused | ⟨_, _, h⟩
  · exact .inl ⟨_, refused⟩
  refine .inr ⟨low, high, floor, ceiling, lt_of_not_ge fun ordered => ?_⟩
  rw [make, dif_pos ordered] at h
  cases h

end Thresholds

namespace Draft

variable {K : Type} [Scalar K]

theorem thresholds_eq (d : Draft K) : d.thresholds = Thresholds.ofEntries d.namedLimits := by
  cases d with
  | mk parameters limits =>
      cases limits with
      | standard => exact Thresholds.ofEntries_nil.symm
      | entries named => rfl
      | whole t => exact (Thresholds.ofEntries_entries t).symm

omit [Scalar K] in
theorem any_foreign_iff {d : Draft K} :
    d.parameters.any (fun e => !parameterNames.contains e.1) = true ↔ ¬ d.KnownParameters := by
  simp [KnownParameters]

theorem given_namedLimits (d : Draft K) (l : Limit) :
    Thresholds.given d.namedLimits l = d.judged (.limit l) := Thresholds.given_eq d.namedLimits l

def arranged (d : Draft K) (thresholds : Thresholds) : Except Fault (Settings × Nat) := do
  let build ← BuildSettings.check (d.value .stride) (d.value .reduction) (d.value .minLines)
  let maxDistance ← checkMaxDistance (d.value .maxDistance)
  let cacheSize ← checkCacheSize (d.value .cacheSize)
  let useBoth := (d.value .useBoth).truthy
  let checkColumns := (d.value .checkColumns).truthy
  return ({ build, maxDistance, useBoth, checkColumns, thresholds }, cacheSize)

theorem settings_of_thresholds {d : Draft K} {fault : Fault}
    (refused : d.thresholds = .error fault) : d.settings = .error fault := by
  rw [settings, refused]
  rfl

theorem settings_of_foreign {d : Draft K} (foreign : ¬ d.KnownParameters) {t : Thresholds}
    (made : d.thresholds = .ok t) : d.settings = .error (.misuse .wrongType) := by
  rw [settings, made]
  simp only [any_foreign_iff.mpr foreign, bind, Except.bind]
  rfl

theorem settings_eq_arranged {d : Draft K} (known : d.KnownParameters) {t : Thresholds}
    (made : d.thresholds = .ok t) : d.settings = d.arranged t := by
  rw [settings, made]
  simp only [any_foreign_iff.not.mpr (not_not.mpr known), bind, Except.bind]
  rfl

theorem judged_of_settings {d : Draft K} {s : Settings} {size : Nat}
    (h : d.settings = .ok (s, size)) :
    d.KnownParameters ∧ d.KnownLimits ∧ ∀ x, d.judged x = .ok (x.read s size) := by
  obtain ⟨t, made, _⟩ := exists_of_bind_eq_ok h
  have known : d.KnownParameters := by
    by_contra foreign
    cases h.symm.trans (settings_of_foreign foreign made)
  rw [settings_eq_arranged known made] at h
  rw [thresholds_eq] at made
  obtain ⟨named, limits⟩ := Thresholds.ofEntries_eq_ok_iff.mp made
  obtain ⟨build, built, h⟩ := exists_of_bind_eq_ok h
  obtain ⟨maxDistance, distance, h⟩ := exists_of_bind_eq_ok h
  obtain ⟨cacheSize, room, h⟩ := exists_of_bind_eq_ok h
  obtain ⟨stride, strides, built⟩ := exists_of_bind_eq_ok built
  obtain ⟨reduction, reduces, built⟩ := exists_of_bind_eq_ok built
  obtain ⟨minLines, lines, built⟩ := exists_of_bind_eq_ok built
  cases built
  cases h
  refine ⟨known, named, fun x => ?_⟩
  cases x with
  | stride => exact congrArg (Except.map (·.val)) strides
  | reduction => exact congrArg (Except.map (·.val)) reduces
  | minLines => exact congrArg (Except.map (·.val)) lines
  | maxDistance => exact distance
  | cacheSize => exact room
  | useBoth => rfl
  | checkColumns => rfl
  | limit l => exact (given_namedLimits d l).symm.trans (limits l)

theorem thresholds_of_judged {d : Draft K} (named : d.KnownLimits) {n : Limit → Nat}
    (judged : ∀ l, d.judged (.limit l) = .ok (n l)) (ordered : n .lineSpreadFloor ≤ n .lineSpread) :
    d.thresholds = .ok ⟨n, ordered⟩ := by
  rw [thresholds_eq, Thresholds.ofEntries_eq_ok_iff]
  exact ⟨named, fun l => (given_namedLimits d l).trans (judged l)⟩

theorem exists_settings {d : Draft K} (known : d.KnownParameters) (named : d.KnownLimits)
    {n : Choice → Nat} (judged : ∀ x, d.judged x = .ok (n x))
    (ordered : n (.limit .lineSpreadFloor) ≤ n (.limit .lineSpread)) :
    ∃ s size, d.settings = .ok (s, size) ∧ ∀ x, Choice.read s size x = n x := by
  have made := thresholds_of_judged named (fun l => judged (.limit l)) ordered
  have done : ∃ result, d.settings = .ok result := by
    obtain ⟨stride, strides, _⟩ := exists_of_map_eq_ok (judged .stride)
    obtain ⟨reduction, reduces, _⟩ := exists_of_map_eq_ok (judged .reduction)
    obtain ⟨minLines, lines, _⟩ := exists_of_map_eq_ok (judged .minLines)
    have distance : checkMaxDistance (d.value .maxDistance) = .ok _ := judged .maxDistance
    have room : checkCacheSize (d.value .cacheSize) = .ok _ := judged .cacheSize
    rw [settings_eq_arranged known made, arranged, BuildSettings.check, strides, reduces, lines,
      distance, room]
    exact ⟨_, rfl⟩
  obtain ⟨⟨s, size⟩, done⟩ := done
  refine ⟨s, size, done, fun x => ?_⟩
  exact Except.ok.inj (((judged_of_settings done).2.2 x).symm.trans (judged x))

theorem refused_of_settings {d : Draft K} (known : d.KnownParameters) (named : d.KnownLimits)
    {fault : Fault} (h : d.settings = .error fault) :
    (∃ x, d.judged x = .error fault) ∨
      ∃ low high, d.judged (.limit .lineSpreadFloor) = .ok low ∧
        d.judged (.limit .lineSpread) = .ok high ∧ high < low := by
  cases made : d.thresholds with
  | error cause =>
      cases (settings_of_thresholds made).symm.trans h
      rw [thresholds_eq] at made
      have reason := Thresholds.refused_of_ofEntries named made
      simp only [given_namedLimits] at reason
      exact reason.imp_left fun ⟨l, refused⟩ => ⟨.limit l, refused⟩
  | ok t =>
      left
      rw [settings_eq_arranged known made] at h
      rcases eq_error_of_bind h with refused | ⟨_, _, h⟩
      · rcases eq_error_of_bind refused with refused | ⟨_, _, refused⟩
        · exact ⟨.stride, congrArg (Except.map Subtype.val) refused⟩
        rcases eq_error_of_bind refused with refused | ⟨_, _, refused⟩
        · exact ⟨.reduction, congrArg (Except.map Subtype.val) refused⟩
        rcases eq_error_of_bind refused with refused | ⟨_, _, refused⟩
        · exact ⟨.minLines, congrArg (Except.map Subtype.val) refused⟩
        · cases refused
      rcases eq_error_of_bind h with refused | ⟨_, _, h⟩
      · exact ⟨.maxDistance, refused⟩
      rcases eq_error_of_bind h with refused | ⟨_, _, h⟩
      · exact ⟨.cacheSize, refused⟩
      · cases h

theorem settings_of_refused {d : Draft K} (known : d.KnownParameters) (named : d.KnownLimits)
    {x : Choice} {fault : Fault} (refused : d.judged x = .error fault)
    {n : Choice → Nat} (others : ∀ y, y ≠ x → d.judged y = .ok (n y))
    (ordered : n (.limit .lineSpreadFloor) ≤ n (.limit .lineSpread)) :
    d.settings = .error fault := by
  have accepted : ∀ {y m}, d.judged y = .ok m → n y = m := by
    intro y m found
    have away : y ≠ x := fun same => by cases refused.symm.trans (same ▸ found)
    exact Except.ok.inj ((others y away).symm.trans found)
  cases h : d.settings with
  | ok result => cases refused.symm.trans ((judged_of_settings h).2.2 x)
  | error cause =>
      rcases refused_of_settings known named h with
        ⟨y, reason⟩ | ⟨low, high, floor, ceiling, crossed⟩
      · by_cases same : y = x
        · subst same
          exact congrArg Except.error (Except.error.inj (reason.symm.trans refused))
        · cases reason.symm.trans (others y same)
      · rw [accepted floor, accepted ceiling] at ordered
        exact absurd ordered (not_le_of_gt crossed)

theorem Alike.settings {d d' : Draft K} (h : d.Alike d') : d.settings = d'.settings := by
  have made : d.thresholds = d'.thresholds := by
    rw [thresholds_eq, thresholds_eq]
    refine Thresholds.ofEntries_congr h.limits fun l => ?_
    rw [given_namedLimits, given_namedLimits, h.judged]
  cases found : d.thresholds with
  | error fault =>
      rw [settings_of_thresholds found, settings_of_thresholds (made.symm.trans found)]
  | ok t =>
      have found' := made.symm.trans found
      by_cases known : d.KnownParameters
      · rw [settings_eq_arranged known found, settings_eq_arranged (h.parameters.mp known) found']
        have strides := map_injective Subtype.val_injective (h.judged .stride)
        have reduces := map_injective Subtype.val_injective (h.judged .reduction)
        have lines := map_injective Subtype.val_injective (h.judged .minLines)
        have distance : checkMaxDistance (d.value .maxDistance) = _ := h.judged .maxDistance
        have room : checkCacheSize (d.value .cacheSize) = _ := h.judged .cacheSize
        have both := eq_of_toNat (Except.ok.inj (h.judged .useBoth))
        have columns := eq_of_toNat (Except.ok.inj (h.judged .checkColumns))
        simp only [arranged, BuildSettings.check, strides, reduces, lines, distance, room, both,
          columns]
        rfl
      · rw [settings_of_foreign known found,
          settings_of_foreign (fun known' => known (h.parameters.mpr known')) found']

/-! Overriding a draft. -/

def pairs : List (Value K) → List (String × Value K)
  | [] => []
  | item :: rest =>
      match pairOf item with
      | .ok e => e :: pairs rest
      | .error _ => []

def filed : Value K → List (String × Value K)
  | .table entries => entries
  | .list items => pairs items
  | .text s => pairs (s.toList.map fun c => .text (String.singleton c))
  | _ => []

def unread (overrides : Value K) : Option Fault :=
  if overrides.truthy then (mergeLimits [] overrides).2 else none

theorem filePairs_eq (named : List (String × Value K)) (items : List (Value K)) :
    filePairs named items =
      ((pairs items).foldl (fun acc e => Value.setEntry acc e.1 e.2) named,
        (filePairs [] items).2) := by
  -- Where pairs stop does not depend on what has been filed before them.
  suffices h : ∀ other : List (String × Value K), filePairs named items =
      ((pairs items).foldl (fun acc e => Value.setEntry acc e.1 e.2) named,
        (filePairs other items).2) from h []
  induction items generalizing named with
  | nil => exact fun _ => rfl
  | cons item rest ih =>
      intro other
      rw [filePairs, filePairs, pairs]
      cases pairOf item with
      | error fault => rfl
      | ok e => exact ih _ _

theorem mergeLimits_eq (named : List (String × Value K)) (overrides : Value K) :
    mergeLimits named overrides =
      ((filed overrides).foldl (fun acc e => Value.setEntry acc e.1 e.2) named,
        (mergeLimits [] overrides).2) := by
  cases overrides with
  | list items => exact filePairs_eq named items
  | text s => exact filePairs_eq named _
  | _ => rfl

theorem filed_of_not_truthy {overrides : Value K} (h : overrides.truthy = false) :
    filed overrides = [] := by
  cases overrides with
  | table entries =>
      have none : entries = [] := by simpa [Value.truthy] using h
      rw [none]
      rfl
  | list items =>
      have none : items = [] := by simpa [Value.truthy] using h
      rw [none]
      rfl
  | text s =>
      have none : s = "" := by simpa [Value.truthy] using h
      rw [none]
      rfl
  | _ => rfl

theorem unread_table (named : List (String × Value K)) : unread (.table named) = none := by
  rw [unread]
  split <;> rfl

theorem overrideLimits_eq (d : Draft K) (overrides : Value K) (name : String) :
    Value.entry? (d.overrideLimits overrides).state.namedLimits name =
      Value.entry? ((filed overrides).reverse ++ d.namedLimits) name := by
  cases set : overrides.truthy with
  | false =>
      rw [overrideLimits, set, filed_of_not_truthy set]
      rfl
  | true =>
      rw [overrideLimits, set, mergeLimits_eq, ← Value.entry?_foldl_setEntry]
      rfl

theorem overrideLimits_parameters (d : Draft K) (overrides : Value K) :
    (d.overrideLimits overrides).state.parameters = d.parameters := by
  rw [overrideLimits]
  split <;> rfl

theorem overrideLimits_fault (d : Draft K) (overrides : Value K) :
    (d.overrideLimits overrides).fault = unread overrides := by
  rw [overrideLimits, unread, mergeLimits_eq]
  cases overrides.truthy <;> rfl

/-- The value that overrides hand over for a choice: the last one given. -/
def handed (entries : List (String × Value K)) : Choice → Option (Value K)
  | .limit l => Value.latest? (filed (splitLimits entries).1) l.name
  | x => Value.latest? (splitLimits entries).2 x.name

structure Proper (entries : List (String × Value K)) : Prop where
  parameters : ∀ e ∈ (splitLimits entries).2, e.1 ∈ parameterNames
  limits : Thresholds.Named (filed (splitLimits entries).1)

theorem override_parameters (d : Draft K) (entries : List (String × Value K)) (name : String) :
    Value.entry? (d.override entries).state.parameters name =
      Value.entry? ((splitLimits entries).2.reverse ++ d.parameters) name := by
  rw [override, overrideLimits_parameters]
  exact Value.entry?_foldl_setEntry _ _ name

theorem override_limits (d : Draft K) (entries : List (String × Value K)) (name : String) :
    Value.entry? (d.override entries).state.namedLimits name =
      Value.entry? ((filed (splitLimits entries).1).reverse ++ d.namedLimits) name :=
  overrideLimits_eq _ _ name

theorem override_fault (d : Draft K) (entries : List (String × Value K)) :
    (d.override entries).fault = unread (splitLimits entries).1 :=
  overrideLimits_fault _ _

theorem override_knownParameters (d : Draft K) (entries : List (String × Value K)) :
    (d.override entries).state.KnownParameters ↔
      (∀ e ∈ (splitLimits entries).2, e.1 ∈ parameterNames) ∧ d.KnownParameters := by
  have names := Value.forall_name_congr (override_parameters d entries) (p := (· ∈ parameterNames))
  rw [KnownParameters, names, List.forall_mem_append]
  simp only [List.mem_reverse, KnownParameters]

theorem override_knownLimits (d : Draft K) (entries : List (String × Value K)) :
    (d.override entries).state.KnownLimits ↔
      Thresholds.Named (filed (splitLimits entries).1) ∧ d.KnownLimits := by
  have names := Value.forall_name_congr (override_limits d entries)
    (p := fun name => (Limit.ofName? name).isSome)
  rw [KnownLimits, Thresholds.Named, names, List.forall_mem_append]
  simp only [List.mem_reverse, KnownLimits, Thresholds.Named]

theorem override_value (d : Draft K) (entries : List (String × Value K)) (x : Choice) :
    (d.override entries).state.value x = (handed entries x).getD (d.value x) := by
  cases x with
  | limit l =>
      simp only [value, handed, override_limits, Value.entry?_append, Value.latest?, Option.getD_or]
  | _ =>
      simp only [value, handed, parameter, override_parameters, Value.entry?_append, Value.latest?,
        Option.getD_or]

theorem override_judged (d : Draft K) (entries : List (String × Value K)) (x : Choice) :
    (d.override entries).state.judged x = ((handed entries x).map x.check).getD (d.judged x) := by
  rw [judged, override_value]
  cases handed entries x <;> rfl

theorem Alike.override {d d' : Draft K} (h : d.Alike d') (entries : List (String × Value K)) :
    (d.override entries).state.Alike (d'.override entries).state where
  parameters := by rw [override_knownParameters, override_knownParameters, h.parameters]
  limits := by rw [override_knownLimits, override_knownLimits, h.limits]
  judged x := by rw [override_judged, override_judged, h.judged]

end Draft

end PageFlattening
