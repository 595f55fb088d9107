import PageFlattening.Proofs.Departures

/-! Which models count as belonging to a collection, along every history of calls. Every model that
is kept does; of those that have left, all but the ones that an insertion has discarded from the
cache have been let go. So a model that its holder knows by a tag is attached exactly while it is
kept, unless an insertion has discarded it from the cache and it has not been handed in again since.
-/
namespace PageFlattening

namespace Collection

variable {K : Type}

theorem mem_slots_iff {c : Collection K} {m : PageModel K} :
    some m ∈ c.slots.toList ↔ ∃ p, c.slot? p = some m := by
  rw [Array.mem_toList_iff, Array.mem_iff_getElem?]
  refine exists_congr fun p => ?_
  rw [slot?, Array.getD_eq_getD_getElem?]
  cases c.slots[p]? <;> simp

def KeepsTag (c : Collection K) (tag : Nat) : Prop := ∃ i, c.KeepsAs i ∧ i.tag = some tag

theorem keepsTag_iff {c : Collection K} {tag : Nat} :
    c.KeepsTag tag ↔ ∃ m, c.Keeps m ∧ m.tag = some tag := by
  constructor
  · rintro ⟨i, kept, known⟩
    obtain ⟨m, keeps, rfl⟩ := keepsAs_iff.mp kept
    exact ⟨m, keeps, known⟩
  · rintro ⟨m, kept, known⟩
    exact ⟨m.identity, kept.as, known⟩

instance (c : Collection K) (tag : Nat) : Decidable (c.KeepsTag tag) :=
  decidable_of_iff ((∃ s ∈ c.slots.toList, s.any (·.tag == some tag) = true) ∨
      ∃ m ∈ c.cache, m.tag = some tag) <| by
    rw [keepsTag_iff]
    constructor
    · rintro (⟨s, member, known⟩ | ⟨m, cached, known⟩)
      · cases s with
        | none => cases known
        | some m => exact ⟨m, Or.inl (mem_slots_iff.mp member), by simpa using known⟩
      · exact ⟨m, Or.inr cached, known⟩
    · rintro ⟨m, held | cached, known⟩
      · exact Or.inl ⟨some m, mem_slots_iff.mpr held, by simpa using known⟩
      · exact Or.inr ⟨m, cached, known⟩

/-! What has become of a model. -/

theorem find?_tag {models : List (PageModel K)} {tag : Nat} {m : PageModel K}
    (h : models.find? (fun m => m.tag == some tag) = some m) : m ∈ models ∧ m.tag = some tag :=
  ⟨List.mem_of_find?_eq_some h, by simpa using List.find?_some h⟩

theorem trace_of_keeps {c : Collection K} {tag : Nat} (h : c.KeepsTag tag) :
    ∃ m, c.trace tag = some m ∧ c.Keeps m := by
  obtain ⟨m, kept, known⟩ := keepsTag_iff.mp h
  rw [trace]
  split
  · rename_i found
    obtain ⟨s, member, same⟩ := List.exists_of_findSome?_eq_some found
    rw [Option.filter_eq_some_iff] at same
    exact ⟨_, rfl, Or.inl (mem_slots_iff.mp (same.1 ▸ member))⟩
  · rename_i absent
    rw [List.findSome?_eq_none_iff] at absent
    have cached : m ∈ c.cache := by
      refine kept.resolve_left fun held => ?_
      have skipped := absent (some m) (mem_slots_iff.mpr held)
      simp [Option.filter, known] at skipped
    obtain ⟨other, found⟩ := Option.isSome_iff_exists.mp
      ((List.find?_isSome (p := fun m : PageModel K => m.tag == some tag)).mpr
        ⟨m, cached, by simp [known]⟩)
    refine ⟨other, ?_, Or.inr (List.mem_of_find?_eq_some found)⟩
    rw [List.find?_append, found]
    rfl

theorem trace_of_not_keeps {c : Collection K} {tag : Nat} (h : ¬ c.KeepsTag tag) :
    c.trace tag = c.departed.find? fun m => m.tag == some tag := by
  have away : ∀ m, c.Keeps m → (m.tag == some tag) = false := by
    intro m kept
    rw [beq_eq_false_iff_ne]
    exact fun known => h (keepsTag_iff.mpr ⟨m, kept, known⟩)
  have slots : c.slots.toList.findSome? (fun s => s.filter fun m => m.tag == some tag) = none := by
    rw [List.findSome?_eq_none_iff]
    intro s member
    cases s with
    | none => rfl
    | some m => simp [Option.filter, away m (Or.inl (mem_slots_iff.mp member))]
  have cache : c.cache.find? (fun m => m.tag == some tag) = none := by
    rw [List.find?_eq_none]
    intro m member
    simp [away m (Or.inr member)]
  rw [trace, slots]
  change (c.cache ++ c.departed).find? _ = _
  rw [List.find?_append, cache, Option.none_or]

/-- A model is attached exactly while it is kept. -/
def Exact (c : Collection K) (tag : Nat) : Prop :=
  ∀ m ∈ c.trace tag, (m.attached = true ↔ c.KeepsTag tag)

instance (c : Collection K) (tag : Nat) : Decidable (c.Exact tag) :=
  inferInstanceAs (Decidable (∀ _ ∈ _, _))

/-- A model has left and is attached all the same. -/
def Astray (c : Collection K) (tag : Nat) : Prop :=
  ¬ c.KeepsTag tag ∧ ∃ m, c.departed.find? (fun m => m.tag == some tag) = some m ∧
    m.attached = true

theorem Stocked.attached {c : Collection K} (h : c.Stocked) {m : PageModel K} (kept : c.Keeps m) :
    m.attached = true := by
  rcases kept with ⟨p, held⟩ | cached
  · exact (h.slots p m held).2.attached
  · exact (h.cached m cached).1.attached

theorem exact_iff {c : Collection K} (h : c.Stocked) (tag : Nat) :
    c.Exact tag ↔ ¬ c.Astray tag := by
  by_cases kept : c.KeepsTag tag
  · obtain ⟨m, found, keeps⟩ := trace_of_keeps kept
    simp [Exact, Astray, kept, found, h.attached keeps]
  · simp only [Exact, Astray, kept, trace_of_not_keeps kept, iff_false, not_false_eq_true,
      true_and, not_exists, not_and, Option.mem_def]

/-! One call. -/

def Admits (c : Collection K) (tag : Nat) : Call K → Prop
  | .insert m => (c.insert m).fault = none ∧ m.tag = some tag
  | _ => False

def Discards (c : Collection K) (old : PageModel K) : Call K → Prop
  | .insert m =>
      (c.insert m).fault = none ∧ old ∈ c.cache ∧ old.page = m.page ∧ sameModel old m = false
  | _ => False

def Displaces (c : Collection K) (tag : Nat) (a : Call K) : Prop :=
  ∃ old, c.Discards old a ∧ old.tag = some tag

theorem not_admits {c : Collection K} {tag : Nat} {a : Call K} (other : ∀ m, a ≠ .insert m) :
    ¬ c.Admits tag a := by
  cases a with
  | insert m => exact absurd rfl (other m)
  | _ => exact id

theorem not_discards {c : Collection K} {old : PageModel K} {a : Call K}
    (other : ∀ m, a ≠ .insert m) : ¬ c.Discards old a := by
  cases a with
  | insert m => exact absurd rfl (other m)
  | _ => exact id

theorem sameModel_eq_true_iff {m other : PageModel K} :
    sameModel m other = true ↔ ∃ tag, m.tag = some tag ∧ other.tag = some tag := by
  rw [sameModel, Bool.and_eq_true, beq_iff_eq, Option.isSome_iff_exists]
  constructor
  · rintro ⟨⟨tag, known⟩, same⟩
    exact ⟨tag, known, same ▸ known⟩
  · rintro ⟨tag, known, known'⟩
    exact ⟨⟨tag, known⟩, known.trans known'.symm⟩

/-- What a call does to the models that others know by their tags: `left` is what it adds to the
log. -/
structure Logs (c : Collection K) (a : Call K) (d : Collection K) (left : List (PageModel K)) :
    Prop where
  departed : d.departed = left ++ c.departed
  attached : ∀ m, m ∈ left ∧ m.attached = true ↔ c.Discards m a
  known : ∀ m ∈ left, ∀ tag, m.tag = some tag → c.KeepsTag tag
  held : ∀ tag, d.KeepsTag tag → c.KeepsTag tag ∨ c.Admits tag a
  admitted : ∀ tag, c.Admits tag a → d.KeepsTag tag
  stay : ∀ tag, c.KeepsTag tag → d.KeepsTag tag ∨ ∃ m ∈ left, m.tag = some tag

theorem Logs.of_refused {c : Collection K} {m : PageModel K} (refused : (c.insert m).fault ≠ none) :
    Logs c (.insert m) c [] where
  departed := rfl
  attached old := by simp [Discards, refused]
  known old member := by cases member
  held tag kept := Or.inl kept
  admitted tag admits := absurd admits.1 refused
  stay tag kept := Or.inl kept

theorem mem_leaving {c : Collection K} (h : c.Stocked) {m x : PageModel K} :
    x ∈ c.leaving m ↔
      (x ∈ c.cache ∧ x.page = m.page ∧ sameModel x m = false) ∨
        ∃ old, c.slot? m.page = some old ∧ sameModel old m = false ∧
          x = { old with attached := false } := by
  simp only [leaving, List.mem_append, List.mem_filter, List.mem_map, Option.mem_toList,
    Bool.not_eq_true', cached?_eq_some_iff h.distinct, and_assoc]
  refine or_congr_right (exists_congr fun old => ?_)
  exact and_congr_right fun _ => and_congr_right fun _ => eq_comm

theorem Stocked.leaves {c : Collection K} (h : c.Stocked) {m x : PageModel K} (kept : c.Keeps x)
    (page : x.page = m.page) (other : sameModel x m = false) :
    ∃ y ∈ c.leaving m, y.tag = x.tag := by
  rcases kept with ⟨p, held⟩ | cached
  · have here : c.slot? m.page = some x := by
      rw [← page, (h.slots p x held).1, held]
    exact ⟨_, (mem_leaving h).mpr (Or.inr ⟨x, here, other, rfl⟩), rfl⟩
  · exact ⟨x, (mem_leaving h).mpr (Or.inl ⟨cached, page, other⟩), rfl⟩

theorem Logs.of_shelved {c : Collection K} (h : c.Stocked) {m : PageModel K}
    (accepted : (c.insert m).fault = none) :
    Logs c (.insert m) (c.shelved m) (c.leaving m) where
  departed := shelved_departed c m
  attached old := by
    rw [mem_leaving h]
    constructor
    · rintro ⟨cached | ⟨_, _, _, rfl⟩, attached⟩
      · exact ⟨accepted, cached⟩
      · cases attached
    · rintro ⟨_, cached⟩
      exact ⟨Or.inl cached, h.attached (Or.inr cached.1)⟩
  known x member tag known := by
    rw [keepsTag_iff]
    rcases (mem_leaving h).mp member with ⟨cached, _⟩ | ⟨old, held, _, rfl⟩
    · exact ⟨x, Or.inr cached, known⟩
    · exact ⟨old, Or.inl ⟨m.page, held⟩, known⟩
  held tag kept := by
    obtain ⟨i, kept, known⟩ := kept
    rcases (shelved_keepsAs h m i).mp kept with rfl | ⟨kept, _⟩
    · exact Or.inr ⟨accepted, known⟩
    · exact Or.inl ⟨i, kept, known⟩
  admitted tag admits :=
    ⟨m.identity, (shelved_keepsAs h m m.identity).mpr (Or.inl rfl), admits.2⟩
  stay tag kept := by
    obtain ⟨x, kept, known⟩ := keepsTag_iff.mp kept
    by_cases page : x.page = m.page
    · cases same : sameModel x m with
      | true =>
          obtain ⟨tag', known', taken⟩ := sameModel_eq_true_iff.mp same
          cases known.symm.trans known'
          exact Or.inl ⟨m.identity, (shelved_keepsAs h m m.identity).mpr (Or.inl rfl), taken⟩
      | false =>
          obtain ⟨y, leaves, tags⟩ := h.leaves kept page same
          exact Or.inr ⟨y, leaves, tags.trans known⟩
    · exact Or.inl ⟨x.identity, (shelved_keepsAs h m _).mpr (Or.inr ⟨kept.as, page⟩), known⟩

theorem Descends.logs {c d : Collection K} (h : Descends c d) {a : Call K}
    (other : ∀ m, a ≠ .insert m) : ∃ left, Logs c a d left := by
  obtain ⟨left, departed, released, stay⟩ := h.log
  have named : ∀ {i : Identity} {tag : Nat}, c.KeepsAs i ∨ i.OwnMaking → i.tag = some tag →
      c.KeepsTag tag := by
    rintro i tag (kept | own) known
    · exact ⟨i, kept, known⟩
    · rw [own.1] at known
      cases known
  refine ⟨left, departed, fun m => ⟨?_, fun discards => absurd discards (not_discards other)⟩,
    fun m member tag known => named (released m member).2 known, ?_,
    fun tag admits => absurd admits (not_admits other), ?_⟩
  · rintro ⟨member, attached⟩
    rw [(released m member).1] at attached
    cases attached
  · rintro tag ⟨i, kept, known⟩
    exact Or.inl (named (h.held i kept) known)
  · rintro tag ⟨i, kept, known⟩
    rcases stay i kept with kept | left
    · exact Or.inl ⟨i, kept, known⟩
    · obtain ⟨m, member, rfl⟩ := List.mem_map.mp left
      exact Or.inr ⟨m, member, known⟩

theorem run_logs [Scalar K] {c : Collection K} (h : c.Consistent) (a : Call K) :
    ∃ left, Logs c a (c.run a).state left := by
  by_cases insertion : ∃ m, a = .insert m
  · obtain ⟨m, rfl⟩ := insertion
    rw [run]
    rcases insert_outcome c m with ⟨refused, same⟩ | ⟨accepted, same⟩
    · rw [same]
      exact ⟨[], Logs.of_refused refused⟩
    · rw [same]
      exact ⟨c.leaving m, Logs.of_shelved h.toStocked accepted⟩
  · have other := not_exists.mp insertion
    exact (run_descends h other).logs other

/-! The tag of a model along a call. -/

theorem trace_eq_none_iff {c : Collection K} {tag : Nat} :
    c.trace tag = none ↔ ¬ c.KeepsTag tag ∧ ∀ m ∈ c.departed, m.tag ≠ some tag := by
  by_cases kept : c.KeepsTag tag
  · obtain ⟨m, found, _⟩ := trace_of_keeps kept
    simp [kept, found]
  · rw [trace_of_not_keeps kept, List.find?_eq_none]
    simp [kept]

namespace Logs

variable {c d : Collection K} {a : Call K} {left : List (PageModel K)} {tag : Nat}

theorem trace_eq_none_iff (h : Logs c a d left) :
    d.trace tag = none ↔ ¬ c.Admits tag a ∧ c.trace tag = none := by
  rw [Collection.trace_eq_none_iff, Collection.trace_eq_none_iff, h.departed]
  simp only [List.forall_mem_append]
  constructor
  · rintro ⟨lost, absent, earlier⟩
    refine ⟨fun admits => lost (h.admitted tag admits), fun kept => ?_, earlier⟩
    rcases h.stay tag kept with kept | ⟨m, member, known⟩
    · exact lost kept
    · exact absent m member known
  · rintro ⟨refused, lost, earlier⟩
    refine ⟨fun kept => ?_, fun m member known => lost (h.known m member tag known), earlier⟩
    rcases h.held tag kept with kept | admits
    · exact lost kept
    · exact refused admits

theorem astray_iff (h : Logs c a d left) (spared : ¬ c.Displaces tag a) :
    d.Astray tag ↔ c.Astray tag ∧ ¬ c.Admits tag a := by
  by_cases admits : c.Admits tag a
  · simp [Astray, h.admitted tag admits, admits]
  by_cases kept : c.KeepsTag tag
  · have found : d.Astray tag → False := by
      rintro ⟨lost, m, found, attached⟩
      obtain ⟨x, member, known⟩ := (h.stay tag kept).resolve_left lost
      obtain ⟨y, first⟩ := Option.isSome_iff_exists.mp
        ((List.find?_isSome (p := fun m : PageModel K => m.tag == some tag)).mpr
          ⟨x, member, by simp [known]⟩)
      rw [h.departed, List.find?_append, first, Option.some_or, Option.some.injEq] at found
      subst found
      obtain ⟨member, known⟩ := find?_tag first
      exact spared ⟨y, (h.attached y).mp ⟨member, attached⟩, known⟩
    simp only [Astray, kept, not_true_eq_false, false_and, iff_false]
    exact found
  · have lost : ¬ d.KeepsTag tag := fun keeps => (h.held tag keeps).elim kept admits
    have absent : left.find? (fun m => m.tag == some tag) = none := by
      rw [List.find?_eq_none]
      intro m member known
      exact kept (h.known m member tag (beq_iff_eq.mp known))
    simp only [Astray, lost, kept, admits, h.departed, List.find?_append, absent, Option.none_or,
      not_false_eq_true, true_and, and_true]

end Logs

def OnePage (c : Collection K) (tag page : Nat) : Prop :=
  ∀ i, c.KeepsAs i → i.tag = some tag → i.page = page

theorem displaced_astray {c : Collection K} (h : c.Stocked) {tag page : Nat}
    (one : c.OnePage tag page) {m : PageModel K} (displaces : c.Displaces tag (.insert m)) :
    (c.shelved m).Astray tag := by
  obtain ⟨old, ⟨_, cached, here, other⟩, known⟩ := displaces
  have kept : c.Keeps old := Or.inr cached
  constructor
  · rintro ⟨i, keeps, known'⟩
    rcases (shelved_keepsAs h m i).mp keeps with rfl | ⟨keeps, apart⟩
    · rw [sameModel_eq_true_iff.mpr ⟨tag, known, known'⟩] at other
      cases other
    · have same : i.page = old.page := (one i keeps known').trans (one old.identity kept.as known).symm
      exact apart (same.trans here)
  · have found : c.cached? m.page = some old :=
      (cached?_eq_some_iff h.distinct).mpr ⟨cached, here⟩
    exact ⟨old, by simp [shelved_departed, leaving, found, other, known], h.attached kept⟩

section Histories

variable [Scalar K]

theorem astray_run_iff {c : Collection K} (h : c.Consistent) {tag page : Nat}
    (one : c.OnePage tag page) (a : Call K) :
    (c.run a).state.Astray tag ↔ c.Displaces tag a ∨ (c.Astray tag ∧ ¬ c.Admits tag a) := by
  by_cases displaced : c.Displaces tag a
  · simp only [displaced, true_or, iff_true]
    obtain ⟨old, discards, _⟩ := id displaced
    by_cases insertion : ∃ m, a = .insert m
    · obtain ⟨m, rfl⟩ := insertion
      rcases insert_outcome c m with ⟨refused, _⟩ | ⟨_, same⟩
      · exact absurd discards.1 refused
      · rw [run, same]
        exact displaced_astray h.toStocked one displaced
    · exact absurd discards (not_discards (not_exists.mp insertion))
  · obtain ⟨left, logs⟩ := run_logs h a
    rw [logs.astray_iff displaced]
    simp [displaced]

theorem run_onePage {c : Collection K} (h : c.Consistent) {tag page : Nat}
    (one : c.OnePage tag page) {a : Call K}
    (own : ∀ m, a = .insert m → m.tag = some tag → m.page = page) :
    (c.run a).state.OnePage tag page := by
  intro i kept known
  rcases run_keepsAs h kept with kept | making | ⟨m, taken, rfl⟩
  · exact one i kept known
  · rw [making.1] at known
    cases known
  · exact own m taken known

/-! Whole histories. -/

theorem Reachable.consistent_afterCalls {c : Collection K} (h : Reachable (fun _ _ => True) c)
    (calls : List (Call K)) : (c.afterCalls calls).Consistent :=
  (h.afterCalls fun _ _ _ => trivial).consistent

theorem afterCalls_log {c : Collection K} (h : Reachable (fun _ _ => True) c)
    (calls : List (Call K)) :
    ∃ left, (c.afterCalls calls).departed = left ++ c.departed ∧
      ∀ m, m ∈ left ∧ m.attached = true ↔ ∃ before a rest, calls = before ++ a :: rest ∧
        (c.afterCalls before).Discards m a := by
  induction calls using List.reverseRecOn with
  | nil => exact ⟨[], rfl, by simp⟩
  | append_singleton calls x ih =>
      obtain ⟨left, departed, attached⟩ := ih
      obtain ⟨last, logs⟩ := run_logs (h.consistent_afterCalls calls) x
      have after : c.afterCalls (calls ++ [x]) = ((c.afterCalls calls).run x).state := by
        rw [afterCalls, List.foldl_append]
        rfl
      refine ⟨last ++ left, by rw [after, logs.departed, departed, List.append_assoc], fun m => ?_⟩
      rw [List.mem_append, or_and_right, logs.attached, attached]
      constructor
      · rintro (discards | ⟨before, a, rest, rfl, discards⟩)
        · exact ⟨calls, x, [], rfl, discards⟩
        · exact ⟨before, a, rest ++ [x], by simp, discards⟩
      · rintro ⟨before, a, rest, cut, discards⟩
        rcases snoc_eq_append_cons_iff.mp cut with ⟨rfl, rfl, rfl⟩ | ⟨mid, rfl, rfl⟩
        · exact Or.inl discards
        · exact Or.inr ⟨before, a, mid, rfl, discards⟩

theorem afterCalls_trace_isSome_iff {c : Collection K} (h : Reachable (fun _ _ => True) c)
    {tag : Nat} (unknown : c.trace tag = none) (calls : List (Call K)) :
    ((c.afterCalls calls).trace tag).isSome ↔ ∃ before a rest, calls = before ++ a :: rest ∧
      (c.afterCalls before).Admits tag a := by
  have never : (c.afterCalls calls).trace tag = none ↔
      ∀ before a rest, calls = before ++ a :: rest → (c.afterCalls before).Admits tag a →
        ∃ mid b tail, rest = mid ++ b :: tail ∧ False := by
    refine afterCalls_iff_settled (fun d => d.trace tag = none) (fun d a => d.Admits tag a)
      (fun _ _ => False) h.consistent unknown
      (fun d a _ consistent => run_consistent consistent a) ?_
    intro d a _ consistent
    obtain ⟨left, logs⟩ := run_logs consistent a
    rw [logs.trace_eq_none_iff, or_false]
  rw [Option.isSome_iff_ne_none, ne_eq, never]
  simp

/-- Along every history of a collection whatever it keeps is attached to it, and what has left is
still attached exactly if an insertion has discarded it from the cache. A model that is handed in
under a tag can be found from then on, and is attached exactly while it is kept, if and only if
every insertion that discards it from the cache is followed by one that takes it in again. -/
theorem exact_afterCalls_iff {c : Collection K} (h : Reachable (fun _ _ => True) c)
    (calls : List (Call K)) :
    (∀ m, (c.afterCalls calls).Keeps m → m.attached = true) ∧
    (∃ left, (c.afterCalls calls).departed = left ++ c.departed ∧
      ∀ m, m ∈ left ∧ m.attached = true ↔ ∃ before a rest, calls = before ++ a :: rest ∧
        (c.afterCalls before).Discards m a) ∧
    ∀ tag page, c.trace tag = none →
      (∀ m, .insert m ∈ calls → m.tag = some tag → m.page = page) →
      (((c.afterCalls calls).trace tag).isSome ↔ ∃ before a rest, calls = before ++ a :: rest ∧
        (c.afterCalls before).Admits tag a) ∧
      ((c.afterCalls calls).Exact tag ↔
        ∀ before a rest, calls = before ++ a :: rest → (c.afterCalls before).Displaces tag a →
          ∃ mid b tail, rest = mid ++ b :: tail ∧
            (c.afterCalls (before ++ a :: mid)).Admits tag b) := by
  refine ⟨fun m => (h.consistent_afterCalls calls).attached, afterCalls_log h calls, ?_⟩
  intro tag page unknown own
  refine ⟨afterCalls_trace_isSome_iff h unknown calls, ?_⟩
  have absent := trace_eq_none_iff.mp unknown
  have start : c.Consistent ∧ c.OnePage tag page :=
    ⟨h.consistent, fun i kept known => absurd ⟨i, kept, known⟩ absent.1⟩
  have calm : ¬ c.Astray tag := by
    rintro ⟨_, m, found, _⟩
    obtain ⟨member, known⟩ := find?_tag found
    exact absent.2 m member known
  rw [exact_iff (h.consistent_afterCalls calls).toStocked]
  refine afterCalls_iff_settled (I := fun d => d.Consistent ∧ d.OnePage tag page)
    (fun d => ¬ d.Astray tag) (fun d a => d.Displaces tag a) (fun d a => d.Admits tag a)
    start calm ?_ ?_
  · rintro d a member ⟨consistent, one⟩
    exact ⟨run_consistent consistent a,
      run_onePage consistent one fun m same => own m (same ▸ member)⟩
  · rintro d a _ ⟨consistent, one⟩
    rw [astray_run_iff consistent one a]
    tauto

end Histories

def rebuiltCalls : List (Call Rat) :=
  [.insert { sheet 0 .failed with tag := some 1 }, .resolve false .null,
    .insert { sheet 0 .failed with tag := some 2 }]

/-- The model that was set aside has left and is attached all the same. -/
theorem rebuilt_astray :
    Reachable (fun _ _ => True) (standardShelf.afterCalls rebuiltCalls) ∧
      ((standardShelf.afterCalls rebuiltCalls).trace 1).map (·.attached) = some true ∧
      ¬ (standardShelf.afterCalls rebuiltCalls).KeepsTag 1 ∧
      ¬ (standardShelf.afterCalls rebuiltCalls).Exact 1 :=
  ⟨(standardShelf_reachable _).afterCalls fun _ _ _ => trivial, by decide +kernel,
    by decide +kernel, by decide +kernel⟩

def returned : Call Rat := .insert { sheet 0 .failed with tag := some 1 }

/-- From then on it is attached because it is kept, and the other one, which has left, is not. -/
theorem returned_exact :
    Reachable (fun _ _ => True) standardShelf ∧
      (standardShelf.afterCalls (rebuiltCalls.take 2)).cachedPages = [0] ∧
      (standardShelf.afterCalls (rebuiltCalls ++ [returned])).Exact 1 ∧
      ((standardShelf.afterCalls (rebuiltCalls ++ [returned])).trace 1).map (·.attached) =
        some true ∧
      ((standardShelf.afterCalls (rebuiltCalls ++ [returned])).trace 2).map (·.attached) =
        some false := by
  have reachable := standardShelf_reachable fun _ _ => True
  refine ⟨reachable, by decide +kernel, ?_, by decide +kernel, by decide +kernel⟩
  have whole := (exact_afterCalls_iff reachable (rebuiltCalls ++ [returned])).2.2 1 0
    (by decide +kernel) (by simp [rebuiltCalls, returned, sheet, PageModel.blank])
  refine whole.2.mpr fun before a rest cut displaces => ?_
  rcases snoc_eq_append_cons_iff.mp cut with ⟨rfl, rfl, rfl⟩ | ⟨mid, rfl, earlier⟩
  · obtain ⟨old, ⟨_, _, _, other⟩, known⟩ := displaces
    rw [sameModel_eq_true_iff.mpr ⟨1, known, rfl⟩] at other
    cases other
  · refine ⟨mid, returned, [], rfl, ?_, rfl⟩
    rw [← earlier]
    decide +kernel

end Collection

end PageFlattening
