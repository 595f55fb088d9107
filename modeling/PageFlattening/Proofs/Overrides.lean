import PageFlattening.Proofs.Entries
import PageFlattening.Proofs.Loosening
import PageFlattening.Proofs.Refusals

/-!
Thresholds under overrides. Limits are checked one by one as they are given, floor and ceiling of
the line spread only when all are in: so an update is judged by the limits that it leads to and not
by those on the way, and the order in which it names them makes no difference. After any calls,
those that were refused among them, each limit is the last one that an accepted call gave.
-/
namespace PageFlattening

namespace Thresholds

variable {K : Type}

def merged (limit : Limit → Nat) (entries : List (String × Value K)) (l : Limit) : Nat :=
  match Value.entry? entries.reverse l.name with
  | some (.int n) => n.toNat
  | _ => limit l

def Known (entries : List (String × Value K)) : Prop :=
  ∀ e ∈ entries, ∃ (l : Limit) (n : Nat), e = (l.name, .int n)

theorem name_injective : Function.Injective Limit.name := by
  intro l l' same
  have found := congrArg Limit.ofName? same
  rwa [Limit.ofName?_name, Limit.ofName?_name, Option.some.injEq] at found

theorem eq_of_limit {t t' : Thresholds} (h : t.limit = t'.limit) : t = t' := by
  cases t
  cases t'
  cases h
  rfl

theorem merged_nil (limit : Limit → Nat) :
    merged limit ([] : List (String × Value K)) = limit := rfl

theorem merged_append (limit : Limit → Nat) {entries others : List (String × Value K)}
    (known : Known others) :
    merged limit (entries ++ others) = merged (merged limit entries) others := by
  funext l
  rw [merged, merged, List.reverse_append, Value.entry?_append]
  cases found : Value.entry? others.reverse l.name with
  | none => rfl
  | some v =>
      obtain ⟨_, n, same⟩ := known _ (List.mem_reverse.mp (Value.mem_of_found found))
      obtain rfl : v = .int n := (Prod.mk.inj same).2
      rfl

theorem merged_single (limit : Limit → Nat) (l : Limit) (n : Nat) :
    merged limit [(l.name, (.int n : Value K))] = replace limit l n := by
  funext other
  rw [merged, replace, List.reverse_singleton, Value.entry?_cons]
  by_cases here : other = l
  · simp [here]
  · have away : l.name ≠ other.name := fun same => here (name_injective same).symm
    simp [here, away]

theorem merged_perm (limit : Limit → Nat) {entries others : List (String × Value K)}
    (h : entries.Perm others) (distinct : (entries.map (·.1)).Nodup) :
    merged limit entries = merged limit others := by
  funext l
  have turned : entries.reverse.Perm others.reverse :=
    (entries.reverse_perm.trans h).trans others.reverse_perm.symm
  have distinct' : (entries.reverse.map (·.1)).Nodup :=
    (entries.reverse_perm.map (·.1)).nodup_iff.mpr distinct
  rw [merged, merged, Value.entry?_perm turned distinct']

theorem Known.perm {entries others : List (String × Value K)} (h : Known entries)
    (same : entries.Perm others) : Known others :=
  fun e member => h e (same.mem_iff.mpr member)

variable [Scalar K]

theorem overridden_of_known (limit : Limit → Nat) {entries : List (String × Value K)}
    (known : Known entries) : overridden limit entries = .ok (merged limit entries) := by
  induction entries generalizing limit with
  | nil => rfl
  | cons e rest ih =>
      rw [Known, List.forall_mem_cons] at known
      obtain ⟨⟨l, n, rfl⟩, others⟩ := known
      rw [overridden, Limit.ofName?_name]
      dsimp only
      rw [checkLimit_eq_ok_iff.mpr rfl, ← List.singleton_append, merged_append limit others,
        merged_single]
      exact ih (replace limit l n) others

theorem make_eq_ok_iff {limit : Limit → Nat} {t : Thresholds} :
    make limit = .ok t ↔ t.limit = limit := by
  rw [make]
  constructor
  · intro made
    split at made
    · cases made
      rfl
    · cases made
  · rintro rfl
    rw [dif_pos t.ordered]

/-- An update succeeds with the limits that it leads to: every entry is one, and they are in
order. -/
theorem revise_eq_ok_iff (t t' : Thresholds) (entries : List (String × Value K)) :
    t.revise entries = .ok t' ↔ Known entries ∧ t'.limit = merged t.limit entries := by
  rw [revise]
  constructor
  · intro done
    split at done
    · cases done
    · obtain ⟨limit, found, made⟩ := exists_of_bind_eq_ok done
      have known : Known entries := (overridden_eq_ok_iff t.limit entries).mp ⟨limit, found⟩
      obtain rfl := Except.ok.inj (found.symm.trans (overridden_of_known t.limit known))
      exact ⟨known, make_eq_ok_iff.mp made⟩
  · rintro ⟨known, same⟩
    have named : ¬ entries.any (fun e => e.1 == "self") = true := by
      intro own
      obtain ⟨e, member, foreign⟩ := exists_foreign_of_self own
      obtain ⟨l, n, limit⟩ := known e member
      exact foreign l n limit
    rw [if_neg named, overridden_of_known t.limit known]
    exact make_eq_ok_iff.mpr same

end Thresholds

namespace Collection

variable {K : Type} [Scalar K]

/-! One update. -/

theorem setThresholds_fault_iff (c : Collection K) (entries : List (String × Value K)) :
    (c.setThresholds entries).fault = none ↔
      Thresholds.Known entries ∧
        Thresholds.merged c.settings.thresholds.limit entries .lineSpreadFloor ≤
          Thresholds.merged c.settings.thresholds.limit entries .lineSpread := by
  have accepted := Thresholds.revise_eq_ok_iff (K := K) c.settings.thresholds
  rw [setThresholds]
  constructor
  · intro done
    split at done
    · rename_i t found
      obtain ⟨known, same⟩ := (accepted t entries).mp found
      exact ⟨known, same ▸ t.ordered⟩
    · cases done
  · rintro ⟨known, ordered⟩
    rw [(accepted ⟨_, ordered⟩ entries).mpr ⟨known, rfl⟩]
    rfl

theorem setThresholds_state (c : Collection K) (entries : List (String × Value K)) :
    ((c.setThresholds entries).fault = none →
      ∃ t, (c.setThresholds entries).state = c.under t ∧
        t.limit = Thresholds.merged c.settings.thresholds.limit entries) ∧
    ((c.setThresholds entries).fault ≠ none → (c.setThresholds entries).state = c) := by
  rw [setThresholds]
  cases found : c.settings.thresholds.revise entries with
  | ok t =>
      have same := ((Thresholds.revise_eq_ok_iff c.settings.thresholds t entries).mp found).2
      exact ⟨fun _ => ⟨t, rfl, same⟩, fun stopped => absurd rfl stopped⟩
  | error fault => exact ⟨fun done => (by cases done), fun _ => rfl⟩

theorem setThresholds_perm (c : Collection K) {entries others : List (String × Value K)}
    (h : entries.Perm others) (distinct : (entries.map (·.1)).Nodup) :
    ((c.setThresholds others).fault = none ↔ (c.setThresholds entries).fault = none) ∧
      (c.setThresholds others).state = (c.setThresholds entries).state := by
  have same := Thresholds.merged_perm c.settings.thresholds.limit h distinct
  have decided :
      (c.setThresholds others).fault = none ↔ (c.setThresholds entries).fault = none := by
    rw [setThresholds_fault_iff, setThresholds_fault_iff, same]
    exact and_congr_left fun _ => ⟨fun known => known.perm h.symm, fun known => known.perm h⟩
  refine ⟨decided, ?_⟩
  by_cases done : (c.setThresholds entries).fault = none
  · obtain ⟨t, first, limit⟩ := (setThresholds_state c entries).1 done
    obtain ⟨t', second, limit'⟩ := (setThresholds_state c others).1 (decided.mpr done)
    have equal : t' = t := Thresholds.eq_of_limit (limit'.trans (same.symm.trans limit.symm))
    rw [first, second, equal]
  · rw [(setThresholds_state c entries).2 done,
      (setThresholds_state c others).2 fun ok => done (decided.mp ok)]

end Collection

/-! Any calls. -/

def Call.overrides {K : Type} : Call K → List (String × Value K)
  | .setThresholds entries => entries
  | .assign (.limit l) v => [(l.name, v)]
  | _ => []

namespace Collection

section Frames

variable {K : Type}

theorem insert_settings (c : Collection K) (m : PageModel K) :
    (c.insert m).state.settings = c.settings := by
  by_cases foreign : m.stride ≠ c.settings.build.stride ∨ m.reduction ≠ c.settings.build.reduction
  · rw [insert, if_pos foreign]
    rfl
  · obtain ⟨stride, reduction⟩ := not_or.mp foreign
    have vacated := (reserve_ledger c m.page).trans (vacate_ledger (c.reserve m.page) m)
    have filled := vacated.trans (setSlot_ledger _ m.page (some m.adopted))
    have checked := setSlot_ledger (c.placed m) m.page (some (c.entered m))
    rw [insert_eq (not_not.mp stride) (not_not.mp reduction)]
    refine checked.settings.trans ?_
    unfold placed
    exact filled.settings

theorem revalidate_settings (c : Collection K) (untested : Bool) :
    (c.revalidate untested).state.settings = c.settings := by
  refine Outcome.each_invariant (P := fun d : Collection K => d.settings = c.settings) ?_ c.span rfl
  intro d page same
  rcases revalidatePage_cases untested d page with kept | ⟨m, _, _, judged⟩
  · rw [kept]
    exact same
  · rw [judged]
    exact (setSlot_ledger d page _).settings.trans same

variable [Scalar K]

theorem resolve_settings (c : Collection K) (untested : Bool) (pages : Value K) :
    (c.resolve untested pages).state.settings = c.settings := by
  by_cases accepted : ∃ n, Announces pages n
  · obtain ⟨n, announces⟩ := accepted
    have frame := each_checkPage_frame untested (c.announcing n).reopened
      (List.range (c.announcing n).reopened.pageCount)
    have checked := frame.1.settings.trans (reopened_settings (c.announcing n))
    rw [resolve_eq announces, Outcome.andThen]
    split
    · exact (settled_settings _ _).trans checked
    · exact checked
  · obtain ⟨fault, refused⟩ := resolve_of_rejected c (not_exists.mp accepted) untested
    rw [refused]
    rfl

theorem assign_thresholds (c : Collection K) {setting : Setting}
    (h : ∀ l, setting ≠ .limit l) (v : Value K) :
    (c.assign setting.name v).state.settings.thresholds = c.settings.thresholds := by
  cases setting with
  | minLines =>
      change (c.setMinLines v).state.settings.thresholds = _
      rw [setMinLines]
      split <;> rfl
  | pageCount =>
      rw [assign_pageCount, setPageCount]
      split <;> rfl
  | useBoth => rfl
  | checkColumns => rfl
  | cacheSize => rfl
  | limit l => exact absurd rfl (h l)

theorem run_thresholds (c : Collection K) {a : Call K}
    (update : ∀ entries, a ≠ .setThresholds entries) (limit : ∀ l v, a ≠ .assign (.limit l) v) :
    (c.run a).state.settings.thresholds = c.settings.thresholds := by
  cases a with
  | insert m => exact congrArg Settings.thresholds (insert_settings c m)
  | remove page =>
      obtain ⟨d, removed, ledger, _⟩ := remove_cases c page
      rw [run, Outcome.done_state, removed]
      exact congrArg Settings.thresholds ledger.settings
  | consult page =>
      rw [run, Outcome.done_state]
      rcases consult_cases c page with same | ⟨m, _, same⟩ <;> rw [same]
  | relist => rfl
  | revalidate untested => exact congrArg Settings.thresholds (revalidate_settings c untested)
  | strip => exact congrArg Settings.thresholds (dropRedirects_settings c)
  | restore => exact congrArg Settings.thresholds (restore_settings c)
  | resolve untested pages => exact congrArg Settings.thresholds (resolve_settings c untested pages)
  | setThresholds entries => exact absurd rfl (update entries)
  | assign setting v =>
      exact assign_thresholds c (fun l same => limit l v (by rw [same])) v

end Frames

variable {K : Type} [Scalar K]

/-- The overrides that a call brings into effect: none if it is refused. -/
def effect (c : Collection K) (a : Call K) : List (String × Value K) :=
  if (c.run a).fault = none then a.overrides else []

def accepted (c : Collection K) : List (Call K) → List (String × Value K)
  | [] => []
  | a :: rest => c.effect a ++ accepted (c.run a).state rest

def Updated (c d : Collection K) (entries : List (String × Value K)) : Prop :=
  Thresholds.Known entries ∧
    d.settings.thresholds.limit = Thresholds.merged c.settings.thresholds.limit entries

omit [Scalar K] in
theorem Updated.refl {c d : Collection K} (h : d.settings.thresholds = c.settings.thresholds) :
    Updated c d [] :=
  ⟨fun _ member => absurd member (List.not_mem_nil), by rw [h, Thresholds.merged_nil]⟩

theorem setThresholds_updated (c : Collection K) (entries : List (String × Value K)) :
    Updated c (c.setThresholds entries).state
      (if (c.setThresholds entries).fault = none then entries else []) := by
  obtain ⟨changed, kept⟩ := setThresholds_state c entries
  split
  · rename_i done
    obtain ⟨t, same, limit⟩ := changed done
    exact ⟨((setThresholds_fault_iff c entries).mp done).1, by rw [same]; exact limit⟩
  · rename_i stopped
    exact Updated.refl (congrArg (·.settings.thresholds) (kept stopped))

theorem run_updated (c : Collection K) (a : Call K) : Updated c (c.run a).state (c.effect a) := by
  by_cases update : ∃ entries, a = .setThresholds entries
  · obtain ⟨entries, rfl⟩ := update
    exact setThresholds_updated c entries
  by_cases limit : ∃ l v, a = .assign (.limit l) v
  · obtain ⟨l, v, rfl⟩ := limit
    rw [effect, run, assign_limit]
    exact setThresholds_updated c [(l.name, v)]
  · push Not at update limit
    have nothing : c.effect a = [] := by
      rw [effect, ite_eq_right_iff]
      intro _
      rw [Call.overrides]
      · exact update
      · exact limit
    rw [nothing]
    exact Updated.refl (run_thresholds c update limit)

theorem afterCalls_updated (c : Collection K) (calls : List (Call K)) :
    Updated c (c.afterCalls calls) (c.accepted calls) := by
  induction calls generalizing c with
  | nil => exact Updated.refl rfl
  | cons a rest ih =>
      obtain ⟨first, now⟩ := run_updated c a
      obtain ⟨others, later⟩ := ih (c.run a).state
      refine ⟨List.forall_mem_append.mpr ⟨first, others⟩, ?_⟩
      rw [accepted, Thresholds.merged_append _ others, ← now]
      exact later

/-- Updates of thresholds are judged by what they lead to. An update is taken over exactly if every
entry is a natural number under the name of a limit and the floor of the line spread then is not
above its ceiling; it then leaves the old limits with those entries put over them and changes
nothing else, and a refused one changes nothing at all. Both are the same in whatever order
different names are given. So after any calls, whether they are taken over or refused, the limits
are the first ones under the overrides of those that were taken over, and they are in order. -/
theorem thresholds_follow_updates (c : Collection K) :
    (∀ entries : List (String × Value K),
      ((c.setThresholds entries).fault = none ↔
        (∀ e ∈ entries, ∃ (l : Limit) (n : Nat), e = (l.name, .int n)) ∧
          Thresholds.merged c.settings.thresholds.limit entries .lineSpreadFloor ≤
            Thresholds.merged c.settings.thresholds.limit entries .lineSpread) ∧
      ((c.setThresholds entries).fault = none →
        ∃ t, (c.setThresholds entries).state = c.under t ∧
          t.limit = Thresholds.merged c.settings.thresholds.limit entries) ∧
      ((c.setThresholds entries).fault ≠ none → (c.setThresholds entries).state = c) ∧
      ∀ others, entries.Perm others → (entries.map (·.1)).Nodup →
        ((c.setThresholds others).fault = none ↔ (c.setThresholds entries).fault = none) ∧
        (c.setThresholds others).state = (c.setThresholds entries).state) ∧
    ∀ calls : List (Call K),
      (c.afterCalls calls).settings.thresholds.limit =
        Thresholds.merged c.settings.thresholds.limit (c.accepted calls) ∧
      (c.afterCalls calls).settings.thresholds.limit .lineSpreadFloor ≤
        (c.afterCalls calls).settings.thresholds.limit .lineSpread := by
  refine ⟨fun entries => ⟨setThresholds_fault_iff c entries, (setThresholds_state c entries).1,
    (setThresholds_state c entries).2, ?_⟩, fun calls => ⟨(afterCalls_updated c calls).2,
    (c.afterCalls calls).settings.thresholds.ordered⟩⟩
  intro others reordered distinct
  exact setThresholds_perm c reordered distinct

def raisedSpread : List (String × Value Rat) :=
  [("min_diff_linecurv", .int 200), ("max_diff_linecurv", .int 250)]

def raisingCalls : List (Call Rat) :=
  [.assign (.limit .lineSpreadFloor) (.int 200), .setThresholds raisedSpread,
    .assign (.limit .lineSpread) (.int 170), .assign (.limit .lineSpread) (.int 220)]

/-- Both can be raised in either order within one update, and the two calls that are refused leave
no trace. -/
theorem raised_follow_updates :
    (raisedSpread.map (·.1)).Nodup ∧ raisedSpread.Perm raisedSpread.reverse ∧
      (standardShelf.setThresholds raisedSpread).fault = none ∧
      (standardShelf.setThresholds raisedSpread.reverse).state =
        (standardShelf.setThresholds raisedSpread).state ∧
      standardShelf.accepted raisingCalls = raisedSpread ++ [("max_diff_linecurv", .int 220)] ∧
      ∀ l, (standardShelf.afterCalls raisingCalls).settings.thresholds.limit l =
        if l = .lineSpreadFloor then 200 else if l = .lineSpread then 220 else l.standard := by
  obtain ⟨update, history⟩ := thresholds_follow_updates standardShelf
  obtain ⟨decided, _, _, reordered⟩ := update raisedSpread
  have distinct : (raisedSpread.map (·.1)).Nodup := by decide
  have turned : raisedSpread.Perm raisedSpread.reverse := raisedSpread.reverse_perm.symm
  have raised : (standardShelf.setThresholds raisedSpread).fault = none := by
    refine decided.mpr ⟨?_, by decide⟩
    intro e member
    rcases List.mem_pair.mp member with rfl | rfl
    · exact ⟨.lineSpreadFloor, 200, rfl⟩
    · exact ⟨.lineSpread, 250, rfl⟩
  have taken : standardShelf.accepted raisingCalls =
      raisedSpread ++ [("max_diff_linecurv", .int 220)] := by rfl
  refine ⟨distinct, turned, raised, (reordered _ turned distinct).2, taken, ?_⟩
  intro l
  rw [(history raisingCalls).1, taken]
  cases l <;> rfl

end Collection

end PageFlattening
