import PageFlattening.Proofs.FieldPresence
import PageFlattening.Proofs.Loosening

/-!
Checks one after the other. A check reads the fields and the statistics of a model, which no check
changes, and writes both verdicts; so of any number of checks only the last one counts, whatever the
earlier ones were. Where it writes nothing, for want of a vertical field, none of them has.
-/
namespace PageFlattening

namespace PageModel

variable {K : Type}

/-! One check after another. -/

theorem judged_of_skipped {m : PageModel K} (h : (m.isRedirect || !m.vertical.succeeded) = true)
    (t : Thresholds) (untested : Bool) : m.judged t untested = m := by
  rw [judged, if_pos h]

theorem validity_judged (m : PageModel K) (t : Thresholds) (untested : Bool) :
    (m.judged t untested).validity = m.verdicts t untested := by
  rw [judged, verdicts]
  split
  · rfl
  · rename_i checked
    have built : m.vertical.succeeded = true := by
      cases h : m.vertical.succeeded <;> simp_all
    simp only [validity, verticalValid, horizontalValid, Track.accepted_judge, built,
      Bool.true_and]
    cases m.horizontal.succeeded <;> simp

theorem verdicts_judged (m : PageModel K) (t t' : Thresholds) (untested untested' : Bool) :
    (m.judged t untested).verdicts t' untested' = m.verdicts t' untested' := by
  rw [← validity_judged, judged_judged, validity_judged]

structure Coherent (m : PageModel K) : Prop where
  held : ∀ d, ((m.track d).status = .built ∨ (m.track d).status = .invalid ∨
    (m.track d).status = .valid) ↔ ∃ f, (m.track d).field? = some f
  lawful : m.horizontal.status = .valid → m.vertical.status = .valid

theorem Coherent.judged {m : PageModel K} (h : m.Coherent) (t : Thresholds) (untested : Bool) :
    (m.judged t untested).Coherent where
  held d := Track.status_iff_field? _
  lawful := by
    have kept := (lawful_run_iff m (.validate t untested)).mpr
      ⟨fun spoils => spoils.2, .inl h.lawful⟩
    rwa [Edit.run, validate_eq, Outcome.done_state] at kept

theorem valid_of_milder {m : PageModel K} {tight loose : Thresholds} {untested untested' : Bool}
    (milder : Milder tight untested loose untested') (d : Direction)
    (valid : ((m.judged tight untested).track d).status = .valid) :
    ((m.judged loose untested').track d).status = .valid := by
  cases d with
  | vertical =>
      rw [← Track.accepted_eq_true_iff] at valid ⊢
      cases pointing : m.isRedirect with
      | true =>
          have skipped : (m.isRedirect || !m.vertical.succeeded) = true := by simp [pointing]
          rw [judged_of_skipped skipped] at valid ⊢
          exact valid
      | false =>
          have passes := (judged_verticalValid pointing tight untested).symm.trans valid
          exact (judged_verticalValid pointing loose untested').trans (milder.passes passes)
  | horizontal =>
      rw [← Track.accepted_eq_true_iff] at valid ⊢
      exact milder.horizontalValid valid
  | slope =>
      have same := (judged_sameSheet m tight untested).join (judged_sameSheet m loose untested')
      have slope : (m.judged loose untested').slope = (m.judged tight untested).slope :=
        congrArg (·.slope) same.rest
      exact (congrArg Track.status slope).trans valid

/-! Any number of checks. -/

def checkAll (m : PageModel K) (checks : List (Thresholds × Bool)) : Outcome (PageModel K) :=
  Outcome.each (fun model check => model.validate check.1 check.2) m checks

/-- The model after a run of checks is the model as it was, or as its last check alone leaves it. -/
theorem checkAll_eq (m : PageModel K) (checks : List (Thresholds × Bool)) :
    m.checkAll checks =
      .done ((checks.getLast?.map fun last => m.judged last.1 last.2).getD m) := by
  induction checks generalizing m with
  | nil => rfl
  | cons first rest ih =>
      rw [checkAll, Outcome.each_cons_of_done (validate_eq m first.1 first.2), ← checkAll, ih]
      cases rest with
      | nil => rfl
      | cons second others =>
          rw [List.getLast?_cons_cons]
          obtain ⟨last, found⟩ : ∃ last, (second :: others).getLast? = some last :=
            Option.isSome_iff_exists.mp (by simp)
          rw [found, Option.map_some, Option.getD_some, Option.map_some, Option.getD_some,
            judged_judged]

theorem checkAll_snoc (m : PageModel K) (before : List (Thresholds × Bool)) (t : Thresholds)
    (untested : Bool) :
    m.checkAll (before ++ [(t, untested)]) = .done (m.judged t untested) := by
  rw [checkAll_eq, List.getLast?_append]
  rfl

structure Kept (m : PageModel K) (o : Outcome (PageModel K)) : Prop where
  ends : o.fault = none
  sheet : SameSheet m o.state
  coherent : o.state.Coherent

theorem Coherent.kept {m : PageModel K} (h : m.Coherent) (checks : List (Thresholds × Bool)) :
    Kept m (m.checkAll checks) := by
  rw [checkAll_eq]
  cases checks.getLast? with
  | none => exact ⟨rfl, ⟨rfl, rfl, rfl⟩, h⟩
  | some last => exact ⟨rfl, judged_sameSheet m last.1 last.2, h.judged last.1 last.2⟩

/-- Checks forget: whatever checks have come before, a check neither stops nor leaves or answers
anything else than it would have by itself. No check on the way stops, touches a field, a statistic
or the slope, or breaks the statuses apart. A check changes nothing the second time, and what is
valid stays valid under a milder one. -/
theorem checks_forget {m : PageModel K} (coherent : m.Coherent)
    (before : List (Thresholds × Bool)) (t : Thresholds) (untested : Bool) :
    m.checkAll (before ++ [(t, untested)]) = m.validate t untested ∧
    (m.checkAll before).state.verdicts t untested = m.verdicts t untested ∧
    (m.validate t untested).state.validity = m.verdicts t untested ∧
    (∀ checks, checks <+: before ++ [(t, untested)] → Kept m (m.checkAll checks)) ∧
    (m.validate t untested).state.validate t untested = m.validate t untested ∧
    ∀ t' untested', Milder t untested t' untested' → ∀ d,
      ((m.validate t untested).state.track d).status = .valid →
        ((m.validate t' untested').state.track d).status = .valid := by
  simp only [validate_eq, Outcome.done_state, judged_judged]
  refine ⟨checkAll_snoc m before t untested, ?_, validity_judged m t untested,
    fun checks _ => coherent.kept checks, trivial, ?_⟩
  · rw [checkAll_eq, Outcome.done_state]
    cases before.getLast? with
    | none => rfl
    | some last => exact verdicts_judged m last.1 t last.2 untested
  · intro t' untested' milder d valid
    exact valid_of_milder milder d valid

def leaningSheet : PageModel Rat :=
  { bareSheet with
    vertical := .held .rejected (stillField .vertical)
    horizontal := .held .pending (stillField .horizontal)
    statistics := { LineStatistics.zero with maxCurvature := 100, leftSlope := 100 } }

theorem leaningSheet_forgets :
    leaningSheet.Coherent ∧
      leaningSheet.verdicts .standard true = (true, true) ∧
      leaningSheet.verdicts Collection.narrowThresholds false = (false, false) ∧
      leaningSheet.checkAll
          ([(.standard, true), (Collection.narrowThresholds, false)] ++ [(.standard, false)]) =
        leaningSheet.validate .standard false ∧
      (leaningSheet.checkAll
          [(.standard, true), (Collection.narrowThresholds, false)]).state.verdicts
            .standard false = (true, false) ∧
      Milder .standard false .standard true ∧
      ((leaningSheet.validate .standard true).state.track .vertical).status = .valid := by
  have coherent : leaningSheet.Coherent := ⟨fun d => Track.status_iff_field? _, by decide⟩
  have milder : Milder .standard false .standard true := .inl rfl
  obtain ⟨last, answer, _, _, _, keeps⟩ := checks_forget coherent
    [(.standard, true), (Collection.narrowThresholds, false)] .standard false
  have standing : leaningSheet.verdicts .standard false = (true, false) := by decide
  exact ⟨coherent, by decide, by decide, last, answer.trans standing, milder,
    keeps .standard true milder .vertical (by decide)⟩

end PageModel

end PageFlattening
