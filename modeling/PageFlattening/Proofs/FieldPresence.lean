import PageFlattening.Proofs.Attributes
import PageFlattening.Proofs.Records

/-!
Which fields a page model holds, from wherever it comes and whatever is done to it. A direction has
a field exactly if its status says so; the field is of that direction and has the stride of the
model; the slope is judged nowhere, so that a verdict on it must have been stored; and a redirect
holds no field. All of this is about the attributes, where a status and a field may be anything: it
holds of what comes from an origin, one assignment after another keeps it, and the model is read off
at the end. Reading the fields of a record is itself a run of edits, so that a record that names a
direction twice needs no argument of its own.
-/
namespace PageFlattening

theorem Status.hasField_iff (s : Status) :
    s.hasField = true ↔ s = .built ∨ s = .invalid ∨ s = .valid := by
  cases s <;> decide

namespace Slot

variable {K : Type}

/-- The status tells of a field exactly if there is one. -/
def Agrees (s : Slot K) : Prop :=
  (s.status = .built ∨ s.status = .invalid ∨ s.status = .valid) ↔ ∃ f, s.field? = some f

theorem agrees_iff (s : Slot K) : s.Agrees ↔ s.status.hasField = s.field?.isSome := by
  rw [Agrees, ← Status.hasField_iff, ← Option.isSome_iff_exists, ← Bool.eq_iff_iff]

theorem judge_field? (ok : Bool) (s : Slot K) : (s.judge ok).field? = s.field? := by
  rw [judge]
  split <;> rfl

theorem Agrees.judge {s : Slot K} (h : s.Agrees) (ok : Bool) : (s.judge ok).Agrees := by
  rw [agrees_iff] at h ⊢
  rw [judge_field?, ← h, Slot.judge]
  split
  · rename_i told
    rw [told]
    cases ok <;> rfl
  · rfl

theorem agrees_of_check {page : Nat} {s : Slot K} (h : s.check page = .ok ()) : s.Agrees := by
  rw [check] at h
  split at h
  · cases h
  · rename_i same
    exact s.agrees_iff.mpr (not_not.mp same)

end Slot

theorem Track.status_iff_field? {K : Type} (t : Track K) :
    (t.status = .built ∨ t.status = .invalid ∨ t.status = .valid) ↔ ∃ f, t.field? = some f :=
  (Slot.agrees_iff t.slot).mpr (t.hasField_status.trans t.succeeded_eq_isSome)

namespace PageModel

variable {K : Type}

inductive Origin (K : Type) where
  | sheet (page width height stride reduction : Value K)
  | pointer (page target stride reduction : Value K)
  | record (v : Value K)

namespace Attributes

/-- Fields and statuses go together, and what is assigned can have come from there. -/
structure Matched (o : Origin K) (a : Attributes K) : Prop where
  held : ∀ d, (a.slot d).Agrees
  placed : ∀ d f, (a.slot d).field? = some f → f.direction = d ∧ (f.stride : Int) = a.stride
  slope : ∀ s, s = .invalid ∨ s = .valid → a.slope.status = s →
    ∃ v, o = .record v ∧ v.field "ystatus" = .ok (.text s.name)
  redirect : a.redirect.isSome = true → ∀ d, (a.slot d).field? = none

/-! Edits. -/

theorem setSlot_slot (a : Attributes K) (d other : Direction) (s : Slot K) :
    (a.setSlot d s).slot other = if other = d then s else a.slot other := by
  cases d <;> cases other <;> rfl

theorem setSlot_stride (a : Attributes K) (d : Direction) (s : Slot K) :
    (a.setSlot d s).stride = a.stride := by
  cases d <;> rfl

theorem setSlot_redirect (a : Attributes K) (d : Direction) (s : Slot K) :
    (a.setSlot d s).redirect = a.redirect := by
  cases d <;> rfl

/-- One assignment to a direction. Every edit comes down to a few of them. -/
theorem Matched.setSlot {o : Origin K} {a : Attributes K} (h : Matched o a) {d : Direction}
    {s : Slot K} (agrees : s.Agrees)
    (placed : ∀ f, s.field? = some f → f.direction = d ∧ (f.stride : Int) = a.stride)
    (unjudged : d = .slope → s.status ≠ .invalid ∧ s.status ≠ .valid)
    (empty : a.redirect.isSome = true → s.field? = none) : Matched o (a.setSlot d s) where
  held other := by
    rw [setSlot_slot]
    split
    · exact agrees
    · exact h.held other
  placed other f := by
    rw [setSlot_slot, setSlot_stride]
    split
    · rename_i same
      rw [same]
      exact placed f
    · exact h.placed other f
  slope status verdict same := by
    change ((a.setSlot d s).slot .slope).status = status at same
    rw [setSlot_slot] at same
    split at same
    · rename_i here
      obtain ⟨invalid, valid⟩ := unjudged here.symm
      rcases verdict with rfl | rfl
      · exact absurd same invalid
      · exact absurd same valid
    · exact h.slope status verdict same
  redirect pointing other := by
    rw [setSlot_redirect] at pointing
    rw [setSlot_slot]
    split
    · exact empty pointing
    · exact h.redirect pointing other

theorem Matched.setField {o : Origin K} {a : Attributes K} (h : Matched o a) (f : Field K) :
    Matched o (a.setField f).state := by
  rw [Attributes.setField]
  split
  · exact h
  split
  · exact h
  · rename_i built stride
    refine h.setSlot (by simp [Slot.Agrees]) ?_ (fun _ => by simp) fun pointing => ?_
    · rintro _ ⟨⟩
      exact ⟨rfl, not_not.mp stride⟩
    · exact absurd pointing built

theorem Matched.markFailed {o : Origin K} {a : Attributes K} (h : Matched o a)
    (directions : List Direction) : Matched o (a.markFailed directions) := by
  rw [Attributes.markFailed]
  generalize (if directions.isEmpty then Direction.all else directions) = chosen
  induction chosen generalizing a with
  | nil => exact h
  | cons d rest ih =>
      exact ih (h.setSlot (by simp [Slot.Agrees]) (by simp) (by simp) fun _ => rfl)

theorem Matched.judged {o : Origin K} {a : Attributes K} (h : Matched o a) {d : Direction}
    (other : d ≠ .slope) (ok : Bool) : Matched o (a.setSlot d ((a.slot d).judge ok)) := by
  refine h.setSlot ((h.held d).judge ok) ?_ (fun slope => absurd slope other) fun pointing => ?_
  · rw [Slot.judge_field?]
    exact h.placed d
  · rw [Slot.judge_field?]
    exact h.redirect pointing d

theorem Matched.setValidity {o : Origin K} {a : Attributes K} (h : Matched o a)
    (vertical horizontal : Bool) : Matched o (a.setValidity vertical horizontal).state := by
  rw [Attributes.setValidity]
  split
  · exact h
  split
  · exact h
  split
  · exact h
  · exact (h.judged (d := .vertical) (by decide) vertical).judged (d := .horizontal) (by decide)
      horizontal

theorem Matched.validate {o : Origin K} {a : Attributes K} (h : Matched o a) (t : Thresholds)
    (untested : Bool) : Matched o (a.validate t untested).state := by
  rw [Attributes.validate]
  split
  · exact h
  · exact h.setValidity _ _

theorem Matched.edited {o : Origin K} {a : Attributes K} (h : Matched o a) (e : Edit K) :
    Matched o (e.assign a).state := by
  cases e with
  | setField f => exact h.setField f
  | markFailed directions => exact h.markFailed directions
  | setValidity vertical horizontal => exact h.setValidity vertical horizontal
  | validate t untested => exact h.validate t untested

theorem Matched.afterEdits {o : Origin K} {a : Attributes K} (h : Matched o a)
    (edits : List (Edit K)) : Matched o (a.afterEdits edits) := by
  induction edits generalizing a with
  | nil => exact h
  | cons e rest ih => exact ih (h.edited e)

/-! Origins. -/

theorem matched_of_empty {o : Origin K} {a : Attributes K} (h : ∀ d, a.slot d = .empty) :
    Matched o a where
  held d := by simp [h, Slot.Agrees, Slot.empty]
  placed d f := by simp [h, Slot.empty]
  slope s verdict same := by
    have untouched : a.slope.status = .notAttempted := congrArg Slot.status (h .slope)
    rcases verdict with rfl | rfl <;> cases untouched.symm.trans same
  redirect _ d := by simp [h, Slot.empty]

section Sources

variable [Scalar K]

theorem make_slot {page width height stride reduction : Value K} {a : Attributes K}
    (h : make page width height stride reduction = .ok a) (d : Direction) : a.slot d = .empty := by
  rw [make_attributes] at h
  obtain ⟨m, made, rfl⟩ := exists_of_map_eq_ok h
  obtain ⟨_, _, _, _, _, rfl⟩ := make_eq_blank made
  cases d <;> rfl

theorem makeReference_slot {page target stride reduction : Value K} {a : Attributes K}
    (h : makeReference page target stride reduction = .ok a) (d : Direction) :
    a.slot d = .empty := by
  rw [makeReference_attributes] at h
  obtain ⟨m, made, rfl⟩ := exists_of_map_eq_ok h
  obtain ⟨_, _, _, _, rfl⟩ := makeReference_eq_reference made
  cases d <;> rfl

theorem Matched.attachFields {o : Origin K} {a base : Attributes K} (h : Matched o a)
    {stored : List (String × Value K)} (attached : a.attachFields stored = .ok base) :
    Matched o base := by
  induction stored generalizing a with
  | nil =>
      cases attached
      exact h
  | cons entry rest ih =>
      rw [Attributes.attachFields] at attached
      obtain ⟨f, _, attached⟩ := exists_of_bind_eq_ok attached
      obtain ⟨next, taken, attached⟩ := exists_of_bind_eq_ok attached
      have first := h.setField f
      rw [Outcome.result_eq_ok_iff.mp taken] at first
      exact ih first attached

theorem ofBuiltRecord_eq {v : Value K} {a : Attributes K} (h : ofBuiltRecord v = .ok a) :
    ∃ page width height stride reduction start stored base,
      make page width height stride reduction = .ok start ∧
      start.attachFields stored = .ok base ∧
      (∀ d, (a.slot d).Agrees ∧ (a.slot d).field? = (base.slot d).field?) ∧
      a.stride = base.stride ∧ a.redirect = base.redirect ∧
      v.field "ystatus" = .ok (.text a.slope.status.name) := by
  simp only [ofBuiltRecord] at h
  obtain ⟨page, _, h⟩ := exists_of_bind_eq_ok h
  obtain ⟨width, _, h⟩ := exists_of_bind_eq_ok h
  obtain ⟨height, _, h⟩ := exists_of_bind_eq_ok h
  obtain ⟨stride, _, h⟩ := exists_of_bind_eq_ok h
  obtain ⟨reduction, _, h⟩ := exists_of_bind_eq_ok h
  obtain ⟨start, made, h⟩ := exists_of_bind_eq_ok h
  obtain ⟨fields, _, h⟩ := exists_of_bind_eq_ok h
  cases fields with
  | table stored =>
      obtain ⟨base, attached, h⟩ := exists_of_bind_eq_ok h
      obtain ⟨_, _, h⟩ := exists_of_bind_eq_ok h
      obtain ⟨vstatus, _, h⟩ := exists_of_bind_eq_ok h
      obtain ⟨_, _, h⟩ := exists_of_bind_eq_ok h
      obtain ⟨hstatus, _, h⟩ := exists_of_bind_eq_ok h
      obtain ⟨_, found, h⟩ := exists_of_bind_eq_ok h
      obtain ⟨ystatus, read, h⟩ := exists_of_bind_eq_ok h
      obtain ⟨_, vertical, h⟩ := exists_of_bind_eq_ok h
      obtain ⟨_, horizontal, h⟩ := exists_of_bind_eq_ok h
      obtain ⟨_, slope, h⟩ := exists_of_bind_eq_ok h
      split at h
      · cases h
      · obtain ⟨_, _, h⟩ := exists_of_bind_eq_ok h
        obtain ⟨middles, _, h⟩ := exists_of_bind_eq_ok h
        obtain ⟨_, _, h⟩ := exists_of_bind_eq_ok h
        obtain ⟨curvatures, _, h⟩ := exists_of_bind_eq_ok h
        obtain ⟨statistics, _, h⟩ := exists_of_bind_eq_ok h
        cases h
        obtain rfl := Status.eq_text_of_ofValue read
        refine ⟨page, width, height, stride, reduction, start, stored, base, made, attached, ?_,
          rfl, rfl, found⟩
        rintro (_ | _ | _)
        · exact ⟨Slot.agrees_of_check vertical, rfl⟩
        · exact ⟨Slot.agrees_of_check horizontal, rfl⟩
        · exact ⟨Slot.agrees_of_check slope, rfl⟩
  | _ => cases h

theorem ofBuiltRecord_matched {v : Value K} {a : Attributes K} (h : ofBuiltRecord v = .ok a) :
    Matched (.record v) a := by
  obtain ⟨_, _, _, _, _, start, _, base, made, attached, kept, stride, pointing, stored⟩ :=
    ofBuiltRecord_eq h
  -- The fields are those of the run that attached them; of its statuses none is left.
  have before : Matched (.record v) base :=
    (matched_of_empty (make_slot made)).attachFields attached
  refine ⟨fun d => (kept d).1, fun d f => ?_, fun s _ same => ?_, fun reference d => ?_⟩
  · rw [(kept d).2, stride]
    exact before.placed d f
  · rw [same] at stored
    exact ⟨v, rfl, stored⟩
  · rw [pointing] at reference
    rw [(kept d).2]
    exact before.redirect reference d

end Sources

end Attributes

def Matched (o : Origin K) (m : PageModel K) : Prop := m.attributes.Matched o

theorem afterEdits_frame (m : PageModel K) (edits : List (Edit K)) :
    m.SameFrame (m.afterEdits edits) := by
  induction edits generalizing m with
  | nil => rfl
  | cons e rest ih => exact (run_frame m e).trans (ih _)

section Sources

variable [Scalar K]

def Origin.model : Origin K → Except Fault (PageModel K)
  | .sheet page width height stride reduction => make page width height stride reduction
  | .pointer page target stride reduction => makeReference page target stride reduction
  | .record v => ofRecord v

def Origin.attributes : Origin K → Except Fault (Attributes K)
  | .sheet page width height stride reduction => Attributes.make page width height stride reduction
  | .pointer page target stride reduction => Attributes.makeReference page target stride reduction
  | .record v => Attributes.ofRecord v

/-- The attributes are assigned exactly where there is a model, and are those of the model. -/
theorem Origin.attributes_eq (o : Origin K) :
    o.attributes = PageModel.attributes <$> o.model := by
  cases o with
  | sheet page width height stride reduction => exact make_attributes ..
  | pointer page target stride reduction => exact makeReference_attributes ..
  | record v => exact ofRecord_attributes v

theorem Origin.fresh {o : Origin K} {m : PageModel K} (h : o.model = .ok m) : Fresh m := by
  cases o with
  | sheet page width height stride reduction => exact .made h
  | pointer page target stride reduction => exact .pointing h
  | record v => exact .loaded h

theorem ofBuiltRecord_frame {v : Value K} {m : PageModel K} (h : ofBuiltRecord v = .ok m) :
    ∃ p w ht s r, (s = 0 → w = 0 ∧ ht = 0) ∧
      m = { (blank p w ht s r : PageModel K) with
        vertical := m.vertical, horizontal := m.horizontal, slope := m.slope,
        middles := m.middles, curvatures := m.curvatures, statistics := m.statistics } := by
  obtain ⟨_, _, _, _, _, start, _, base, made, attached, _, _, _, _, _, same⟩ := ofBuiltRecord_eq h
  obtain ⟨p, w, ht, s, r, _, _, _, _, sized, rfl⟩ := make_eq made
  obtain ⟨edits, rfl⟩ := attachFields_eq_afterEdits attached
  have frame := congrArg (fun other => { other with
    vertical := m.vertical, horizontal := m.horizontal, slope := m.slope,
    middles := m.middles, curvatures := m.curvatures, statistics := m.statistics })
    (afterEdits_frame (blank p.toNat w ht s r) edits)
  exact ⟨p.toNat, w, ht, s, r, sized, same.trans frame⟩

theorem ofBuiltRecord_isRedirect {v : Value K} {m : PageModel K} (h : ofBuiltRecord v = .ok m) :
    m.isRedirect = false := by
  obtain ⟨_, _, _, _, _, _, same⟩ := ofBuiltRecord_frame h
  rw [same]
  rfl

theorem Origin.attributes_matched {o : Origin K} {a : Attributes K} (h : o.attributes = .ok a) :
    a.Matched o := by
  cases o with
  | sheet page width height stride reduction =>
      exact Attributes.matched_of_empty (Attributes.make_slot h)
  | pointer page target stride reduction =>
      exact Attributes.matched_of_empty (Attributes.makeReference_slot h)
  | record v =>
      rw [attributes, Attributes.ofRecord] at h
      obtain ⟨target, _, h⟩ := exists_of_bind_eq_ok h
      obtain ⟨pointing, _, h⟩ := exists_of_bind_eq_ok h
      split at h
      · obtain ⟨page, _, h⟩ := exists_of_bind_eq_ok h
        obtain ⟨again, _, h⟩ := exists_of_bind_eq_ok h
        obtain ⟨stride, _, h⟩ := exists_of_bind_eq_ok h
        obtain ⟨reduction, _, h⟩ := exists_of_bind_eq_ok h
        exact Attributes.matched_of_empty (Attributes.makeReference_slot h)
      · exact Attributes.ofBuiltRecord_matched h

theorem Origin.matched {o : Origin K} {m : PageModel K} (h : o.model = .ok m) : Matched o m :=
  Origin.attributes_matched (by rw [attributes_eq, h]; rfl)

/-- Whatever is assigned at first and by any edits afterwards, refused or not: the statuses tell of
the fields that are there, each where it belongs, and all of it is what edits make of a model. -/
theorem fields_match_statuses {o : Origin K} {a : Attributes K} (made : o.attributes = .ok a)
    (edits : List (Edit K)) :
    Attributes.Matched o (a.afterEdits edits) ∧
      ∃ m : PageModel K, o.model = .ok m ∧
        (m.afterEdits edits).attributes = a.afterEdits edits := by
  refine ⟨(Origin.attributes_matched made).afterEdits edits, ?_⟩
  rw [Origin.attributes_eq] at made
  obtain ⟨m, isModel, rfl⟩ := exists_of_map_eq_ok made
  exact ⟨m, isModel, (afterEdits_attributes m edits).symm⟩

end Sources

def slopedSheet : PageModel Rat :=
  { bareSheet with slope := .held .accepted (stillField .slope) }

theorem ofRecord_slopedSheet : ofRecord slopedSheet.record = .ok slopedSheet := by
  have formed : slopedSheet.WellFormed := by
    intro d f held
    cases d <;> cases held
    exact ⟨rfl, rfl⟩
  exact ofRecord_record rfl formed (by decide) (by intro absent; cases absent)

/-- The stored verdict outlives a check and the failure of a field, and a redirect that is marked
as failed still takes no field. -/
theorem slopedSheet_match :
    ((Origin.record slopedSheet.record).attributes = .ok slopedSheet.attributes ∧
      Attributes.Matched (.record slopedSheet.record)
        (slopedSheet.attributes.afterEdits (checkedBoth ++ [.markFailed [.horizontal]])) ∧
      (slopedSheet.attributes.afterEdits
        (checkedBoth ++ [.markFailed [.horizontal]])).slope.status = .valid) ∧
    (Origin.pointer (.int 0) (.int 2) (.int 30) (.int 1)).attributes =
        .ok (reference 0 2 30 1 : PageModel Rat).attributes ∧
      (((reference 0 2 30 1 : PageModel Rat).attributes.markFailed []).setField
        (stillField .slope)).fault ≠ none ∧
      Attributes.Matched (.pointer (.int 0) (.int 2) (.int 30) (.int 1))
        ((reference 0 2 30 1 : PageModel Rat).attributes.afterEdits
          [.markFailed [], .setField (stillField .slope)]) := by
  have stored : (Origin.record slopedSheet.record).attributes = .ok slopedSheet.attributes := by
    rw [Origin.attributes_eq, Origin.model, ofRecord_slopedSheet]
    rfl
  have pointing : (Origin.pointer (.int 0) (.int 2) (.int 30) (.int 1)).attributes =
      .ok (reference 0 2 30 1 : PageModel Rat).attributes := rfl
  exact ⟨⟨stored, (fields_match_statuses stored _).1, by decide⟩, pointing, by decide,
    (fields_match_statuses pointing _).1⟩

end PageModel

end PageFlattening
