import PageFlattening.Model.Attributes
import PageFlattening.Proofs.ModelStatus

/-!
Tracks and attributes. Every model has attributes, each track giving one status and one field or
none. Whatever is done to a model is done to its attributes in step, with the same fault if there is
one, and a record is read to the attributes of the model that it is read to; so the tracks leave
nothing out that the attributes could come to.
-/
namespace PageFlattening

namespace Track

variable {K : Type}

def slot (t : Track K) : Slot K := ⟨t.status, t.field?⟩

theorem hasField_status (t : Track K) : t.status.hasField = t.succeeded := by
  match t with
  | .notAttempted => rfl
  | .failed => rfl
  | .held .pending _ => rfl
  | .held .rejected _ => rfl
  | .held .accepted _ => rfl

theorem slot_judge (ok : Bool) (t : Track K) : (t.judge ok).slot = t.slot.judge ok := by
  match t with
  | .notAttempted => rfl
  | .failed => rfl
  | .held .pending _ => cases ok <;> rfl
  | .held .rejected _ => cases ok <;> rfl
  | .held .accepted _ => cases ok <;> rfl

theorem isSome_ofStored? (status : Status) (field : Option (Field K)) :
    (ofStored? status field).isSome = (status.hasField == field.isSome) := by
  cases status <;> cases field <;> rfl

theorem slot_of_ofStored? {status : Status} {field : Option (Field K)} {t : Track K}
    (h : ofStored? status field = some t) : t.slot = ⟨status, field⟩ := by
  cases status <;> cases field <;> cases h <;> rfl

theorem accepted_eq_status (t : Track K) : t.accepted = (t.status == .valid) := by
  rw [Bool.eq_iff_iff, accepted_eq_true_iff, beq_iff_eq]

end Track

namespace PageModel

variable {K : Type}

def attributes (m : PageModel K) : Attributes K where
  page := m.page
  width := m.width
  height := m.height
  stride := m.stride
  reduction := m.reduction
  redirect := m.redirect
  vertical := m.vertical.slot
  horizontal := m.horizontal.slot
  slope := m.slope.slot
  middles := m.middles
  curvatures := m.curvatures
  statistics := m.statistics

theorem vertical_hasField (m : PageModel K) :
    m.attributes.vertical.status.hasField = m.vertical.succeeded :=
  m.vertical.hasField_status

theorem horizontal_hasField (m : PageModel K) :
    m.attributes.horizontal.status.hasField = m.horizontal.succeeded :=
  m.horizontal.hasField_status

/-! Edits. -/

namespace Edit

def assign (a : Attributes K) : Edit K → Outcome (Attributes K)
  | .setField f => a.setField f
  | .markFailed directions => .done (a.markFailed directions)
  | .setValidity vertical horizontal => a.setValidity vertical horizontal
  | .validate t untested => a.validate t untested

end Edit

def Attributes.afterEdits (a : Attributes K) (edits : List (Edit K)) : Attributes K :=
  edits.foldl (fun b e => (e.assign b).state) a

theorem setTrack_attributes (m : PageModel K) (d : Direction) (t : Track K) :
    (m.setTrack d t).attributes = m.attributes.setSlot d t.slot := by
  cases d <;> rfl

theorem setField_attributes (m : PageModel K) (f : Field K) :
    m.attributes.setField f = (m.setField f).map attributes := by
  rw [setField, Attributes.setField]
  change (if m.isRedirect then _ else _) = _
  split
  · rfl
  change (if (f.stride : Int) ≠ m.stride then _ else _) = _
  split
  · rfl
  · rw [Outcome.map, Outcome.done_state, setTrack_attributes]
    rfl

theorem markFailed_attributes (m : PageModel K) (directions : List Direction) :
    m.attributes.markFailed directions = (m.markFailed directions).attributes := by
  rw [markFailed, Attributes.markFailed]
  generalize (if directions.isEmpty then Direction.all else directions) = chosen
  induction chosen generalizing m with
  | nil => rfl
  | cons d rest ih =>
      rw [List.foldl_cons, List.foldl_cons, ← ih, setTrack_attributes]
      rfl

theorem setValidity_attributes (m : PageModel K) (vertical horizontal : Bool) :
    m.attributes.setValidity vertical horizontal =
      (m.setValidity vertical horizontal).map attributes := by
  rw [setValidity, Attributes.setValidity, vertical_hasField, horizontal_hasField]
  split
  · rfl
  split
  · rfl
  split
  · rfl
  · simp only [Outcome.map, Outcome.done, attributes, Track.slot_judge]

theorem validate_attributes (m : PageModel K) (t : Thresholds) (untested : Bool) :
    m.attributes.validate t untested = (m.validate t untested).map attributes := by
  rw [validate, Attributes.validate, vertical_hasField, horizontal_hasField]
  change (if m.isRedirect || !m.vertical.succeeded then _ else _) = _
  split
  · rfl
  · exact setValidity_attributes m _ _

/-- One edit: it leaves the attributes of what it leaves of the model, and stops with the same
fault. -/
theorem assign_attributes (m : PageModel K) (e : Edit K) :
    e.assign m.attributes = (e.run m).map attributes := by
  cases e with
  | setField f => exact setField_attributes m f
  | markFailed directions => exact congrArg Outcome.done (markFailed_attributes m directions)
  | setValidity vertical horizontal => exact setValidity_attributes m vertical horizontal
  | validate t untested => exact validate_attributes m t untested

theorem afterEdits_attributes (m : PageModel K) (edits : List (Edit K)) :
    m.attributes.afterEdits edits = (m.afterEdits edits).attributes := by
  induction edits generalizing m with
  | nil => rfl
  | cons e rest ih =>
      have first : (e.assign m.attributes).state = (e.run m).state.attributes :=
        congrArg Outcome.state (assign_attributes m e)
      rw [Attributes.afterEdits, List.foldl_cons, first]
      exact ih _

/-! Records. -/

/-- Where a stored track is found the check of the status passes, and where the check refuses there
is none: whatever reads no more of the track than its slot may go on after either. -/
theorem storedTrack_bind {α : Type} {page : Nat} {status : Status} {t : Track K}
    {next : Track K → Except Fault α} {other : Except Fault α}
    (same : ∀ stored : Track K, stored.slot = ⟨status, t.field?⟩ → next stored = other) :
    (storedTrack page status t >>= next) =
      ((⟨status, t.field?⟩ : Slot K).check page >>= fun _ => other) := by
  have together := Track.isSome_ofStored? status t.field?
  rw [storedTrack, Slot.check]
  cases taken : Track.ofStored? status t.field? with
  | none =>
      rw [taken] at together
      rw [if_pos (by simpa using together)]
      rfl
  | some stored =>
      rw [taken] at together
      rw [if_neg (by simpa using together)]
      exact same stored (Track.slot_of_ofStored? taken)

section Sources

variable [Scalar K]

theorem make_attributes (page width height stride reduction : Value K) :
    Attributes.make page width height stride reduction =
      attributes <$> make page width height stride reduction := by
  rw [make, Attributes.make]
  simp only [map_bind]
  refine bind_congr fun negative => ?_
  split
  · rfl
  simp only [map_bind]
  refine bind_congr fun p => bind_congr fun w => bind_congr fun h => bind_congr fun s =>
    bind_congr fun r => ?_
  split <;> rfl

theorem makeReference_attributes (page target stride reduction : Value K) :
    Attributes.makeReference page target stride reduction =
      attributes <$> makeReference page target stride reduction := by
  rw [makeReference, Attributes.makeReference]
  simp only [map_bind]
  refine bind_congr fun negative => ?_
  split
  · rfl
  simp only [map_bind, make_attributes, bind_map_left]
  exact bind_congr fun m => bind_congr fun t => rfl

theorem attachFields_attributes (m : PageModel K) (stored : List (String × Value K)) :
    m.attributes.attachFields stored = attributes <$> m.attachFields stored := by
  induction stored generalizing m with
  | nil => rfl
  | cons entry rest ih =>
      rw [attachFields, Attributes.attachFields, map_bind]
      refine bind_congr fun f => ?_
      rw [setField_attributes, Outcome.result_map, bind_map_left, map_bind]
      exact bind_congr fun next => ih next

theorem ofBuiltRecord_attributes (v : Value K) :
    Attributes.ofBuiltRecord v = attributes <$> ofBuiltRecord v := by
  rw [ofBuiltRecord, Attributes.ofBuiltRecord]
  simp only [map_bind, make_attributes, bind_map_left]
  refine bind_congr fun page => bind_congr fun width => bind_congr fun height =>
    bind_congr fun stride => bind_congr fun reduction => bind_congr fun start =>
    bind_congr fun fields => ?_
  cases fields with
  | table stored =>
      simp only [map_bind, attachFields_attributes, bind_map_left]
      refine bind_congr fun base => bind_congr fun x => bind_congr fun vstatus =>
        bind_congr fun y => bind_congr fun hstatus => bind_congr fun z =>
        bind_congr fun ystatus => ?_
      refine (storedTrack_bind fun vertical isVertical => ?_).symm
      refine storedTrack_bind fun horizontal isHorizontal => ?_
      refine storedTrack_bind fun slope isSlope => ?_
      obtain ⟨rfl, verticalField⟩ := Slot.mk.inj isVertical
      obtain ⟨rfl, horizontalField⟩ := Slot.mk.inj isHorizontal
      obtain ⟨rfl, slopeField⟩ := Slot.mk.inj isSlope
      rw [Track.accepted_eq_status, Track.accepted_eq_status]
      change _ =
        if (horizontal.status == .valid && !(vertical.status == .valid)) = true then _ else _
      split
      · rfl
      · simp only [map_bind]
        refine bind_congr fun midys => bind_congr fun middles => bind_congr fun bends =>
          bind_congr fun curvatures => bind_congr fun statistics => ?_
        simp only [map_pure, attributes, Track.slot, verticalField, horizontalField, slopeField]
  | _ => rfl

theorem ofRecord_attributes (v : Value K) :
    Attributes.ofRecord v = attributes <$> ofRecord v := by
  rw [ofRecord, Attributes.ofRecord]
  simp only [map_bind]
  refine bind_congr fun target => bind_congr fun reached => ?_
  split
  · simp only [map_bind, makeReference_attributes]
  · exact ofBuiltRecord_attributes v

end Sources

end PageModel

end PageFlattening
