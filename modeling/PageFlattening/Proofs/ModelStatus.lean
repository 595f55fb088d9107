import Mathlib.Tactic.Common
import PageFlattening.Model.Record
import PageFlattening.Model.Validity
import PageFlattening.Proofs.Outcome

/-! The statuses of a page model over its whole life. A check never stops and changes nothing but
the two verdicts. That the horizontal field is valid only together with the vertical one holds when
a model is made or read back; the main statement says along which later edits it goes on holding. -/
namespace PageFlattening

theorem Track.accepted_eq_true_iff {K : Type} (t : Track K) :
    t.accepted = true ↔ t.status = .valid := by
  match t with
  | .notAttempted => simp [accepted, status]
  | .failed => simp [accepted, status]
  | .held .pending _ => simp [accepted, status]
  | .held .rejected _ => simp [accepted, status]
  | .held .accepted _ => simp [accepted, status]

@[simp] theorem Track.status_failed {K : Type} : (Track.failed : Track K).status = .failed := rfl

@[simp] theorem Track.status_pending {K : Type} (f : Field K) :
    (Track.held .pending f).status = .built := rfl

theorem Track.succeeded_eq_isSome {K : Type} (t : Track K) : t.succeeded = t.field?.isSome := by
  cases t <;> rfl

theorem Track.accepted_judge {K : Type} (ok : Bool) (t : Track K) :
    (t.judge ok).accepted = (t.succeeded && ok) := by
  cases t with
  | notAttempted => rfl
  | failed => rfl
  | held verdict f => cases ok <;> rfl

theorem Status.eq_text_of_ofValue {K : Type} [Scalar K] {v : Value K} {s : Status}
    (h : ofValue v = .ok s) : v = .text s.name := by
  cases v with
  | text name =>
      rw [ofValue] at h
      split at h
      · rename_i found
        cases h
        have same := List.find?_some found
        rw [beq_iff_eq] at same
        rw [same]
      · cases h
  | _ => cases h

theorem Track.status_of_ofStored? {K : Type} {status : Status} {field : Option (Field K)}
    {t : Track K} (h : ofStored? status field = some t) : t.status = status := by
  cases status <;> cases field <;> cases h <;> rfl

namespace PageModel

variable {K : Type}

theorem storedTrack_status {page : Nat} {status : Status} {t stored : Track K}
    (h : storedTrack page status t = .ok stored) : stored.status = status := by
  rw [storedTrack] at h
  split at h
  · rename_i found
    cases h
    exact Track.status_of_ofStored? found
  · cases h

/-! A check. -/

def passes (m : PageModel K) (t : Thresholds) (untested : Bool) : Bool :=
  m.vertical.field?.isSome && (untested || t.acceptsLines m.statistics)

/-- What a check leaves behind: nothing new without a vertical field or on a redirect, otherwise a
verdict on each field. -/
def judged (m : PageModel K) (t : Thresholds) (untested : Bool) : PageModel K :=
  if m.isRedirect || !m.vertical.succeeded then m
  else
    let vertical := untested || t.acceptsLines m.statistics
    { m with
      vertical := m.vertical.judge vertical
      horizontal := m.horizontal.judge
        (m.horizontal.succeeded && vertical && (untested || t.acceptsEdges m.statistics)) }

/-- A check never stops: the verdicts that it asks for are always representable. -/
theorem validate_eq (m : PageModel K) (t : Thresholds) (untested : Bool) :
    m.validate t untested = .done (m.judged t untested) := by
  rw [validate, judged]
  split
  · rfl
  · rename_i there
    have built : m.vertical.succeeded = true := by
      cases h : m.vertical.succeeded <;> simp_all
    rw [setValidity]
    cases untested || t.acceptsLines m.statistics <;> cases m.horizontal.succeeded <;>
      simp [built]

theorem judged_verticalValid {m : PageModel K} (h : m.isRedirect = false) (t : Thresholds)
    (untested : Bool) : (m.judged t untested).verticalValid = m.passes t untested := by
  rw [judged, passes, ← Track.succeeded_eq_isSome]
  cases built : m.vertical.succeeded with
  | false =>
      cases track : m.vertical <;> simp_all [verticalValid, Track.accepted, Track.succeeded]
  | true => simp [h, verticalValid, Track.accepted_judge, built]

/-- The same model apart from what the checks have said of its fields. -/
structure SameSheet (m other : PageModel K) : Prop where
  rest : { other with vertical := m.vertical, horizontal := m.horizontal } = m
  vertical : other.vertical.field? = m.vertical.field?
  horizontal : other.horizontal.field? = m.horizontal.field?

theorem judged_sameSheet (m : PageModel K) (t : Thresholds) (untested : Bool) :
    SameSheet m (m.judged t untested) := by
  rw [judged]
  split
  · exact ⟨rfl, rfl, rfl⟩
  · refine ⟨rfl, ?_, ?_⟩
    · cases m.vertical <;> rfl
    · cases m.horizontal <;> rfl

@[simp] theorem judged_page (m : PageModel K) (t : Thresholds) (untested : Bool) :
    (m.judged t untested).page = m.page := by
  rw [judged]; split <;> rfl

@[simp] theorem judged_stride (m : PageModel K) (t : Thresholds) (untested : Bool) :
    (m.judged t untested).stride = m.stride := by
  rw [judged]; split <;> rfl

@[simp] theorem judged_reduction (m : PageModel K) (t : Thresholds) (untested : Bool) :
    (m.judged t untested).reduction = m.reduction := by
  rw [judged]; split <;> rfl

@[simp] theorem judged_isRedirect (m : PageModel K) (t : Thresholds) (untested : Bool) :
    (m.judged t untested).isRedirect = m.isRedirect := by
  rw [judged]; split <;> rfl

@[simp] theorem judged_attached (m : PageModel K) (t : Thresholds) (untested : Bool) :
    (m.judged t untested).attached = m.attached := by
  rw [judged]; split <;> rfl

/-! The life of a model. -/

inductive Edit (K : Type) where
  | setField (f : Field K)
  | markFailed (directions : List Direction)
  | setValidity (vertical horizontal : Bool)
  | validate (t : Thresholds) (untested : Bool)

def Edit.run (m : PageModel K) : Edit K → Outcome (PageModel K)
  | .setField f => m.setField f
  | .markFailed directions => .done (m.markFailed directions)
  | .setValidity vertical horizontal => m.setValidity vertical horizontal
  | .validate t untested => m.validate t untested

def afterEdits (m : PageModel K) (edits : List (Edit K)) : PageModel K :=
  edits.foldl (fun model e => (e.run model).state) m

@[simp] theorem afterEdits_nil (m : PageModel K) : m.afterEdits [] = m := rfl

def Lawful (m : PageModel K) : Prop :=
  m.horizontal.status = .valid → m.vertical.status = .valid

instance (m : PageModel K) : Decidable m.Lawful :=
  inferInstanceAs (Decidable (_ → _))

theorem lawful_iff (m : PageModel K) :
    m.Lawful ↔ (m.horizontal.accepted = true → m.vertical.accepted = true) := by
  rw [Lawful, Track.accepted_eq_true_iff, Track.accepted_eq_true_iff]

def Takes (m : PageModel K) (f : Field K) : Prop :=
  m.isRedirect = false ∧ (f.stride : Int) = m.stride

/-- An edit that takes the vertical verdict back while the horizontal field stays valid: a new
vertical field, or the failure of the vertical field without that of the horizontal one. -/
def Spoils (m : PageModel K) (e : Edit K) : Prop :=
  m.horizontal.status = .valid ∧
    match e with
    | .setField f => f.direction = .vertical ∧ m.Takes f
    | .markFailed directions => .vertical ∈ directions ∧ .horizontal ∉ directions
    | .setValidity _ _ => False
    | .validate _ _ => False

/-- An edit after which the horizontal field cannot be valid by itself: it is replaced, it fails, or
both fields are judged together. -/
def Settles (m : PageModel K) (e : Edit K) : Prop :=
  match e with
  | .setField f => f.direction = .horizontal ∧ m.Takes f
  | .markFailed directions => directions = [] ∨ .horizontal ∈ directions
  | .setValidity vertical horizontal => (m.setValidity vertical horizontal).fault = none
  | .validate _ _ => m.isRedirect = false ∧ m.vertical.field?.isSome

theorem setTrack_track (m : PageModel K) (d other : Direction) (t : Track K) :
    (m.setTrack d t).track other = if other = d then t else m.track other := by
  cases d <;> cases other <;> rfl

theorem markFailed_track (m : PageModel K) (directions : List Direction) (d : Direction) :
    (m.markFailed directions).track d =
      if directions = [] ∨ d ∈ directions then .failed else m.track d := by
  have fold : ∀ (ds : List Direction) (start : PageModel K),
      (ds.foldl (fun model d => model.setTrack d .failed) start).track d =
        if d ∈ ds then .failed else start.track d := by
    intro ds
    induction ds with
    | nil => intro start; simp
    | cons first rest ih =>
        intro start
        rw [List.foldl_cons, ih, setTrack_track]
        by_cases here : d = first <;> by_cases later : d ∈ rest <;> simp [here, later]
  rw [markFailed, fold]
  cases directions with
  | nil => cases d <;> simp [Direction.all]
  | cons first rest => simp

theorem markFailed_vertical (m : PageModel K) (directions : List Direction) :
    (m.markFailed directions).vertical =
      if directions = [] ∨ .vertical ∈ directions then .failed else m.vertical :=
  markFailed_track m directions .vertical

theorem markFailed_horizontal (m : PageModel K) (directions : List Direction) :
    (m.markFailed directions).horizontal =
      if directions = [] ∨ .horizontal ∈ directions then .failed else m.horizontal :=
  markFailed_track m directions .horizontal

theorem setField_state (m : PageModel K) (f : Field K) [Decidable (m.Takes f)] :
    (m.setField f).state =
      if m.Takes f then m.setTrack f.direction (.held .pending f) else m := by
  rw [setField]
  by_cases redirect : m.isRedirect = true
  · have refused : ¬ m.Takes f := fun h => by simp [h.1] at redirect
    simp [redirect, refused]
  · by_cases stride : (f.stride : Int) = m.stride
    · have taken : m.Takes f := ⟨by simpa using redirect, stride⟩
      simp [redirect, stride, taken]
    · have refused : ¬ m.Takes f := fun h => stride h.2
      simp [redirect, stride, refused]

theorem setValidity_cases (m : PageModel K) (vertical horizontal : Bool) :
    ((m.setValidity vertical horizontal).fault ≠ none ∧
      (m.setValidity vertical horizontal).state = m) ∨
    ((vertical = true → m.vertical.succeeded = true) ∧ (horizontal = true → vertical = true) ∧
      m.setValidity vertical horizontal = .done { m with
        vertical := m.vertical.judge vertical
        horizontal := m.horizontal.judge horizontal }) := by
  rw [setValidity]
  split
  · exact Or.inl ⟨by simp, rfl⟩
  split
  · exact Or.inl ⟨by simp, rfl⟩
  split
  · exact Or.inl ⟨by simp, rfl⟩
  · rename_i built _ together
    refine Or.inr ⟨?_, ?_, rfl⟩
    · rintro rfl
      simpa using built
    · rintro rfl
      simpa using together

/-- All that an edit can do to a direction: leave it, judge it unless it is the slope, fail it, or
replace it by a field that the model takes. -/
theorem run_track (m : PageModel K) (e : Edit K) (d : Direction) :
    (e.run m).state.track d = m.track d ∨
    (d ≠ .slope ∧ ∃ ok, (e.run m).state.track d = (m.track d).judge ok) ∨
    (e.run m).state.track d = .failed ∨
    ∃ f, m.Takes f ∧ f.direction = d ∧ (e.run m).state.track d = .held .pending f := by
  classical
  cases e with
  | setField f =>
      rw [Edit.run, setField_state]
      split
      · rename_i taken
        rw [setTrack_track]
        split
        · rename_i here
          exact Or.inr (Or.inr (Or.inr ⟨f, taken, here.symm, rfl⟩))
        · exact Or.inl rfl
      · exact Or.inl rfl
  | markFailed directions =>
      rw [Edit.run, Outcome.done_state, markFailed_track]
      split
      · exact Or.inr (Or.inr (Or.inl rfl))
      · exact Or.inl rfl
  | setValidity vertical horizontal =>
      rw [Edit.run]
      rcases setValidity_cases m vertical horizontal with ⟨_, same⟩ | ⟨_, _, same⟩
      · rw [same]
        exact Or.inl rfl
      · rw [same]
        cases d with
        | vertical => exact Or.inr (Or.inl ⟨by decide, vertical, rfl⟩)
        | horizontal => exact Or.inr (Or.inl ⟨by decide, horizontal, rfl⟩)
        | slope => exact Or.inl rfl
  | validate t untested =>
      rw [Edit.run, validate_eq, Outcome.done_state, judged]
      split
      · exact Or.inl rfl
      · cases d with
        | vertical => exact Or.inr (Or.inl ⟨by decide, _, rfl⟩)
        | horizontal => exact Or.inr (Or.inl ⟨by decide, _, rfl⟩)
        | slope => exact Or.inl rfl

def SameFrame (m other : PageModel K) : Prop :=
  { other with vertical := m.vertical, horizontal := m.horizontal, slope := m.slope } = m

theorem setTrack_frame (m : PageModel K) (d : Direction) (t : Track K) :
    m.SameFrame (m.setTrack d t) := by
  cases d <;> rfl

theorem SameFrame.trans {a b c : PageModel K} (h : a.SameFrame b) (g : b.SameFrame c) :
    a.SameFrame c := by
  have wider := congrArg (fun m => { m with
    vertical := a.vertical, horizontal := a.horizontal, slope := a.slope }) g
  exact wider.trans h

theorem markFailed_frame (m : PageModel K) (directions : List Direction) :
    m.SameFrame (m.markFailed directions) := by
  rw [markFailed]
  generalize (if directions.isEmpty then Direction.all else directions) = chosen
  induction chosen generalizing m with
  | nil => rfl
  | cons d rest ih => exact (setTrack_frame m d .failed).trans (ih _)

theorem run_frame (m : PageModel K) (e : Edit K) : m.SameFrame (e.run m).state := by
  classical
  cases e with
  | setField f =>
      rw [Edit.run, setField_state]
      split
      · exact setTrack_frame m f.direction _
      · rfl
  | markFailed directions => exact markFailed_frame m directions
  | setValidity vertical horizontal =>
      rw [Edit.run]
      rcases setValidity_cases m vertical horizontal with ⟨_, same⟩ | ⟨_, _, same⟩
      · rw [same]
        rfl
      · rw [same]
        rfl
  | validate t untested =>
      rw [Edit.run, validate_eq, Outcome.done_state, judged]
      split <;> rfl

/-- One edit: the law holds afterwards unless the edit spoils it, or it was broken before and the
edit does not settle it. -/
theorem lawful_run_iff (m : PageModel K) (e : Edit K) :
    (e.run m).state.Lawful ↔ ¬ m.Spoils e ∧ (m.Lawful ∨ m.Settles e) := by
  classical
  cases e with
  | setField f =>
      simp only [Edit.run, setField_state, Spoils, Settles]
      by_cases taken : m.Takes f
      · cases direction : f.direction <;>
          by_cases valid : m.horizontal.status = .valid <;> simp [taken, setTrack, Lawful, valid]
      · simp [taken]
  | markFailed directions =>
      simp only [Edit.run, Outcome.done_state, Spoils, Settles, Lawful, markFailed_vertical,
        markFailed_horizontal]
      by_cases all : directions = []
      · simp [all]
      · by_cases h : Direction.horizontal ∈ directions <;>
          by_cases v : Direction.vertical ∈ directions <;>
          by_cases valid : m.horizontal.status = .valid <;> simp [all, h, v, valid]
  | setValidity vertical horizontal =>
      simp only [Edit.run, Spoils, Settles]
      rcases setValidity_cases m vertical horizontal with
        ⟨refused, same⟩ | ⟨built, together, recorded⟩
      · simp [refused, same]
      · simp only [recorded, Outcome.done_state, Outcome.done_fault, lawful_iff,
          Track.accepted_judge]
        simp only [and_false, not_false_eq_true, or_true, and_true, iff_true, Bool.and_eq_true]
        rintro ⟨_, valid⟩
        exact ⟨built (together valid), together valid⟩
  | validate t untested =>
      simp only [Edit.run, validate_eq, Outcome.done_state, Spoils, Settles, judged,
        ← Track.succeeded_eq_isSome]
      split
      · rename_i passed
        have unsettled : ¬ (m.isRedirect = false ∧ m.vertical.succeeded = true) := by
          rintro ⟨built, field⟩
          simp [built, field] at passed
        simp [unsettled]
      · rename_i checked
        have settled : m.isRedirect = false ∧ m.vertical.succeeded = true := by
          simpa using checked
        simp only [lawful_iff, Track.accepted_judge, settled, Bool.and_eq_true]
        simp only [and_false, not_false_eq_true, and_self, or_true, iff_true, true_and]
        rintro ⟨_, ⟨_, accepted⟩, _⟩
        exact accepted

theorem lawful_afterEdits_iff_of_lawful {m : PageModel K} (h : m.Lawful) (edits : List (Edit K)) :
    (m.afterEdits edits).Lawful ↔
      ∀ before e rest, edits = before ++ e :: rest → (m.afterEdits before).Spoils e →
        ∃ mid f tail, rest = mid ++ f :: tail ∧ (m.afterEdits (before ++ e :: mid)).Settles f :=
  foldl_iff_settled (I := fun _ => True) trivial h (fun _ _ _ _ => trivial)
    fun model e _ _ => lawful_run_iff model e

theorem lawful_of_horizontal {m : PageModel K} (h : m.horizontal = .notAttempted) : m.Lawful := by
  simp [Lawful, h, Track.status]

/-! Where a model comes from. -/

section Sources

variable [Scalar K]

theorem make_eq {page width height stride reduction : Value K} {m : PageModel K}
    (h : make page width height stride reduction = .ok m) :
    ∃ p w ht s r, page.lessThan 0 = .ok false ∧ page.toInt = .ok p ∧ width.toInt = .ok w ∧
      height.toInt = .ok ht ∧ (s = 0 → w = 0 ∧ ht = 0) ∧ m = blank p.toNat w ht s r := by
  rw [make] at h
  obtain ⟨negative, compared, h⟩ := exists_of_bind_eq_ok h
  split at h
  · cases h
  rename_i reached
  obtain ⟨p, isPage, h⟩ := exists_of_bind_eq_ok h
  obtain ⟨w, isWidth, h⟩ := exists_of_bind_eq_ok h
  obtain ⟨ht, isHeight, h⟩ := exists_of_bind_eq_ok h
  obtain ⟨s, _, h⟩ := exists_of_bind_eq_ok h
  obtain ⟨r, _, h⟩ := exists_of_bind_eq_ok h
  split at h
  · cases h
  · rename_i sized
    cases h
    rw [Bool.eq_false_iff.mpr reached] at compared
    exact ⟨p, w, ht, s, r, compared, isPage, isWidth, isHeight, by omega, rfl⟩

theorem make_eq_blank {page width height stride reduction : Value K} {m : PageModel K}
    (h : make page width height stride reduction = .ok m) :
    ∃ p w h s r, m = blank p w h s r := by
  obtain ⟨p, w, ht, s, r, _, _, _, _, _, same⟩ := make_eq h
  exact ⟨p.toNat, w, ht, s, r, same⟩

theorem makeReference_eq {page target stride reduction : Value K} {m : PageModel K}
    (h : makeReference page target stride reduction = .ok m) :
    ∃ p t s r, page.lessThan 0 = .ok false ∧ target.lessThan 0 = .ok false ∧
      target.sameNumber page = false ∧ page.toInt = .ok p ∧ target.toInt = .ok t ∧
      m = reference p.toNat t.toNat s r := by
  rw [makeReference] at h
  obtain ⟨negative, compared, h⟩ := exists_of_bind_eq_ok h
  split at h
  · cases h
  · rename_i apart
    simp only [Bool.or_eq_true, not_or, Bool.not_eq_true] at apart
    rw [apart.1] at compared
    obtain ⟨start, made, h⟩ := exists_of_bind_eq_ok h
    obtain ⟨t, isTarget, h⟩ := exists_of_bind_eq_ok h
    obtain ⟨p, w, ht, s, r, reached, isPage, isWidth, isHeight, _, rfl⟩ := make_eq made
    cases isWidth
    cases isHeight
    cases h
    exact ⟨p, t, s, r, reached, compared, apart.2, isPage, isTarget, rfl⟩

theorem makeReference_eq_reference {page target stride reduction : Value K} {m : PageModel K}
    (h : makeReference page target stride reduction = .ok m) :
    ∃ p t s r, m = reference p t s r := by
  obtain ⟨p, t, s, r, _, _, _, _, _, same⟩ := makeReference_eq h
  exact ⟨p.toNat, t.toNat, s, r, same⟩

theorem makeReference_horizontal {page target stride reduction : Value K} {m : PageModel K}
    (h : makeReference page target stride reduction = .ok m) : m.horizontal = .notAttempted := by
  obtain ⟨_, _, _, _, rfl⟩ := makeReference_eq_reference h
  rfl

theorem ofBuiltRecord_eq {v : Value K} {m : PageModel K} (h : ofBuiltRecord v = .ok m) :
    ∃ page width height stride reduction start stored base,
      make page width height stride reduction = .ok start ∧
      start.attachFields stored = .ok base ∧
      storedTrack base.page m.vertical.status base.vertical = .ok m.vertical ∧
      storedTrack base.page m.horizontal.status base.horizontal = .ok m.horizontal ∧
      storedTrack base.page m.slope.status base.slope = .ok m.slope ∧
      v.field "ystatus" = .ok (.text m.slope.status.name) ∧
      (m.horizontal.accepted && !m.vertical.accepted) = false ∧
      m = { base with
        vertical := m.vertical, horizontal := m.horizontal, slope := m.slope,
        middles := m.middles, curvatures := m.curvatures, statistics := m.statistics } := by
  simp only [ofBuiltRecord] at h
  obtain ⟨page, _, h⟩ := exists_of_bind_eq_ok h
  obtain ⟨width, _, h⟩ := exists_of_bind_eq_ok h
  obtain ⟨height, _, h⟩ := exists_of_bind_eq_ok h
  obtain ⟨stride, _, h⟩ := exists_of_bind_eq_ok h
  obtain ⟨reduction, _, h⟩ := exists_of_bind_eq_ok h
  obtain ⟨start, made, h⟩ := exists_of_bind_eq_ok h
  obtain ⟨fields, _, h⟩ := exists_of_bind_eq_ok h
  split at h
  · obtain ⟨base, attached, h⟩ := exists_of_bind_eq_ok h
    obtain ⟨_, _, h⟩ := exists_of_bind_eq_ok h
    obtain ⟨vstatus, _, h⟩ := exists_of_bind_eq_ok h
    obtain ⟨_, _, h⟩ := exists_of_bind_eq_ok h
    obtain ⟨hstatus, _, h⟩ := exists_of_bind_eq_ok h
    obtain ⟨named, found, h⟩ := exists_of_bind_eq_ok h
    obtain ⟨ystatus, read, h⟩ := exists_of_bind_eq_ok h
    obtain ⟨vertical, isVertical, h⟩ := exists_of_bind_eq_ok h
    obtain ⟨horizontal, isHorizontal, h⟩ := exists_of_bind_eq_ok h
    obtain ⟨slope, isSlope, h⟩ := exists_of_bind_eq_ok h
    split at h
    · cases h
    · rename_i together
      obtain ⟨_, _, h⟩ := exists_of_bind_eq_ok h
      obtain ⟨middles, _, h⟩ := exists_of_bind_eq_ok h
      obtain ⟨_, _, h⟩ := exists_of_bind_eq_ok h
      obtain ⟨curvatures, _, h⟩ := exists_of_bind_eq_ok h
      obtain ⟨statistics, _, h⟩ := exists_of_bind_eq_ok h
      cases h
      obtain rfl := storedTrack_status isVertical
      obtain rfl := storedTrack_status isHorizontal
      obtain rfl := storedTrack_status isSlope
      obtain rfl := Status.eq_text_of_ofValue read
      exact ⟨page, width, height, stride, reduction, start, _, base, made, attached, isVertical,
        isHorizontal, isSlope, found, Bool.eq_false_iff.mpr together, rfl⟩
  · cases h

theorem ofRecord_eq {v : Value K} {m : PageModel K} (h : ofRecord v = .ok m) :
    ofBuiltRecord v = .ok m ∨
      ∃ page target stride reduction, v.field "pageno" = .ok page ∧
        v.field "refpage" = .ok target ∧
        makeReference page target stride reduction = .ok m := by
  rw [ofRecord] at h
  obtain ⟨target, named, h⟩ := exists_of_bind_eq_ok h
  obtain ⟨reached, _, h⟩ := exists_of_bind_eq_ok h
  split at h
  · obtain ⟨page, numbered, h⟩ := exists_of_bind_eq_ok h
    obtain ⟨again, renamed, h⟩ := exists_of_bind_eq_ok h
    cases named.symm.trans renamed
    obtain ⟨stride, _, h⟩ := exists_of_bind_eq_ok h
    obtain ⟨reduction, _, h⟩ := exists_of_bind_eq_ok h
    exact .inr ⟨page, target, stride, reduction, numbered, named, h⟩
  · exact .inl h

theorem ofBuiltRecord_lawful {v : Value K} {m : PageModel K} (h : ofBuiltRecord v = .ok m) :
    m.Lawful := by
  obtain ⟨_, _, _, _, _, _, _, _, _, _, _, _, _, _, together, _⟩ := ofBuiltRecord_eq h
  rw [lawful_iff]
  simpa using together

inductive Fresh : PageModel K → Prop
  | made {page width height stride reduction : Value K} {m : PageModel K}
      (h : make page width height stride reduction = .ok m) : Fresh m
  | pointing {page target stride reduction : Value K} {m : PageModel K}
      (h : makeReference page target stride reduction = .ok m) : Fresh m
  | loaded {v : Value K} {m : PageModel K} (h : ofRecord v = .ok m) : Fresh m

theorem Fresh.lawful {m : PageModel K} (h : Fresh m) : m.Lawful := by
  cases h with
  | made h =>
      obtain ⟨p, w, ht, s, r, rfl⟩ := make_eq_blank h
      exact lawful_of_horizontal rfl
  | pointing h => exact lawful_of_horizontal (makeReference_horizontal h)
  | loaded h =>
      rcases ofRecord_eq h with built | ⟨_, _, _, _, _, _, pointing⟩
      · exact ofBuiltRecord_lawful built
      · exact lawful_of_horizontal (makeReference_horizontal pointing)

/-- A model that has been made or read back keeps the horizontal field valid only together with the
vertical one exactly as long as every edit that spoils this is followed by one that settles it. -/
theorem lawful_afterEdits_iff {m : PageModel K} (fresh : Fresh m) (edits : List (Edit K)) :
    ((m.afterEdits edits).horizontal.status = .valid →
      (m.afterEdits edits).vertical.status = .valid) ↔
      ∀ before e rest, edits = before ++ e :: rest → (m.afterEdits before).Spoils e →
        ∃ mid f tail, rest = mid ++ f :: tail ∧ (m.afterEdits (before ++ e :: mid)).Settles f :=
  lawful_afterEdits_iff_of_lawful fresh.lawful edits

end Sources

def stillField (direction : Direction) : Field Rat where
  direction
  samples := Grid.replicate 1 1 0
  stride := 30
  rows_pos := by decide
  columns_pos := by decide
  stride_pos := by decide

def bareSheet : PageModel Rat := blank 0 60 90 30 1

theorem bareSheet_fresh : Fresh bareSheet :=
  .made (show make (.int 0) (.int 60) (.int 90) (.int 30) (.int 1) = .ok bareSheet from rfl)

def checkedBoth : List (Edit Rat) :=
  [.setField (stillField .vertical), .setField (stillField .horizontal), .validate .standard false]

/-- A vertical field that is built anew leaves the horizontal one valid by itself. -/
theorem rebuilt_vertical_unlawful :
    ¬ ((bareSheet.afterEdits
          (checkedBoth ++ [.setField (stillField .vertical)])).horizontal.status = .valid →
      (bareSheet.afterEdits (checkedBoth ++ [.setField (stillField .vertical)])).vertical.status =
        .valid) := by
  decide

theorem rebuilt_vertical_settled :
    Fresh bareSheet ∧
      (bareSheet.afterEdits checkedBoth).Spoils (.setField (stillField .vertical)) ∧
      ∃ mid f tail, [Edit.validate .standard false] = mid ++ f :: tail ∧
        (bareSheet.afterEdits
          (checkedBoth ++ .setField (stillField .vertical) :: mid)).Settles f := by
  have spoiled : (bareSheet.afterEdits checkedBoth).Spoils (.setField (stillField .vertical)) :=
    ⟨by decide, rfl, by decide, by decide⟩
  refine ⟨bareSheet_fresh, spoiled, ?_⟩
  exact (lawful_afterEdits_iff bareSheet_fresh
    (checkedBoth ++ [.setField (stillField .vertical), .validate .standard false])).mp
      (by decide) _ _ _ rfl spoiled

end PageModel

end PageFlattening
