import PageFlattening.Disparity.Expansion
import PageFlattening.Settings.Ranges

/-! The model of one page: its displacement fields with their statuses, and the statistics of its
text lines. A model is either built from a page or a redirect to the page whose model is used
instead; a redirect never holds fields. -/
namespace PageFlattening

/-- How far a field has come. The first two have no field; a built field has not been checked. -/
inductive Status where
  | notAttempted
  | failed
  | built
  | invalid
  | valid
deriving Repr, DecidableEq

namespace Status

def all : List Status := [notAttempted, failed, built, invalid, valid]

def name : Status → String
  | notAttempted => "not_attempted"
  | failed => "failed"
  | built => "built"
  | invalid => "invalid"
  | valid => "valid"

def ofName? (s : String) : Option Status := all.find? fun t => t.name == s

theorem ofName?_name (s : Status) : ofName? s.name = some s := by cases s <;> rfl

def ofValue {K : Type} [Scalar K] : Value K → Except Fault Status
  | .text s =>
      match ofName? s with
      | some t => .ok t
      | none => .error (.misuse .unknownName)
  | _ => .error (.misuse .unknownName)

end Status

inductive Verdict where
  | pending
  | rejected
  | accepted
deriving Repr, DecidableEq

/-- One direction of a model: a field is held exactly when it has been built. -/
inductive Track (K : Type) where
  | notAttempted
  | failed
  | held (verdict : Verdict) (field : Field K)

namespace Track

variable {K : Type}

instance : Inhabited (Track K) := ⟨.notAttempted⟩

def status : Track K → Status
  | .notAttempted => .notAttempted
  | .failed => .failed
  | .held .pending _ => .built
  | .held .rejected _ => .invalid
  | .held .accepted _ => .valid

def field? : Track K → Option (Field K)
  | .held _ f => some f
  | _ => none

def succeeded : Track K → Bool
  | .held _ _ => true
  | _ => false

def accepted : Track K → Bool
  | .held .accepted _ => true
  | _ => false

def judge (ok : Bool) : Track K → Track K
  | .held _ f => .held (if ok then .accepted else .rejected) f
  | other => other

def ofStored? : Status → Option (Field K) → Option (Track K)
  | .notAttempted, none => some .notAttempted
  | .failed, none => some .failed
  | .built, some f => some (.held .pending f)
  | .invalid, some f => some (.held .rejected f)
  | .valid, some f => some (.held .accepted f)
  | _, _ => none

theorem ofStored?_status (t : Track K) : ofStored? t.status t.field? = some t := by
  match t with
  | .notAttempted => rfl
  | .failed => rfl
  | .held .pending _ => rfl
  | .held .rejected _ => rfl
  | .held .accepted _ => rfl

end Track

/-- The statistics of the text lines of a page: curvatures in millionths, slopes in thousandths. -/
structure LineStatistics where
  lineCount : Int
  minCurvature : Int
  maxCurvature : Int
  leftSlope : Int
  rightSlope : Int
  leftCurvature : Int
  rightCurvature : Int
deriving Repr, DecidableEq

def LineStatistics.zero : LineStatistics := ⟨0, 0, 0, 0, 0, 0, 0⟩

/-- The model of one page. By its `tag` whoever holds a model knows it again after a collection has
changed it, and `attached` says whether the model counts as belonging to a collection. -/
structure PageModel (K : Type) where
  page : Nat
  width : Int
  height : Int
  stride : Int
  reduction : Int
  redirect : Option Nat
  vertical : Track K
  horizontal : Track K
  slope : Track K
  middles : List K
  curvatures : List K
  statistics : LineStatistics
  tag : Option Nat
  attached : Bool

namespace PageModel

variable {K : Type} [Scalar K]

def columns (m : PageModel K) : Int := if m.width = 0 then 0 else sampleCount m.width m.stride

def rows (m : PageModel K) : Int := if m.height = 0 then 0 else sampleCount m.height m.stride

def blank (page : Nat) (width height stride reduction : Int) : PageModel K where
  page
  width
  height
  stride
  reduction
  redirect := none
  vertical := .notAttempted
  horizontal := .notAttempted
  slope := .notAttempted
  middles := []
  curvatures := []
  statistics := .zero
  tag := none
  attached := false

def reference (page target : Nat) (stride reduction : Int) : PageModel K :=
  { blank page 0 0 stride reduction with redirect := some target }

def make (page width height stride reduction : Value K) : Except Fault (PageModel K) := do
  if ← page.lessThan 0 then .error (.argument (.negativePage page.plain))
  let p ← page.toInt
  let w ← width.toInt
  let h ← height.toInt
  let s ← stride.toInt
  let r ← reduction.toInt
  if s = 0 ∧ (w ≠ 0 ∨ h ≠ 0) then .error (.misuse .divisionByZero)
  return blank p.toNat w h s r

def makeReference (page target stride reduction : Value K) : Except Fault (PageModel K) := do
  if (← target.lessThan 0) || target.sameNumber page then
    .error (.argument (.reference target.plain page.plain))
  let m ← make page (.int 0) (.int 0) stride reduction
  let t ← target.toInt
  return { m with redirect := some t.toNat }

def isRedirect (m : PageModel K) : Bool := m.redirect.isSome

def track (m : PageModel K) : Direction → Track K
  | .vertical => m.vertical
  | .horizontal => m.horizontal
  | .slope => m.slope

def setTrack (m : PageModel K) (d : Direction) (t : Track K) : PageModel K :=
  match d with
  | .vertical => { m with vertical := t }
  | .horizontal => { m with horizontal := t }
  | .slope => { m with slope := t }

def verticalValid (m : PageModel K) : Bool := m.vertical.accepted

def horizontalValid (m : PageModel K) : Bool := m.horizontal.accepted

def setField (m : PageModel K) (f : Field K) : Outcome (PageModel K) :=
  if m.isRedirect then .stopped m (.argument (.redirectHoldsNoField m.page))
  else if (f.stride : Int) ≠ m.stride then
    .stopped m (.argument (.fieldStrideMismatch f.stride m.stride))
  else .done (m.setTrack f.direction (.held .pending f))

/-- Records that building some fields was attempted and failed; no direction named means all. -/
def markFailed (m : PageModel K) (directions : List Direction) : PageModel K :=
  (if directions.isEmpty then Direction.all else directions).foldl
    (fun model d => model.setTrack d .failed) m

/-- Records the outcome of a check. What has not been built cannot be valid, and the horizontal
field cannot be valid without the vertical one. -/
def setValidity (m : PageModel K) (vertical horizontal : Bool) : Outcome (PageModel K) :=
  if vertical && !m.vertical.succeeded then .stopped m (.argument (.verticalNotBuilt m.page))
  else if horizontal && !m.horizontal.succeeded then
    .stopped m (.argument (.horizontalNotBuilt m.page))
  else if horizontal && !vertical then
    .stopped m (.argument (.horizontalWithoutVertical m.page))
  else
    .done { m with
      vertical := m.vertical.judge vertical
      horizontal := m.horizontal.judge horizontal }

structure FullFields (K : Type) where
  vertical : Option (Grid K)
  horizontal : Option (Grid K)
  slope : Option (Grid K)

/-- Expands the fields that are held to a page of the given size, by default that of the page the
model applies to. A model built on a reduced page is stretched, and its displacements multiplied,
by the reduction. The horizontal field continues with the slope field where there is one. -/
def fullFields (m : PageModel K) (width height : Option Int) : Except Fault (FullFields K) := do
  let w := width.getD (m.width * m.reduction)
  let h := height.getD (m.height * m.reduction)
  let factor := m.stride * m.reduction
  let multiplier := Scalar.ofInt m.reduction
  let grow := fun (slope : Option (Field K)) (f : Field K) =>
    f.expand factor (some w) (some h) multiplier slope
  let vertical ← m.vertical.field?.mapM (grow none)
  let slope ← m.slope.field?.mapM (grow none)
  let horizontal ← m.horizontal.field?.mapM (grow m.slope.field?)
  return { vertical, horizontal, slope }

def summary (m : PageModel K) : String :=
  match m.redirect with
  | some target => s!"PageModel(pageno={m.page}, refpage={target})"
  | none =>
      s!"PageModel(pageno={m.page}, w={m.width}, h={m.height}, " ++
        s!"nlines={m.statistics.lineCount}, vstatus={m.vertical.status.name}, " ++
        s!"hstatus={m.horizontal.status.name})"

end PageModel

end PageFlattening
