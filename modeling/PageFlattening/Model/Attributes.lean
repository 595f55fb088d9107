import PageFlattening.Model.Record
import PageFlattening.Model.Validity

/-!
A page model attribute by attribute. Each direction has a status, and beside it a field or none. The
operations assign the two one by one and ask the status alone whether there is a field; nothing here
holds a status and a field together that do not go together. That they always do is a theorem, and
by it the tracks of `PageModel` lose nothing.
-/
namespace PageFlattening

def Status.hasField (s : Status) : Bool := [built, invalid, valid].contains s

/-- One direction of a model: a status, and independently of it a field or none. -/
structure Slot (K : Type) where
  status : Status
  field? : Option (Field K)

namespace Slot

variable {K : Type}

def empty : Slot K := ⟨.notAttempted, none⟩

def judge (ok : Bool) (s : Slot K) : Slot K :=
  if s.status.hasField then { s with status := if ok then .valid else .invalid } else s

def check (page : Nat) (s : Slot K) : Except Fault Unit :=
  if s.status.hasField ≠ s.field?.isSome then
    .error (.argument (.storedStatus s.status.name page))
  else .ok ()

end Slot

namespace PageModel

/-- What is assigned to a model; who holds it is left out. -/
structure Attributes (K : Type) where
  page : Nat
  width : Int
  height : Int
  stride : Int
  reduction : Int
  redirect : Option Nat
  vertical : Slot K
  horizontal : Slot K
  slope : Slot K
  middles : List K
  curvatures : List K
  statistics : LineStatistics

namespace Attributes

variable {K : Type}

def blank (page : Nat) (width height stride reduction : Int) : Attributes K where
  page
  width
  height
  stride
  reduction
  redirect := none
  vertical := .empty
  horizontal := .empty
  slope := .empty
  middles := []
  curvatures := []
  statistics := .zero

def slot (a : Attributes K) : Direction → Slot K
  | .vertical => a.vertical
  | .horizontal => a.horizontal
  | .slope => a.slope

def setSlot (a : Attributes K) (d : Direction) (s : Slot K) : Attributes K :=
  match d with
  | .vertical => { a with vertical := s }
  | .horizontal => { a with horizontal := s }
  | .slope => { a with slope := s }

def setField (a : Attributes K) (f : Field K) : Outcome (Attributes K) :=
  if a.redirect.isSome then .stopped a (.argument (.redirectHoldsNoField a.page))
  else if (f.stride : Int) ≠ a.stride then
    .stopped a (.argument (.fieldStrideMismatch f.stride a.stride))
  else .done (a.setSlot f.direction ⟨.built, some f⟩)

/-- No direction named means all. A redirect is marked like any other model. -/
def markFailed (a : Attributes K) (directions : List Direction) : Attributes K :=
  (if directions.isEmpty then Direction.all else directions).foldl
    (fun b d => b.setSlot d ⟨.failed, none⟩) a

def setValidity (a : Attributes K) (vertical horizontal : Bool) : Outcome (Attributes K) :=
  if vertical && !a.vertical.status.hasField then .stopped a (.argument (.verticalNotBuilt a.page))
  else if horizontal && !a.horizontal.status.hasField then
    .stopped a (.argument (.horizontalNotBuilt a.page))
  else if horizontal && !vertical then
    .stopped a (.argument (.horizontalWithoutVertical a.page))
  else
    .done { a with
      vertical := a.vertical.judge vertical
      horizontal := a.horizontal.judge horizontal }

def validate (a : Attributes K) (t : Thresholds) (untested : Bool) : Outcome (Attributes K) :=
  if a.redirect.isSome || !a.vertical.status.hasField then .done a
  else
    let vertical := untested || t.acceptsLines a.statistics
    let horizontal :=
      a.horizontal.status.hasField && vertical && (untested || t.acceptsEdges a.statistics)
    a.setValidity vertical horizontal

/-! Where the attributes come from. -/

variable [Scalar K]

def make (page width height stride reduction : Value K) : Except Fault (Attributes K) := do
  if ← page.lessThan 0 then .error (.argument (.negativePage page.plain))
  let p ← page.toInt
  let w ← width.toInt
  let h ← height.toInt
  let s ← stride.toInt
  let r ← reduction.toInt
  if s = 0 ∧ (w ≠ 0 ∨ h ≠ 0) then .error (.misuse .divisionByZero)
  return blank p.toNat w h s r

def makeReference (page target stride reduction : Value K) : Except Fault (Attributes K) := do
  if (← target.lessThan 0) || target.sameNumber page then
    .error (.argument (.reference target.plain page.plain))
  let a ← make page (.int 0) (.int 0) stride reduction
  let t ← target.toInt
  return { a with redirect := some t.toNat }

def attachFields (a : Attributes K) : List (String × Value K) → Except Fault (Attributes K)
  | [] => .ok a
  | (_, v) :: rest => do
      let next ← (a.setField (← Field.ofRecord v)).result
      next.attachFields rest

/-- Reads a built model back. Attaching the fields leaves every status at what a new field has; the
stored statuses are then written over these, and only afterwards looked at. -/
def ofBuiltRecord (v : Value K) : Except Fault (Attributes K) := do
  let start ← make (← v.field "pageno") (← v.field "w") (← v.field "h")
    (← v.field "sampling") (← v.field "redfactor")
  let .table stored := ← v.field "fields" | .error (.misuse .absent)
  let base ← start.attachFields stored
  let vstatus ← Status.ofValue (← v.field "vstatus")
  let hstatus ← Status.ofValue (← v.field "hstatus")
  let ystatus ← Status.ofValue (← v.field "ystatus")
  let a := { base with
    vertical := { base.vertical with status := vstatus }
    horizontal := { base.horizontal with status := hstatus }
    slope := { base.slope with status := ystatus } }
  a.vertical.check a.page
  a.horizontal.check a.page
  a.slope.check a.page
  if a.horizontal.status == .valid && a.vertical.status != .valid then
    .error (.argument (.storedValidity a.page))
  let middles ← storedNumbers (← v.field "midys")
  let curvatures ← storedNumbers (← v.field "curvatures")
  let statistics ← storedStatistics v
  return { a with middles, curvatures, statistics }

def ofRecord (v : Value K) : Except Fault (Attributes K) := do
  if ← (← v.field "refpage").atLeast 0 then
    makeReference (← v.field "pageno") (← v.field "refpage") (← v.field "sampling")
      (← v.field "redfactor")
  else ofBuiltRecord v

end Attributes

end PageModel

end PageFlattening
