import PageFlattening.Fit.LeastSquares
import PageFlattening.Value.Shaped

/-! Displacement fields sampled at a regular stride over a page.

A field is made from given samples, from displacements along scattered text lines, or from the
displacements of the two edges of the text. -/
namespace PageFlattening

/-- What a field displaces: pixels along y, pixels along x, or nothing by itself; the last only
tells how the one before it continues beyond its samples. -/
inductive Direction where
  | vertical
  | horizontal
  | slope
deriving Repr, DecidableEq

namespace Direction

def all : List Direction := [vertical, horizontal, slope]

def name : Direction → String
  | vertical => "vertical"
  | horizontal => "horizontal"
  | slope => "slope"

def ofName? (s : String) : Option Direction := all.find? fun d => d.name == s

theorem ofName?_name (d : Direction) : ofName? d.name = some d := by cases d <;> rfl

def ofValue {K : Type} [Scalar K] : Value K → Except Fault Direction
  | .text s =>
      match ofName? s with
      | some d => .ok d
      | none => .error (.misuse .unknownName)
  | _ => .error (.misuse .unknownName)

end Direction

/-- A field: the displacement at column `x` and row `y` of the samples is that of the pixel at
`(x * stride, y * stride)`. -/
structure Field (K : Type) where
  direction : Direction
  samples : Grid K
  stride : Nat
  rows_pos : 0 < samples.height
  columns_pos : 0 < samples.width
  stride_pos : 0 < stride

namespace Field

variable {K : Type} [Scalar K]

def columns (f : Field K) : Nat := f.samples.width

def rows (f : Field K) : Nat := f.samples.height

def sample (f : Field K) (y x : Nat) : K := f.samples.get (Scalar.ofInt 0) y x

def ofGrid (direction : Direction) (samples : Grid K) (stride : Nat) (stride_pos : 0 < stride) :
    Except Fault (Field K) :=
  if filled : 0 < samples.height ∧ 0 < samples.width then
    .ok { direction, samples, stride, rows_pos := filled.1, columns_pos := filled.2, stride_pos }
  else .error (.argument (.samplesShape (Text.shape [samples.height, samples.width])))

/-- A stride of at least one; its fraction is dropped. -/
def checkStride (v : Value K) : Except Fault { n : Nat // 0 < n } := do
  if ← v.lessThan 1 then .error (.argument (.fieldStride v.plain))
  let n ← v.toInt
  if pos : 0 < n.toNat then return ⟨n.toNat, pos⟩
  else .error (.argument (.fieldStride v.plain))

/-- A field of an array of any rank. The array is checked first, then the stride, and last the
direction. -/
def make (direction : Except Fault Direction) (samples : Shaped K) (stride : Value K) :
    Except Fault (Field K) := do
  let some grid := samples.grid? | .error (.argument (.samplesShape samples.shapeText))
  if grid.isEmpty then .error (.argument (.samplesShape samples.shapeText))
  let s ← checkStride stride
  ofGrid (← direction) grid s.val s.property

def columnFits (heights : List K) (values : Grid K) : Except Fault (List (Quadratic K)) :=
  (List.range values.width).mapM fun x =>
    Points.fitParabola (heights.zip ((List.range values.height).map fun y =>
      values.get (Scalar.ofInt 0) y x))

def readColumns (fits : List (Quadratic K)) (rows : Nat) (stride : K) : Grid K :=
  let columns := fits.toArray
  Grid.ofFn rows columns.size fun y x =>
    match columns[x]? with
    | some p => p.eval (Scalar.ofNat y * stride)
    | none => Scalar.ofInt 0

/-- The column fits of displacements along lines at given heights. There must be one row of
displacements for each line, and at least three lines. -/
def lineFits (heights : List K) (values : Shaped K) : Except Fault (List (Quadratic K)) := do
  let some grid := values.grid? | .error (.argument .rowsPerLine)
  if grid.height ≠ heights.length then .error (.argument .rowsPerLine)
  if heights.length < 3 then .error (.argument (.columnFitLines heights.length))
  columnFits heights grid

def ofLines (direction : Except Fault Direction) (heights : List K) (values : Shaped K)
    (stride : Value K) (rows : Int) : Except Fault (Field K) := do
  let fits ← lineFits heights values
  let some step := stride.number? | .error (.misuse .wrongType)
  make direction (.ofGrid (readColumns fits rows.toNat step)) stride

def edgeTolerance : K := Scalar.ratio 1 1000000000

/-- The common length of two profiles; one of length one goes with any other. -/
def commonLength (left right : Nat) : Except Fault Nat :=
  if left = right then .ok left
  else if left = 1 then .ok right
  else if right = 1 then .ok left
  else .error (.misuse .shapesDiffer)

def profileAt (profile : List K) (i : Nat) : K :=
  profile.getD (if profile.length = 1 then 0 else i) (Scalar.ofInt 0)

/-- The samples of the field that varies linearly in x on each row, with the left displacement at
the left edge and the right one at the right edge. Where the edges coincide it is constant. -/
def edgeSamples (leftEdge rightEdge : K) (left right : List K) (stride : K) (columns : Nat) :
    Except Fault (Grid K) := do
  let width := rightEdge - leftEdge
  let flat := Scalar.abs width < edgeTolerance
  let rows ← if flat then pure left.length else commonLength left.length right.length
  let leftValues := left.toArray
  let rises := ((List.range rows).map fun y =>
    if flat then Scalar.ofInt 0 else (profileAt right y - profileAt left y) / width).toArray
  return Grid.ofFn rows columns fun y x =>
    let start := leftValues.getD (if leftValues.size = 1 then 0 else y) (Scalar.ofInt 0)
    start + rises.getD y (Scalar.ofInt 0) * (Scalar.ofNat x * stride - leftEdge)

def ofEdges (direction : Except Fault Direction) (leftEdge rightEdge : K) (left right : List K)
    (stride : Value K) (columns : Int) : Except Fault (Field K) := do
  let some step := stride.number? | .error (.misuse .wrongType)
  let grid ← edgeSamples leftEdge rightEdge left right step columns.toNat
  make direction (.ofGrid grid) stride

def summary (f : Field K) : String :=
  s!"DisparityField(kind={f.direction.name}, nx={f.columns}, ny={f.rows}, sampling={f.stride})"

def record (f : Field K) : Value K :=
  .table [("kind", .text f.direction.name), ("sampling", .int f.stride),
    ("sampled", .ofGrid f.samples)]

def ofRecord (v : Value K) : Except Fault (Field K) := do
  let direction ← Direction.ofValue (← v.field "kind")
  let samples ← v.field "sampled"
  let stride ← v.field "sampling"
  make (.ok direction) (← samples.shaped) stride

end Field

end PageFlattening
