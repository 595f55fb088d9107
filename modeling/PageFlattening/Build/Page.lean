import PageFlattening.Build.Horizontal
import PageFlattening.Build.Vertical
import PageFlattening.Image.Source
import PageFlattening.Layout.Detection

/-! Building the model of a page from its text lines. A page that cannot be modelled gets a model
whose statuses say so. -/
namespace PageFlattening

structure BuildReport (K : Type) where
  model : PageModel K
  lines : List (TextLine K)
  vertical : Option (VerticalFit K)
  flushEnds : Option (List (Point K) × List (Point K))

namespace BuildReport

variable {K : Type} [Scalar K]

def failed (m : PageModel K) (lines : List (TextLine K)) : BuildReport K :=
  { model := m.markFailed [], lines, vertical := none, flushEnds := none }

def addEdges (m : PageModel K) (lines : List (TextLine K)) (vertical : VerticalFit K)
    (columns rows stride : Nat) : Except Fault (BuildReport K) := do
  let left := TextLine.leftEnds lines
  let right := TextLine.rightEnds lines
  if left.length < EdgeFit.minPoints then
    return { model := m.markFailed [.horizontal, .slope], lines, vertical := some vertical,
             flushEnds := none }
  let tolerance := EdgeFit.tolerance m.width
  let leftFlush ← EdgeFit.flush .left left tolerance
  let rightFlush ← EdgeFit.flush .right right tolerance
  let whole := EdgeFit.span left
  let flushEnds := some (leftFlush, rightFlush)
  if !(EdgeFit.usable leftFlush whole && EdgeFit.usable rightFlush whole) then
    return { model := m.markFailed [.horizontal, .slope], lines, vertical := some vertical,
             flushEnds }
  let allFlush := decide (left.length ≤ leftFlush.length) &&
    decide (right.length ≤ rightFlush.length)
  let edges ← EdgeFit.ofFlush leftFlush rightFlush allFlush m.height (m.page % 2 == 1) columns rows
    stride
  let measured := { m with
    statistics := { m.statistics with
      leftSlope := edges.leftSlope
      rightSlope := edges.rightSlope
      leftCurvature := edges.leftCurvature
      rightCurvature := edges.rightCurvature } }
  let straight ← (measured.setField edges.horizontal).result
  let model ←
    match edges.slope with
    | some slope => (straight.setField slope).result
    | none => pure (straight.markFailed [.slope])
  return { model, lines, vertical := some vertical, flushEnds }

/-- Builds the model of a page from its detected lines. Lines of fewer than three points do not
count. All three fields fail when there are too few lines or they cover too little of the page;
when only the edges cannot be fitted, the vertical field stands alone. -/
def ofLines (b : BuildSettings) (ink : Grid Bool) (page : Nat) (minLines : Value K)
    (detected : List (TextLine K)) : Except Fault (BuildReport K) := do
  let lines := detected.filter fun l => decide (3 ≤ l.length)
  let start : PageModel K := PageModel.blank page ink.width ink.height b.stride b.reduction
  let counted := { start with
    statistics := { start.statistics with lineCount := lines.length } }
  if ← minLines.greaterThan lines.length then return failed counted lines
  let coverage ← TextLine.coverage lines ink.height
  if !coverage.enough then return failed counted lines
  let columns := counted.columns.toNat
  let rows := counted.rows.toNat
  let some vertical ← VerticalFit.ofLines lines columns b.stride
    | return failed counted lines
  let measured := { counted with
    statistics := { counted.statistics with
      minCurvature := vertical.minCurvature
      maxCurvature := vertical.maxCurvature }
    middles := vertical.middles
    curvatures := vertical.curvatures }
  let flat ← (measured.setField (← vertical.field columns rows b.stride)).result
  addEdges flat lines vertical columns rows b.stride

def checkPage (page : Value K) : Except Fault Nat :=
  match page with
  | .int n => if n < 0 then .error (.argument (.pageNumber page.literal)) else .ok n.toNat
  | .bool b => .ok (if b then 1 else 0)
  | _ => .error (.argument (.pageNumber page.literal))

def checkMinLines (b : BuildSettings) (minLines : Value K) : Except Fault (Value K) :=
  match minLines with
  | .null => .ok (.int b.minLines)
  | v => do
      if ← v.lessThan 4 then .error (.setting (.minLinesOverride v.plain))
      return v

/-- Builds the model of a page image: the image is checked first, then the page number, then the
number of lines. -/
def build (b : BuildSettings) (detector : Grid Bool → List (TextLine K)) (source : Source)
    (page minLines : Value K) : Except Fault (BuildReport K) := do
  let ink ← source.loadBit
  let p ← checkPage page
  let least ← checkMinLines b minLines
  ofLines b ink p least (detector ink)

end BuildReport

end PageFlattening
