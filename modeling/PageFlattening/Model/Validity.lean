import PageFlattening.Model.Page

/-! Plausibility checks of built models. The horizontal field is only ever valid when the vertical
one is: a page whose line curvature cannot be trusted cannot be trusted at its edges either. -/
namespace PageFlattening

namespace Thresholds

variable {K : Type} [Scalar K]

def acceptsLines (t : Thresholds) (s : LineStatistics) : Bool :=
  let largest := max s.minCurvature.natAbs s.maxCurvature.natAbs
  let spread := s.maxCurvature - s.minCurvature
  largest ≤ t.limit .lineCurvature && (t.limit .lineSpreadFloor : Int) ≤ spread &&
    spread ≤ t.limit .lineSpread

def acceptsEdges (t : Thresholds) (s : LineStatistics) : Bool :=
  s.leftSlope.natAbs ≤ t.limit .edgeSlope && s.rightSlope.natAbs ≤ t.limit .edgeSlope &&
    max s.leftCurvature.natAbs s.rightCurvature.natAbs ≤ t.limit .edgeCurvature &&
    (s.leftCurvature - s.rightCurvature).natAbs ≤ t.limit .edgeSpread

end Thresholds

namespace PageModel

variable {K : Type} [Scalar K]

/-- Checks the fields of a model. Without a vertical field, and for a redirect, nothing changes;
without tests whatever has been built is valid. -/
def validate (m : PageModel K) (t : Thresholds) (untested : Bool) : Outcome (PageModel K) :=
  if m.isRedirect || !m.vertical.succeeded then .done m
  else
    let vertical := untested || t.acceptsLines m.statistics
    let horizontal :=
      m.horizontal.succeeded && vertical && (untested || t.acceptsEdges m.statistics)
    m.setValidity vertical horizontal

def validity (m : PageModel K) : Bool × Bool := (m.verticalValid, m.horizontalValid)

/-- What a check answers: its two verdicts, or where nothing is checked what the model has come to
before. -/
def verdicts (m : PageModel K) (t : Thresholds) (untested : Bool) : Bool × Bool :=
  if m.isRedirect || !m.vertical.succeeded then m.validity
  else
    let vertical := untested || t.acceptsLines m.statistics
    (vertical, m.horizontal.succeeded && vertical && (untested || t.acceptsEdges m.statistics))

end PageModel

end PageFlattening
