import PageFlattening.Model.Page

/-! Page models as stored records. -/
namespace PageFlattening

namespace PageModel

variable {K : Type} [Scalar K]

def fieldEntries (m : PageModel K) : List (String × Value K) :=
  [m.vertical, m.horizontal, m.slope].filterMap fun t =>
    t.field?.map fun f => (f.direction.name, f.record)

/-- A model as stored. A built model stores minus one for the page it redirects to. -/
def record (m : PageModel K) : Value K :=
  .table
    [("pageno", .int m.page), ("w", .int m.width), ("h", .int m.height),
     ("sampling", .int m.stride), ("redfactor", .int m.reduction),
     ("refpage", .int (m.redirect.elim (-1) fun target => (target : Int))),
     ("vstatus", .text m.vertical.status.name), ("hstatus", .text m.horizontal.status.name),
     ("ystatus", .text m.slope.status.name), ("fields", .table m.fieldEntries),
     ("midys", .ofNumbers m.middles), ("curvatures", .ofNumbers m.curvatures),
     ("nlines", .int m.statistics.lineCount), ("mincurv", .int m.statistics.minCurvature),
     ("maxcurv", .int m.statistics.maxCurvature), ("leftslope", .int m.statistics.leftSlope),
     ("rightslope", .int m.statistics.rightSlope), ("leftcurv", .int m.statistics.leftCurvature),
     ("rightcurv", .int m.statistics.rightCurvature)]

def attachFields (m : PageModel K) : List (String × Value K) → Except Fault (PageModel K)
  | [] => .ok m
  | (_, v) :: rest => do
      let next ← (m.setField (← Field.ofRecord v)).result
      next.attachFields rest

def storedTrack (page : Nat) (status : Status) (t : Track K) : Except Fault (Track K) :=
  match Track.ofStored? status t.field? with
  | some stored => .ok stored
  | none => .error (.argument (.storedStatus status.name page))

def storedNumbers (v : Value K) : Except Fault (List K) := do
  return (← v.shaped).entries

def storedStatistics (v : Value K) : Except Fault LineStatistics := do
  let lineCount ← (← v.field "nlines").toInt
  let minCurvature ← (← v.field "mincurv").toInt
  let maxCurvature ← (← v.field "maxcurv").toInt
  let leftSlope ← (← v.field "leftslope").toInt
  let rightSlope ← (← v.field "rightslope").toInt
  let leftCurvature ← (← v.field "leftcurv").toInt
  let rightCurvature ← (← v.field "rightcurv").toInt
  return { lineCount, minCurvature, maxCurvature, leftSlope, rightSlope, leftCurvature,
           rightCurvature }

/-- A built model read back. Statuses and fields must go together, and the horizontal field must not
be valid without the vertical one. -/
def ofBuiltRecord (v : Value K) : Except Fault (PageModel K) := do
  let blankModel ← make (← v.field "pageno") (← v.field "w") (← v.field "h")
    (← v.field "sampling") (← v.field "redfactor")
  let .table stored := ← v.field "fields" | .error (.misuse .absent)
  let m ← blankModel.attachFields stored
  let vstatus ← Status.ofValue (← v.field "vstatus")
  let hstatus ← Status.ofValue (← v.field "hstatus")
  let ystatus ← Status.ofValue (← v.field "ystatus")
  let vertical ← storedTrack m.page vstatus m.vertical
  let horizontal ← storedTrack m.page hstatus m.horizontal
  let slope ← storedTrack m.page ystatus m.slope
  if horizontal.accepted && !vertical.accepted then
    .error (.argument (.storedValidity m.page))
  let middles ← storedNumbers (← v.field "midys")
  let curvatures ← storedNumbers (← v.field "curvatures")
  let statistics ← storedStatistics v
  return { m with vertical, horizontal, slope, middles, curvatures, statistics }

def ofRecord (v : Value K) : Except Fault (PageModel K) := do
  if ← (← v.field "refpage").atLeast 0 then
    makeReference (← v.field "pageno") (← v.field "refpage") (← v.field "sampling")
      (← v.field "redfactor")
  else ofBuiltRecord v

end PageModel

end PageFlattening
