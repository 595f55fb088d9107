import PageFlattening.Layout.TextLine
import PageFlattening.Model.Page

/-! The horizontal field of a page: the line ends that lie flush with the two edges of the text are
fitted by parabolas, and the displacements that straighten both edges vary linearly between
them. -/
namespace PageFlattening

inductive Side where
  | left
  | right
deriving Repr, DecidableEq

/-- What the two edges of a page give: the flush ends, slopes at half height in thousandths and
curvatures in millionths, and the fields. -/
structure EdgeFit (K : Type) where
  leftSlope : Int
  rightSlope : Int
  leftCurvature : Int
  rightCurvature : Int
  horizontal : Field K
  slope : Option (Field K)

namespace EdgeFit

variable {K : Type} [Scalar K]

def minPoints : Nat := 3

def minSpan : K := Scalar.ratio 2 5

/-- The ends that lie on the outer envelope of an edge: no farther inside than a tolerance from the
outermost, measured from the line through all ends. -/
def flush (side : Side) (points : List (Point K)) (tolerance : K) :
    Except Fault (List (Point K)) := do
  let trend ← fitLinear (points.map (·.2)) (points.map (·.1))
  let residual := fun p : Point K => p.1 - trend.eval p.2
  let residuals := points.map residual
  match side, least? residuals, greatest? residuals with
  | .left, some low, _ => return points.filter fun p => decide (residual p - low ≤ tolerance)
  | .right, _, some high => return points.filter fun p => decide (high - residual p ≤ tolerance)
  | _, _, _ => return []

def span (points : List (Point K)) : K :=
  match greatest? (points.map (·.2)), least? (points.map (·.2)) with
  | some bottom, some top => bottom - top
  | _, _ => Scalar.ofInt 0

def usable (points : List (Point K)) (whole : K) : Bool :=
  decide (minPoints ≤ points.length) && decide (minSpan * whole ≤ span points)

def tolerance (width : Int) : K :=
  Scalar.max (Scalar.ofInt 4) (Scalar.ratio 1 50 * Scalar.ofInt width)

/-- The places that the edges are straightened to, away from the gutter: the rightmost of each edge
on an odd page, the leftmost on an even one. -/
def references (left right : List K) (odd : Bool) : Except Fault (K × K) :=
  let outer := fun xs : List K => if odd then greatest? xs else least? xs
  match outer left, outer right with
  | some l, some r => .ok (l, r)
  | _, _ => .error (.misuse .emptyRange)

def field (direction : Direction) (left right : List K) (odd : Bool) (columns stride : Nat) :
    Except Fault (Field K) := do
  let (toLeft, toRight) ← references left right odd
  Field.ofEdges (.ok direction) toLeft toRight (left.map (toLeft - ·)) (right.map (toRight - ·))
    (.int stride) columns

def rowHeights (rows stride : Nat) : List K :=
  (List.range rows).map fun y => Scalar.ofNat y * Scalar.ofNat stride

/-- Fits both edges of a page through their flush ends. A slope field is made as well when some line
end is not flush. -/
def ofFlush (leftFlush rightFlush : List (Point K)) (allFlush : Bool) (height : Int)
    (odd : Bool) (columns rows stride : Nat) : Except Fault (EdgeFit K) := do
  let heights := rowHeights rows stride
  let middle := Scalar.ofInt height / Scalar.ofInt 2
  let left ← fitQuadratic (leftFlush.map (·.2)) (leftFlush.map (·.1))
  let right ← fitQuadratic (rightFlush.map (·.2)) (rightFlush.map (·.1))
  let leftSlope ← toMilli (Scalar.ofInt 2 * left.c2 * middle + left.c1)
  let rightSlope ← toMilli (Scalar.ofInt 2 * right.c2 * middle + right.c1)
  let leftCurvature ← toMicro left.c2
  let rightCurvature ← toMicro right.c2
  let horizontal ← field .horizontal (heights.map left.eval) (heights.map right.eval) odd columns
    stride
  if allFlush then
    return { leftSlope, rightSlope, leftCurvature, rightCurvature, horizontal, slope := none }
  let leftLine ← fitLinear (leftFlush.map (·.2)) (leftFlush.map (·.1))
  let rightLine ← fitLinear (rightFlush.map (·.2)) (rightFlush.map (·.1))
  let slope ← field .slope (heights.map leftLine.eval) (heights.map rightLine.eval) odd columns
    stride
  return { leftSlope, rightSlope, leftCurvature, rightCurvature, horizontal, slope := some slope }

end EdgeFit

end PageFlattening
