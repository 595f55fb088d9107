import PageFlattening.Layout.TextLine
import PageFlattening.Model.Page

/-! The vertical field of a page: every text line is fitted by a parabola and flattened onto its
highest sampled point, and the displacements that this takes are fitted column by column. -/
namespace PageFlattening

structure LineFit (K : Type) where
  curve : Quadratic K
  left : K
  right : K

/-- A line read at the sampled columns: its heights there, the one in the middle column, and the
height that it is flattened onto. -/
structure SampledLine (K : Type) where
  heights : List K
  middle : K
  level : K

structure VerticalFit (K : Type) where
  lines : List (SampledLine K)
  curvatures : List K
  minCurvature : Int
  maxCurvature : Int

namespace LineFit

variable {K : Type} [Scalar K]

def ofLine (l : TextLine K) : Except Fault (LineFit K) := do
  let curve ← fitQuadratic (l.map (·.1)) (l.map (·.2))
  return ⟨curve, l.first.1, l.last.1⟩

def curvature (f : LineFit K) : K := f.curve.c2

def outlierFactor : K := Scalar.ofInt 7

/-- The narrowest band of curvatures, for pages whose lines are all but alike. -/
def curvatureTolerance : K := Scalar.ratio 1 100000000

def band (curvatures : List K) : K :=
  Scalar.max (outlierFactor * (medianAndDeviation curvatures).2) curvatureTolerance

def isConsistent (curvatures : List K) (c : K) : Bool :=
  decide (Scalar.abs (c - median curvatures) ≤ band curvatures)

def consistent (fits : List (LineFit K)) : List (LineFit K) :=
  fits.filter fun f => isConsistent (fits.map curvature) f.curvature

def column (stride x : Nat) : K := Scalar.ofNat x * Scalar.ofNat stride

/-- Reads a line at the sampled columns. It is flattened onto its least height in a column between
its ends, or onto its height in the middle column when there is none between them. -/
def sampled (columns stride : Nat) (f : LineFit K) : SampledLine K :=
  let places : List K := (List.range columns).map (column stride)
  let heights := places.map f.curve.eval
  let middle := heights.getD (columns / 2) (Scalar.ofInt 0)
  let between := (places.zip heights).filter fun e =>
    decide (f.left ≤ e.1) && decide (e.1 ≤ f.right)
  { heights, middle, level := (least? (between.map (·.2))).getD middle }

end LineFit

namespace VerticalFit

variable {K : Type} [Scalar K]

def ofLines (lines : List (TextLine K)) (columns stride : Nat) :
    Except Fault (Option (VerticalFit K)) := do
  let fits ← lines.mapM LineFit.ofLine
  let kept := LineFit.consistent fits
  let curvatures := kept.map (·.curvature)
  match least? curvatures, greatest? curvatures with
  | some low, some high =>
      if kept.length < 3 then return none
      let minCurvature ← toMicro low
      let maxCurvature ← toMicro high
      let read := kept.map (LineFit.sampled columns stride)
      return some
        { lines := read.mergeSort fun a b => decide (a.middle ≤ b.middle)
          curvatures := ascending curvatures
          minCurvature
          maxCurvature }
  | _, _ => return none

def middles (v : VerticalFit K) : List K := v.lines.map fun l => l.middle

def levels (v : VerticalFit K) : List K := v.lines.map fun l => l.level

def displacements (v : VerticalFit K) (columns : Nat) : Grid K :=
  let rows := (v.lines.map fun l => (l.level, l.heights.toArray)).toArray
  Grid.ofFn rows.size columns fun i x =>
    match rows[i]? with
    | some (level, heights) => level - heights.getD x (Scalar.ofInt 0)
    | none => Scalar.ofInt 0

def field (v : VerticalFit K) (columns rows stride : Nat) : Except Fault (Field K) :=
  Field.ofLines (.ok .vertical) v.levels (.ofGrid (v.displacements columns)) (.int stride) rows

end VerticalFit

end PageFlattening
