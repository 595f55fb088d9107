import PageFlattening.Fit.LeastSquares
import PageFlattening.Value.Basic

/-! Text lines as points along their middles, and what a page as a whole shows of them. -/
namespace PageFlattening

abbrev Point (K : Type) := K × K

/-- A text line: points along its middle from left to right. -/
abbrev TextLine (K : Type) := List (Point K)

namespace TextLine

variable {K : Type} [Scalar K]

/-- The origin, which stands for a point that a line does not have. -/
def origin : Point K := (Scalar.ofInt 0, Scalar.ofInt 0)

def first (l : TextLine K) : Point K := l.headD origin

def last (l : TextLine K) : Point K := l.getLastD origin

def middle (l : TextLine K) : Point K := l.getD (l.length / 2) origin

def extent (l : TextLine K) : K := l.last.1 - l.first.1

def reaches (fraction longest : K) (l : TextLine K) : Bool := decide (fraction * longest ≤ l.extent)

/-- Lines shorter than this part of the longest one are dropped unless another part is named. -/
def longFraction : K := Scalar.ratio 4 5

def long (fraction : K) (lines : List (TextLine K)) : List (TextLine K) :=
  match greatest? (lines.map extent) with
  | none => []
  | some longest => lines.filter (reaches fraction longest)

/-- Points from top to bottom; points at one height keep their order. -/
def topToBottom (points : List (Point K)) : List (Point K) :=
  points.mergeSort fun p q => decide (p.2 ≤ q.2)

def leftEnds (lines : List (TextLine K)) : List (Point K) := topToBottom (lines.map first)

def rightEnds (lines : List (TextLine K)) : List (Point K) := topToBottom (lines.map last)

structure Coverage where
  enough : Bool
  top : Int
  bottom : Int
deriving Repr, DecidableEq

def row (l : TextLine K) : Except Fault Int := Value.truncated l.middle.2

/-- Lines cover a page if there are some in both halves and the outer ones are more than two fifths
of its height apart. -/
def coverage (lines : List (TextLine K)) (height : Int) : Except Fault Coverage := do
  match ← lines.mapM row with
  | [] => return ⟨false, 0, 0⟩
  | r :: rest =>
      let rows := r :: rest
      let top := rest.foldl min r
      let bottom := rest.foldl max r
      let half := height.fdiv 2
      let bothHalves := rows.any (fun y => decide (y < half)) &&
        rows.any (fun y => decide (half ≤ y))
      let apart := decide ((Scalar.ratio 2 5 * Scalar.ofInt height : K) <
        Scalar.ofInt (bottom - top))
      return ⟨bothHalves && apart, top, bottom⟩

end TextLine

end PageFlattening
