import PageFlattening.Fault
import PageFlattening.Fit.Polynomial
import PageFlattening.Fit.Statistics

/-! Least-squares fits of lines and parabolas.

With enough distinct abscissae the fit is read off the polynomials that are orthogonal on them:
the constant, the distance from the mean, and its square less the part that the first two explain.
With fewer, many polynomials fit equally well; of these the fit is the one of least weighted norm,
each squared coefficient weighing as much as the squares of its power of the abscissae add up to.
Abscissae that are all zero give those weights no meaning and are refused. -/
namespace PageFlattening

variable {K : Type} [Scalar K]

abbrev Points (K : Type) := List (K × K)

namespace Points

def count (points : Points K) : K := Scalar.ofNat points.length

def total (points : Points K) (term : K → K → K) : K :=
  Scalar.sum (points.map fun p => term p.1 p.2)

def mean (points : Points K) (term : K → K → K) : K := points.total term / points.count

/-- The points with the given abscissa. -/
def above (points : Points K) (x : K) : Points K := points.filter fun p => p.1 == x

/-- How many different abscissae there are, as far as a fit of degree two needs to know. -/
inductive Support (K : Type) where
  | none
  | one (a : K)
  | two (a b : K)
  | many

def support (points : Points K) : Support K :=
  match points with
  | [] => .none
  | (a, _) :: rest =>
      match rest.find? fun p => !(p.1 == a) with
      | none => .one a
      | some (b, _) =>
          if rest.any fun p => !(p.1 == a) && !(p.1 == b) then .many else .two a b

def parabola (points : Points K) : Quadratic K :=
  let centre := points.mean fun x _ => x
  let square := points.total fun x _ => (x - centre) * (x - centre)
  let cube := points.total fun x _ => (x - centre) * (x - centre) * (x - centre)
  let skew := cube / square
  let spread := square / points.count
  let bend := fun x : K => (x - centre) * (x - centre) - skew * (x - centre) - spread
  let level := points.mean fun _ y => y
  let tilt := (points.total fun x y => (y - level) * (x - centre)) / square
  let curve := (points.total fun x y => (y - level) * bend x) /
    points.total fun x _ => bend x * bend x
  { c2 := curve
    c1 := tilt - curve * skew - Scalar.ofInt 2 * curve * centre
    c0 := level - tilt * centre + curve * (centre * centre + skew * centre - spread) }

def line (points : Points K) : Line K :=
  let centre := points.mean fun x _ => x
  let square := points.total fun x _ => (x - centre) * (x - centre)
  let level := points.mean fun _ y => y
  let tilt := (points.total fun x y => (y - level) * (x - centre)) / square
  { c1 := tilt, c0 := level - tilt * centre }

/-- The parabola of least weighted norm through points above two different abscissae: the line
through the two means, plus the multiple of the parabola that vanishes at both. -/
def flattestThroughTwo (points : Points K) (a b : K) : Quadratic K :=
  let atA := (points.above a).mean fun _ y => y
  let atB := (points.above b).mean fun _ y => y
  let slope := (atB - atA) / (b - a)
  let offset := atA - slope * a
  let middle := -(a + b)
  let product := a * b
  let weight1 := points.total fun x _ => x * x
  let weight2 := points.total fun x _ => x * x * (x * x)
  let norm := weight2 + weight1 * middle * middle + points.count * product * product
  let share := -(weight1 * slope * middle + points.count * offset * product) / norm
  { c2 := share, c1 := slope + share * middle, c0 := offset + share * product }

def fitParabola (points : Points K) : Except Fault (Quadratic K) :=
  match points.support with
  | .many => .ok points.parabola
  | .two a b => .ok (points.flattestThroughTwo a b)
  | .one a =>
      if a == Scalar.ofInt 0 then .error (.misuse .singularFit)
      else
        let share := (points.mean fun _ y => y) / Scalar.ofInt 3
        .ok { c2 := share / a / a, c1 := share / a, c0 := share }
  | .none => .error (.misuse .wrongType)

def fitLine (points : Points K) : Except Fault (Line K) :=
  match points.support with
  | .many => .ok points.line
  | .two _ _ => .ok points.line
  | .one a =>
      if a == Scalar.ofInt 0 then .error (.misuse .singularFit)
      else
        let share := (points.mean fun _ y => y) / Scalar.ofInt 2
        .ok { c1 := share / a, c0 := share }
  | .none => .error (.misuse .wrongType)

def medianResidual (points : Points K) (curve : K → K) : K :=
  median (points.map fun p => Scalar.abs (curve p.1 - p.2))

end Points

def pairUp (xs ys : List K) : Except Fault (Points K) :=
  if xs.length = ys.length then .ok (xs.zip ys) else .error (.misuse .wrongType)

def fitQuadratic (xs ys : List K) : Except Fault (Quadratic K) := do
  if xs.length < 3 then .error (.argument (.quadraticPoints xs.length))
  (← pairUp xs ys).fitParabola

def fitLinear (xs ys : List K) : Except Fault (Line K) := do
  if xs.length < 2 then .error (.argument (.linearPoints xs.length))
  (← pairUp xs ys).fitLine

/-- An integer nearest to a multiple of a number, halves to the even one. -/
def scaled (unit : Int) (x : K) : Except Fault Int :=
  let product := Scalar.ofInt unit * x
  match Scalar.notFinite? product with
  | some .undefined => .error (.misuse .notANumber)
  | some .infinite => .error (.misuse .tooLarge)
  | none => .ok (Scalar.nearest product)

def toMicro (x : K) : Except Fault Int := scaled 1000000 x

def toMilli (x : K) : Except Fault Int := scaled 1000 x

end PageFlattening
