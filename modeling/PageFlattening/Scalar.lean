import PageFlattening.Decimal.Shortest

/-! The arithmetic that the numerical part of the library is written over. Every algorithm is
stated once for any `Scalar`; it runs on doubles, and on the rationals it is exact. -/
namespace PageFlattening

inductive NotFinite where
  | undefined
  | infinite
deriving Repr, DecidableEq

/-- Numbers with the four operations, an order, and rounding to integers. -/
class Scalar (K : Type) extends Add K, Sub K, Mul K, Div K, Neg K, LE K, LT K, BEq K where
  ofInt : Int → K
  /-- The integer part, toward zero. -/
  trunc : K → Int
  /-- The nearest integer, halves to the even one. -/
  nearest : K → Int
  /-- Whether the number is one of the values beyond the number line. -/
  notFinite? : K → Option NotFinite
  /-- How the number is written in a message. -/
  literal : K → String
  decideLe : ∀ a b : K, Decidable (a ≤ b)
  decideLt : ∀ a b : K, Decidable (a < b)

namespace Scalar

instance {K : Type} [Scalar K] : DecidableLE K := fun a b => decideLe a b

instance {K : Type} [Scalar K] : DecidableLT K := fun a b => decideLt a b

variable {K : Type} [Scalar K]

def ofNat (n : Nat) : K := ofInt n

def ratio (num den : Int) : K := ofInt num / ofInt den

def abs (x : K) : K := if x < ofInt 0 then -x else x

def max (a b : K) : K := if a < b then b else a

def min (a b : K) : K := if b < a then b else a

/-- The sum of a list, from its first entry on. -/
def sum (xs : List K) : K := xs.foldl (· + ·) (ofInt 0)

end Scalar

/-- The nearest integer of a rational: the floor, one more past the middle, and at the middle the
even one of the two. -/
def ratNearest (q : Rat) : Int :=
  let whole := q.floor
  let rest := q - (whole : Rat)
  if 2 * rest < 1 then whole
  else if 1 < 2 * rest then whole + 1
  else if whole % 2 = 0 then whole else whole + 1

instance : Scalar Float where
  ofInt := Float.ofInt
  trunc := Decimal.truncate
  nearest := Decimal.nearest
  notFinite? x := if x.isNaN then some .undefined else if x.isInf then some .infinite else none
  literal := Decimal.literal
  decideLe := inferInstance
  decideLt := inferInstance

instance : Scalar Rat where
  ofInt n := n
  trunc q := q.num.tdiv q.den
  nearest := ratNearest
  notFinite? _ := none
  literal q := toString q.num ++ "/" ++ toString q.den
  decideLe := inferInstance
  decideLt := inferInstance

end PageFlattening
