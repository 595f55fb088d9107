import PageFlattening.Scalar

/-! Polynomials of degree at most two. -/
namespace PageFlattening

/-- The polynomial `c2 x² + c1 x + c0`. -/
structure Quadratic (K : Type) where
  c2 : K
  c1 : K
  c0 : K

structure Line (K : Type) where
  c1 : K
  c0 : K

variable {K : Type} [Scalar K]

def Quadratic.eval (p : Quadratic K) (x : K) : K := (p.c2 * x + p.c1) * x + p.c0

def Line.eval (p : Line K) (x : K) : K := p.c1 * x + p.c0

end PageFlattening
