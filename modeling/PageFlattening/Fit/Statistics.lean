import PageFlattening.Scalar

/-! Order statistics of lists of numbers. -/
namespace PageFlattening

variable {K : Type} [Scalar K]

def ascending (xs : List K) : List K := xs.mergeSort fun a b => decide (a ≤ b)

def isUndefined (x : K) : Bool := Scalar.notFinite? x == some .undefined

/-- The middle of a list, and the mean of the two middle entries when their number is even. A list
that is empty or holds an undefined number has no middle: the quotient of two zeros stands for
it. -/
def median (xs : List K) : K :=
  let sorted := ascending xs
  let half := xs.length / 2
  let upper := sorted.getD half (Scalar.ofInt 0)
  if xs.isEmpty || xs.any isUndefined then Scalar.ratio 0 0
  else if xs.length % 2 = 1 then upper
  else (sorted.getD (half - 1) (Scalar.ofInt 0) + upper) / Scalar.ofInt 2

def medianDistance (centre : K) (xs : List K) : K :=
  median (xs.map fun x => Scalar.abs (x - centre))

def medianAndDeviation (xs : List K) : K × K :=
  let centre := median xs
  (centre, medianDistance centre xs)

def least? : List K → Option K
  | [] => none
  | x :: rest => some (rest.foldl Scalar.min x)

def greatest? : List K → Option K
  | [] => none
  | x :: rest => some (rest.foldl Scalar.max x)

end PageFlattening
