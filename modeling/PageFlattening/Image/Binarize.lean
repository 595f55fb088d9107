import PageFlattening.Image.Source
import PageFlattening.Scalar

/-! Pages made one bit per pixel. The threshold is fixed, or it is the level that separates the
histogram into two classes of greatest variance between them. -/
namespace PageFlattening

def Rgb.luma (c : Rgb) : UInt8 :=
  ((9798 * c.red.toNat + 19235 * c.green.toNat + 3735 * c.blue.toNat + 16384) / 32768).toUInt8

def histogram (g : Grid UInt8) : Array Nat :=
  g.cells.foldl (fun counts level => counts.modify level.toNat (· + 1)) (Array.replicate 256 0)

/-- The state of the search for the best threshold: weight and mean of the darker class, and the
best level so far with its variance. -/
structure SplitSearch (K : Type) where
  weight : K
  mean : K
  best : Nat
  variance : K

namespace SplitSearch

variable {K : Type} [Scalar K]

/-- A class lighter than this is no class. -/
def leastWeight : K := Scalar.ratio 1 8388608

/-- Moves one level into the darker class and compares the variance between the classes. A split
that leaves one class all but empty is passed over. -/
def step (scale total : K) (s : SplitSearch K) (level count : Nat) : SplitSearch K :=
  let share := Scalar.ofNat count * scale
  let moment := s.mean * s.weight
  let weight := s.weight + share
  let other := Scalar.ofInt 1 - weight
  if Scalar.min weight other < leastWeight ∨
      Scalar.ofInt 1 - leastWeight < Scalar.max weight other then
    { s with weight, mean := moment }
  else
    let mean := (moment + Scalar.ofNat level * share) / weight
    let otherMean := (total - weight * mean) / other
    let variance := weight * other * (mean - otherMean) * (mean - otherMean)
    if s.variance < variance then { weight, mean, best := level, variance }
    else { s with weight, mean }

def run (counts : List Nat) : SplitSearch K :=
  let scale := Scalar.ofInt 1 / Scalar.ofNat (counts.foldl (· + ·) 0)
  let total := Scalar.sum (counts.zipIdx.map fun e => Scalar.ofNat (e.2 * e.1)) * scale
  counts.zipIdx.foldl (fun s e => s.step scale total e.2 e.1)
    { weight := Scalar.ofInt 0, mean := Scalar.ofInt 0, best := 0, variance := Scalar.ofInt 0 }

end SplitSearch

def bestThreshold (K : Type) [Scalar K] (g : Grid UInt8) : Nat :=
  (SplitSearch.run (histogram g).toList : SplitSearch K).best

def darkPixels (g : Grid UInt8) (threshold : Int) : Grid Bool :=
  g.map fun level => decide ((level.toNat : Int) ≤ threshold)

/-- The dark pixels of a gray page. A threshold of zero or less stands for the best one. -/
def separate (K : Type) [Scalar K] (g : Grid UInt8) (threshold : Int) : Grid Bool :=
  darkPixels g (if 0 < threshold then threshold else bestThreshold K g)

def Page.binarize (K : Type) [Scalar K] (p : Page) (threshold : Int) : Grid Bool :=
  match p with
  | .bit g => g
  | .gray g => separate K g threshold
  | .color g => separate K (g.map Rgb.luma) threshold

def Source.binarize (K : Type) [Scalar K] (source : Source) (threshold : Int) :
    Except Fault (Grid Bool) := do
  return (← source.load).binarize K threshold

/-- Set pixels as ones. A side of odd length is made even by zeros at its end. -/
def padded (g : Grid Bool) : Grid Nat :=
  Grid.ofFn (g.height + g.height % 2) (g.width + g.width % 2) fun y x => (g.get false y x).toNat

/-- The sums over blocks of two by two. The cells, row by row, are taken as an array whose sides are
half the height, two, half the width and two, and are added up over the sides of two. -/
def blockSums (g : Grid Nat) : Grid Nat :=
  let columns := g.width / 2
  Grid.ofFn (g.height / 2) columns fun y x =>
    ((List.range 2).flatMap fun dy => (List.range 2).map fun dx =>
      g.cells.getD (((y * 2 + dy) * columns + x) * 2 + dx) 0).foldl (· + ·) 0

def reduceRank (g : Grid Bool) (level : Nat) : Grid Bool :=
  (blockSums (padded g)).map fun count => decide (level ≤ count)

def checkRank {K : Type} [Scalar K] (v : Value K) : Except Fault Nat :=
  match [1, 2, 3, 4].find? fun k : Nat => v.equalsInt k with
  | some k => .ok k
  | none => .error (.argument (.rankLevel v.plain))

def Source.reduce {K : Type} [Scalar K] (source : Source) (level : Value K) :
    Except Fault (Grid Bool) := do
  let rank ← checkRank level
  return reduceRank (← source.loadBit) rank

end PageFlattening
