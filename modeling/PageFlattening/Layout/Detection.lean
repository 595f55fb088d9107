import PageFlattening.Image.Component
import PageFlattening.Image.Morphology
import PageFlattening.Layout.TextLine

/-! Finding the text lines of a one-bit page: characters are joined to lines by a closing along x,
specks are removed by a small opening along y, and each component that is large enough gives a line
through the mean rows of its columns. -/
namespace PageFlattening

/-- What is found as a line: the width of the closing that joins words, and the least width and
height of a component. -/
structure DetectionSettings where
  closeWidth : Nat
  minWidth : Int
  minHeight : Int
deriving Repr, DecidableEq

def DetectionSettings.standard : DetectionSettings := ⟨30, 100, 4⟩

namespace TextLine

variable {K : Type} [Scalar K]

def columnSums (c : Component) (left width : Nat) : Array (Nat × Nat) :=
  c.foldl (fun table p =>
    table.modify (p.2 - left) fun e => (e.1 + 1, e.2 + p.1)) (Array.replicate width (0, 0))

/-- The line through a component: in each column that it covers, the mean of its rows. -/
def ofComponent (c : Component) : TextLine K :=
  let box := c.box
  (columnSums c box.left box.width).toList.zipIdx.filterMap fun (e, j) =>
    if e.1 = 0 then none
    else some (Scalar.ofNat (box.left + j), Scalar.ofNat e.2 / Scalar.ofNat e.1)

def largeEnough (s : DetectionSettings) (c : Component) : Bool :=
  decide (s.minWidth ≤ c.box.width) && decide (s.minHeight ≤ c.box.height)

def joined (s : DetectionSettings) (ink : Grid Bool) : Grid Bool :=
  (Window.mk 3 1).opening ((Window.mk 1 s.closeWidth).closing ink)

def detect (s : DetectionSettings) (ink : Grid Bool) : List (TextLine K) :=
  ((Component.all (joined s ink)).filter (largeEnough s)).map ofComponent

def detectLong (ink : Grid Bool) : List (TextLine K) := long longFraction (detect .standard ink)

end TextLine

end PageFlattening
