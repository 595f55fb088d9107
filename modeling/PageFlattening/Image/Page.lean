import PageFlattening.Grid
import PageFlattening.Value.Text

/-! Pages: one bit per pixel with ink set, gray, or colour. -/
namespace PageFlattening

structure Rgb where
  red : UInt8
  green : UInt8
  blue : UInt8
deriving Repr, DecidableEq

def Rgb.white : Rgb := ⟨255, 255, 255⟩

inductive Page where
  | bit (ink : Grid Bool)
  | gray (levels : Grid UInt8)
  | color (colors : Grid Rgb)

namespace Page

def height : Page → Nat
  | bit g => g.height
  | gray g => g.height
  | color g => g.height

def width : Page → Nat
  | bit g => g.width
  | gray g => g.width
  | color g => g.width

def pixelType : Page → String
  | bit _ => "bool"
  | _ => "uint8"

def dims : Page → List Nat
  | bit g => [g.height, g.width]
  | gray g => [g.height, g.width]
  | color g => [g.height, g.width, 3]

def isBit : Page → Bool
  | bit _ => true
  | _ => false

def check (p : Page) : Except Fault Unit :=
  if p.height = 0 ∨ p.width = 0 then .error (.image .empty) else .ok ()

def inkLevels (g : Grid Bool) : Grid UInt8 := g.map fun ink => if ink then 0 else 255

/-- A page as it is written to a file: ink becomes black on white. -/
def stored : Page → Page
  | bit g => gray (inkLevels g)
  | other => other

end Page

end PageFlattening
