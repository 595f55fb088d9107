import PageFlattening.Disparity.Expansion
import PageFlattening.Image.Source

/-! Pages moved by displacement arrays. A pixel takes its value from the source pixel at its own
place less its displacement: the nearest one on a page of one bit per pixel, between the four
around it otherwise. What comes from outside the page is background. -/
namespace PageFlattening

variable {K : Type} [Scalar K]

/-- Whether a coordinate is more than half a pixel away from the page. -/
def offPage (coordinate : K) (size : Nat) : Bool :=
  decide (coordinate < Scalar.ratio (-1) 2) ||
    decide (Scalar.ofNat size - Scalar.ratio 1 2 < coordinate)

def ontoPage (coordinate : K) (size : Nat) : K :=
  Scalar.max (Scalar.ofInt 0) (Scalar.min coordinate (Scalar.ofInt ((size : Int) - 1)))

def nearestPixel {α : Type} (g : Grid α) (outside : α) (x y : K) : α :=
  g.get outside (Scalar.nearest y).toNat (Scalar.nearest x).toNat

/-- A number between the values of the four pixels around a point, by its distances from them. -/
def blend (g : Nat → Nat → K) (height width : Nat) (x y : K) : K :=
  let x0 := (Scalar.trunc x).toNat
  let y0 := (Scalar.trunc y).toNat
  let x1 := min (x0 + 1) (width - 1)
  let y1 := min (y0 + 1) (height - 1)
  let fx := x - Scalar.ofNat x0
  let fy := y - Scalar.ofNat y0
  let gx := Scalar.ofInt 1 - fx
  let gy := Scalar.ofInt 1 - fy
  g y0 x0 * gx * gy + g y0 x1 * fx * gy + g y1 x0 * gx * fy + g y1 x1 * fx * fy

def levelOf (x : K) : UInt8 := Picture.clip (Scalar.nearest x)

def blendLevel (g : Grid UInt8) (x y : K) : UInt8 :=
  levelOf (blend (fun v u => Scalar.ofNat (g.get 255 v u).toNat) g.height g.width x y)

def blendColor (g : Grid Rgb) (x y : K) : Rgb :=
  let channel := fun (pick : Rgb → UInt8) =>
    levelOf (blend (fun v u => Scalar.ofNat (pick (g.get .white v u)).toNat) g.height g.width x y)
  ⟨channel (·.red), channel (·.green), channel (·.blue)⟩

@[inline] def gather {α : Type} (g : Grid α) (background : α) (read : K → K → α)
    (point : Nat → Nat → K × K) : Grid α :=
  Grid.ofFn g.height g.width fun y x =>
    let (u, v) := point y x
    if offPage u g.width || offPage v g.height then background
    else read (ontoPage u g.width) (ontoPage v g.height)

namespace Page

def remap (p : Page) (point : Nat → Nat → K × K) : Page :=
  match p with
  | bit g => bit (gather g false (nearestPixel g false) point)
  | gray g => gray (gather g 255 (blendLevel g) point)
  | color g => color (gather g Rgb.white (blendColor g) point)

def checkDisplacement (p : Page) (displacement : Shaped K) : Except Fault (Grid K) := do
  p.check
  match displacement.grid? with
  | some g =>
      if g.height = p.height ∧ g.width = p.width then .ok g
      else .error (.argument (.displacementShape displacement.shapeText
        (Text.shape [p.height, p.width])))
  | none => .error (.argument (.displacementShape displacement.shapeText
      (Text.shape [p.height, p.width])))

def moveVertically (p : Page) (displacement : Grid K) : Page :=
  p.remap fun y x => (Scalar.ofNat x, Scalar.ofNat y - displacement.value y x)

def moveHorizontally (p : Page) (displacement : Grid K) : Page :=
  p.remap fun y x => (Scalar.ofNat x - displacement.value y x, Scalar.ofNat y)

def applyVertical (p : Page) (displacement : Shaped K) : Except Fault Page := do
  return p.moveVertically (← p.checkDisplacement displacement)

def applyHorizontal (p : Page) (displacement : Shaped K) : Except Fault Page := do
  return p.moveHorizontally (← p.checkDisplacement displacement)

def displace (p : Page) (vertical : Shaped K) (horizontal : Option (Shaped K)) :
    Except Fault Page := do
  let moved ← p.applyVertical vertical
  match horizontal with
  | some d => moved.applyHorizontal d
  | none => return moved

end Page

end PageFlattening
