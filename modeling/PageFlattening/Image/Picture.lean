import PageFlattening.Image.Page

/-! Pictures as image files hold them, and the pages that they are converted to. Bilevel, gray and
colour pictures are pages already; transparency is dropped, inks and palettes become colours, and
everything else becomes gray. -/
namespace PageFlattening

/-- A picture of one of the usual modes. A bilevel picture is given by its white pixels. -/
inductive Picture where
  | bilevel (white : Grid Bool)
  | gray (levels : Grid UInt8)
  | color (colors : Grid Rgb)
  | colorAlpha (pixels : Grid (Rgb × UInt8))
  | grayAlpha (pixels : Grid (UInt8 × UInt8))
  | palette (indices : Grid Nat) (colors : Array Rgb)
  | inks (pixels : Grid (Rgb × UInt8))
  | integers (values : Grid Int)
  | reals (values : Grid Float)
  | lumaChroma (pixels : Grid (UInt8 × UInt8 × UInt8))
  | other

namespace Picture

def clip (n : Int) : UInt8 := (max 0 (min n 255)).toNat.toUInt8

def scaleLevel (a b : Nat) : Nat :=
  let t := a * b + 128
  (t / 256 + t) / 256

def channelOfInk (ink black : UInt8) : UInt8 :=
  let light := 255 - black.toNat
  (light - scaleLevel ink.toNat light).toUInt8

def colorOfInks (inks : Rgb) (black : UInt8) : Rgb :=
  ⟨channelOfInk inks.red black, channelOfInk inks.green black, channelOfInk inks.blue black⟩

def levelOfReal (x : Float) : UInt8 := clip (Decimal.truncate x)

def toPage : Picture → Except Fault Page
  | bilevel g => .ok (.bit (g.map (!·)))
  | gray g => .ok (.gray g)
  | color g => .ok (.color g)
  | colorAlpha g => .ok (.color (g.map (·.1)))
  | grayAlpha g => .ok (.color (g.map fun p => ⟨p.1, p.1, p.1⟩))
  | palette g colors => .ok (.color (g.map fun i => colors.getD i ⟨0, 0, 0⟩))
  | inks g => .ok (.color (g.map fun p => colorOfInks p.1 p.2))
  | integers g => .ok (.gray (g.map clip))
  | reals g => .ok (.gray (g.map levelOfReal))
  | lumaChroma g => .ok (.gray (g.map (·.1)))
  | other => .error (.misuse .unsupportedConversion)

def ofPage : Page → Picture
  | .bit g => bilevel (g.map (!·))
  | .gray g => gray g
  | .color g => color g

def mode : Picture → String
  | bilevel _ => "1"
  | gray _ => "L"
  | color _ => "RGB"
  | colorAlpha _ => "RGBA"
  | grayAlpha _ => "LA"
  | palette _ _ => "P"
  | inks _ => "CMYK"
  | integers _ => "I"
  | reals _ => "F"
  | lumaChroma _ => "YCbCr"
  | other => "La"

end Picture

end PageFlattening
