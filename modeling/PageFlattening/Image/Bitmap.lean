import PageFlattening.Image.Picture

/-! Uncompressed bitmap files: one, eight, twenty-four or thirty-two bits per pixel are read, gray
and colour pages are written. Rows are stored from the bottom up and filled to multiples of four
bytes, numbers with their low byte first, and colours in the order blue, green, red. -/
namespace PageFlattening.Bitmap

def word : Nat → Nat → List UInt8
  | 0, _ => []
  | count + 1, n => (n % 256).toUInt8 :: word count (n / 256)

def rowLength (bytes : Nat) : Nat := (bytes + 3) / 4 * 4

def filled (row : List UInt8) : List UInt8 :=
  row ++ List.replicate (rowLength row.length - row.length) 0

def headerLength : Nat := 54

def file (width height depth : Nat) (palette : List UInt8) (rows : List (List UInt8)) :
    List UInt8 :=
  let body := (rows.reverse.map filled).flatten
  let start := headerLength + palette.length
  [0x42, 0x4d] ++ word 4 (start + body.length) ++ word 4 0 ++ word 4 start ++
    word 4 40 ++ word 4 width ++ word 4 height ++ word 2 1 ++ word 2 depth ++ word 4 0 ++
    word 4 body.length ++ word 4 0 ++ word 4 0 ++ word 4 (palette.length / 4) ++ word 4 0 ++
    palette ++ body

def grayPalette : List UInt8 :=
  (List.range 256).flatMap fun n => [n.toUInt8, n.toUInt8, n.toUInt8, 0]

def ofGray (g : Grid UInt8) : List UInt8 := file g.width g.height 8 grayPalette g.rows

def ofColor (g : Grid Rgb) : List UInt8 :=
  file g.width g.height 24 [] (g.rows.map fun row => row.flatMap fun c => [c.blue, c.green, c.red])

def encode : Page → List UInt8
  | .bit g => ofGray (Page.inkLevels g)
  | .gray g => ofGray g
  | .color g => ofColor g

def byte (b : ByteArray) (i : Nat) : Nat := (b[i]?.map UInt8.toNat).getD 0

def number (b : ByteArray) (start : Nat) : Nat → Nat
  | 0 => 0
  | count + 1 => byte b start + 256 * number b (start + 1) count

/-- What the headers of a file say: where pixels and palette start, the size of the page, the bits
of a pixel, and whether the rows are stored from the top down. -/
structure Header where
  start : Nat
  palette : Nat
  width : Nat
  height : Nat
  depth : Nat
  topDown : Bool
deriving Repr, DecidableEq

/-- The headers, if the file is an uncompressed bitmap that holds all its rows. -/
def header? (b : ByteArray) : Option Header :=
  let size := number b 14 4
  let signed := number b 22 4
  let topDown := decide (Nat.pow 2 31 ≤ signed)
  let h : Header :=
    { start := number b 10 4, palette := 14 + size, width := number b 18 4
      height := if topDown then Nat.pow 2 32 - signed else signed, depth := number b 28 2, topDown }
  let stored := rowLength ((h.width * h.depth + 7) / 8) * h.height
  if byte b 0 = 0x42 ∧ byte b 1 = 0x4d ∧ 40 ≤ size ∧ number b 30 4 = 0 ∧
      0 < h.width ∧ 0 < h.height ∧ h.start + stored ≤ b.size then some h
  else none

def Header.row (h : Header) (y : Nat) : Nat :=
  h.start + rowLength ((h.width * h.depth + 7) / 8) * (if h.topDown then y else h.height - 1 - y)

def colorAt (b : ByteArray) (i : Nat) : Rgb :=
  ⟨(byte b (i + 2)).toUInt8, (byte b (i + 1)).toUInt8, (byte b i).toUInt8⟩

def Header.entry (h : Header) (b : ByteArray) (n : Nat) : Rgb := colorAt b (h.palette + 4 * n)

/-- The colours of the palette, as many as there is room for before the pixels. -/
def Header.colors (h : Header) (b : ByteArray) : Array Rgb :=
  (Array.range (min 256 ((h.start - h.palette) / 4))).map (h.entry b)

/-- One bit of a row, the high bit of a byte first. -/
def Header.bit (h : Header) (b : ByteArray) (y x : Nat) : Bool :=
  (byte b (h.row y + x / 8) / Nat.pow 2 (7 - x % 8)) % 2 == 1

def isGray (colors : Array Rgb) : Bool :=
  colors.size == 256 &&
    (List.range 256).all fun n => colors.getD n .white == ⟨n.toUInt8, n.toUInt8, n.toUInt8⟩

def decode? (b : ByteArray) : Option Picture := do
  let h ← header? b
  let bytes := h.depth / 8
  match h.depth with
  | 1 =>
      if h.entry b 0 = ⟨0, 0, 0⟩ ∧ h.entry b 1 = .white then
        some (.bilevel (.ofFn h.height h.width (h.bit b)))
      else
        some (.palette (.ofFn h.height h.width fun y x => (h.bit b y x).toNat) (h.colors b))
  | 8 =>
      let colors := h.colors b
      if isGray colors then
        some (.gray (.ofFn h.height h.width fun y x => (byte b (h.row y + x)).toUInt8))
      else some (.palette (.ofFn h.height h.width fun y x => byte b (h.row y + x)) colors)
  | 24 | 32 => some (.color (.ofFn h.height h.width fun y x => colorAt b (h.row y + bytes * x)))
  | _ => none

end PageFlattening.Bitmap
