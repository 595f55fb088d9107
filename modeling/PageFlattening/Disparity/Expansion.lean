import PageFlattening.Disparity.Field

/-! Fields at full resolution. Between samples values are interpolated bilinearly; to the right of
the samples and below them a field goes on with the slope of its last two columns and rows, or with
the slope of another field. -/
namespace PageFlattening

namespace Grid

variable {K : Type} [Scalar K]

def value (g : Grid K) (y x : Nat) : K := g.get (Scalar.ofInt 0) y x

def between (a b : K) (step factor : Nat) : K :=
  let t := Scalar.ofNat step / Scalar.ofNat factor
  a * (Scalar.ofInt 1 - t) + b * t

def stretchRows (g : Grid K) (factor : Nat) : Grid K :=
  if factor = 1 ∨ g.height = 1 then g
  else
    ofFn ((g.height - 1) * factor + 1) g.width fun y x =>
      let i := min (y / factor) (g.height - 2)
      between (g.value i x) (g.value (i + 1) x) (y - i * factor) factor

def stretchColumns (g : Grid K) (factor : Nat) : Grid K :=
  if factor = 1 ∨ g.width = 1 then g
  else
    ofFn g.height ((g.width - 1) * factor + 1) fun y x =>
      let j := min (x / factor) (g.width - 2)
      between (g.value y j) (g.value y (j + 1)) (x - j * factor) factor

/-- The difference of the last two entries of a row; the only row of a grid serves every row. -/
def rowRise (g : Grid K) (y : Nat) : K :=
  let row := if g.height = 1 then 0 else y
  if g.width < 2 then Scalar.ofInt 0 else g.value row (g.width - 1) - g.value row (g.width - 2)

/-- The difference of the last two entries of a column; the only column of a grid serves every
column. -/
def columnRise (g : Grid K) (x : Nat) : K :=
  let column := if g.width = 1 then 0 else x
  if g.height < 2 then Scalar.ofInt 0
  else g.value (g.height - 1) column - g.value (g.height - 2) column

def growRight (g source : Grid K) (count : Nat) : Grid K :=
  let rises := ((List.range g.height).map source.rowRise).toArray
  ofFn g.height (g.width + count) fun y x =>
    if x < g.width then g.value y x
    else g.value y (g.width - 1) +
      rises.getD y (Scalar.ofInt 0) * Scalar.ofNat (x - g.width + 1)

def growDown (g source : Grid K) (count : Nat) : Grid K :=
  let rises := ((List.range g.width).map source.columnRise).toArray
  ofFn (g.height + count) g.width fun y x =>
    if y < g.height then g.value y x
    else g.value (g.height - 1) x +
      rises.getD x (Scalar.ofInt 0) * Scalar.ofNat (y - g.height + 1)

def fits (length whole : Nat) : Bool := length == whole || length == 1

/-- Extends a grid to the right and then below. Without a source each step continues the slope of
what is there; a source is extended by its own slope, and supplies both. -/
def extend (g : Grid K) (right bottom : Int) (source : Option (Grid K)) :
    Except Fault (Grid K) := do
  let across := right.toNat
  if 0 < across ∧ !fits (source.getD g).height g.height then .error (.misuse .shapesDiffer)
  let wide := if across = 0 then g else g.growRight (source.getD g) across
  let wideSource := if across = 0 then source else source.map fun s => s.growRight s across
  let down := bottom.toNat
  if 0 < down ∧ !fits (wideSource.getD wide).width wide.width then .error (.misuse .shapesDiffer)
  return if down = 0 then wide else wide.growDown (wideSource.getD wide) down

/-- How many of the first entries a bound keeps; a negative bound counts from the end. -/
def kept (bound : Int) (length : Nat) : Nat :=
  if bound < 0 then ((length : Int) + bound).toNat else min bound.toNat length

end Grid

namespace Field

variable {K : Type} [Scalar K]

def interpolated (f : Field K) (factor : Nat) (multiplier : K) : Grid K :=
  let full := (f.samples.stretchRows factor).stretchColumns factor
  if multiplier == Scalar.ofInt 1 then full else full.map (· * multiplier)

/-- A field at full resolution: `factor` pixels between samples, displacements multiplied, and
exactly the width and height asked for. Where they exceed the interpolated extent the field is
extended, by the slope of another field if one is given; that field must then have as many
samples. -/
def expand (f : Field K) (factor : Int) (width height : Option Int) (multiplier : K)
    (slope : Option (Field K)) : Except Fault (Grid K) := do
  if factor < 1 then .error (.argument (.factor factor))
  let full := f.interpolated factor.toNat multiplier
  let w := width.getD full.width
  let h := height.getD full.height
  let addWidth := w - full.width
  let addHeight := h - full.height
  let whole ←
    if addWidth ≤ 0 ∧ addHeight ≤ 0 then pure full
    else
      match slope with
      | none => full.extend addWidth addHeight none
      | some s =>
          let source := s.interpolated factor.toNat multiplier
          if source.height ≠ full.height ∨ source.width ≠ full.width then
            .error (.argument .slopeGrid)
          else full.extend addWidth addHeight (some source)
  let keptHeight := Grid.kept h whole.height
  let keptWidth := Grid.kept w whole.width
  if keptHeight = whole.height ∧ keptWidth = whole.width then return whole
  return whole.crop (Scalar.ofInt 0) keptHeight keptWidth

end Field

end PageFlattening
