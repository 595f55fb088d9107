import PageFlattening.Fit.Statistics
import PageFlattening.Image.Morphology
import PageFlattening.Value.Basic

/-! Counting text columns: the page is clipped at its margins, words and lines are smeared to solid
blocks, and the smoothed number of set pixels in each column of pixels rises above one level inside
a text column and falls below a lower one in the gap after it. -/
namespace PageFlattening

/-- The levels of a gap and of a text column relative to the peak, and the part of the page that is
clipped on each side. -/
structure ColumnSettings (K : Type) where
  gap : K
  peak : K
  clip : K

namespace ColumnSettings

variable {K : Type} [Scalar K]

def standard : ColumnSettings K := ⟨Scalar.ratio 3 10, Scalar.ratio 1 2, Scalar.ratio 1 10⟩

/-- A position in a list; a negative one counts from the end. -/
def position (i : Int) (length : Nat) : Nat :=
  if i < 0 then ((length : Int) + i).toNat else min i.toNat length

def clipped (ink : Grid Bool) (top left : Int) : Grid Bool :=
  let y0 := position top ink.height
  let y1 := position ((ink.height : Int) - top) ink.height
  let x0 := position left ink.width
  let x1 := position ((ink.width : Int) - left) ink.width
  Grid.ofFn (y1 - y0) (x1 - x0) fun y x => ink.get false (y0 + y) (x0 + x)

def profile (ink : Grid Bool) : List Nat :=
  (List.range ink.width).map fun x =>
    Nat.fold ink.height (fun y _ count => if ink.get false y x then count + 1 else count) 0

/-- The moving average over a window, as long as the longer of list and window and centred in what
the full convolution gives. -/
def smooth (values : List K) (window : Nat) : List K :=
  let entries := values.toArray
  let weight := Scalar.ofInt 1 / Scalar.ofNat window
  let start := (min entries.size window - 1) / 2
  (List.range (max entries.size window)).map fun k =>
    let place := k + start
    Scalar.sum ((List.range window).map fun j =>
      if j ≤ place then entries.getD (place - j) (Scalar.ofInt 0) * weight else Scalar.ofInt 0)

structure Scan where
  inside : Bool
  count : Nat
deriving Repr, DecidableEq

/-- One value of the profile: a high one outside a column starts one, a low one inside ends it. -/
def scanStep (high low : K → Bool) (s : Scan) (v : K) : Scan :=
  if !s.inside && high v then ⟨true, s.count + 1⟩
  else if s.inside && low v then ⟨false, s.count⟩
  else s

def countRuns (s : ColumnSettings K) (values : List K) : Nat :=
  match greatest? values with
  | none => 0
  | some top =>
      if Scalar.ofInt 0 < top then
        (values.foldl (scanStep (fun v => decide (s.peak * top ≤ v))
          (fun v => decide (v < s.gap * top))) ⟨false, 0⟩).count
      else 0

def smoothedProfile (part : Grid Bool) : List K :=
  let blocks := (Window.mk 21 9).closing part
  smooth ((profile blocks).map Scalar.ofNat) (max 3 (part.width / 100))

def count (s : ColumnSettings K) (ink : Grid Bool) : Except Fault Nat := do
  let top ← Value.truncated (s.clip * Scalar.ofNat ink.height)
  let left ← Value.truncated (s.clip * Scalar.ofNat ink.width)
  let part := clipped ink top left
  if part.isEmpty then return 0
  return s.countRuns (smoothedProfile part)

end ColumnSettings

end PageFlattening
