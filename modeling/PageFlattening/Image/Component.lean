import PageFlattening.Grid

/-! Connected components of a one-bit page: pixels that touch, also at a corner, belong together. -/
namespace PageFlattening

abbrev Pixel := Nat × Nat

abbrev Component := List Pixel

namespace Component

def around (p : Pixel) : List Pixel :=
  let (y, x) := p
  [(y - 1, x - 1), (y - 1, x), (y - 1, x + 1), (y, x - 1), (y, x), (y, x + 1),
   (y + 1, x - 1), (y + 1, x), (y + 1, x + 1)]

/-- What a fill has reached: which pixels of the page, and the pixels of the component so far. -/
structure Fill where
  seen : Array Bool
  found : Component

@[inline] def isNew (g : Grid Bool) (seen : Array Bool) (p : Pixel) : Bool :=
  g.get false p.1 p.2 && !seen.getD (p.1 * g.width + p.2) true

/-- Reaches pixels from a list of places to go to. Every pixel is taken up once and then adds the
nine places around it, so that nine steps for each pixel of the page and one more suffice. -/
def spread (g : Grid Bool) : Nat → Fill → List Pixel → Fill
  | 0, fill, _ => fill
  | _ + 1, fill, [] => fill
  | steps + 1, ⟨seen, found⟩, p :: rest =>
      if isNew g seen p then
        spread g steps ⟨seen.setIfInBounds (p.1 * g.width + p.2) true, p :: found⟩
          (around p ++ rest)
      else spread g steps ⟨seen, found⟩ rest

structure Search where
  seen : Array Bool
  components : List Component

def look (g : Grid Bool) (s : Search) (position : Nat) : Search :=
  let p : Pixel := (position / g.width, position % g.width)
  if isNew g s.seen p then
    let fill := spread g (9 * (g.height * g.width) + 1) ⟨s.seen, []⟩ [p]
    ⟨fill.seen, fill.found :: s.components⟩
  else s

/-- The components of a page, in the order in which their first pixels are met row by row. -/
def all (g : Grid Bool) : List Component :=
  let start : Search := ⟨Array.replicate (g.height * g.width) false, []⟩
  (Nat.fold (g.height * g.width) (fun position _ s => look g s position) start).components.reverse

structure Box where
  top : Nat
  left : Nat
  bottom : Nat
  right : Nat
deriving Repr, DecidableEq

def Box.height (b : Box) : Nat := b.bottom + 1 - b.top

def Box.width (b : Box) : Nat := b.right + 1 - b.left

def Box.include (b : Box) (p : Pixel) : Box :=
  ⟨min b.top p.1, min b.left p.2, max b.bottom p.1, max b.right p.2⟩

def box (c : Component) : Box :=
  match c with
  | [] => ⟨0, 0, 0, 0⟩
  | p :: rest => rest.foldl Box.include ⟨p.1, p.2, p.1, p.2⟩

end Component

end PageFlattening
