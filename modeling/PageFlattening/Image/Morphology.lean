import PageFlattening.Grid

/-! Dilation and erosion of one-bit pages by rectangular windows. The window of a pixel reaches half
its size, rounded down, above and to the left; pixels outside the page are left out of it. The same
window serves both operations, so that a closing by a window of even size moves the page. -/
namespace PageFlattening

structure Window where
  height : Nat
  width : Nat
deriving Repr, DecidableEq

namespace Window

@[inline] def anySet (k : Window) (g : Grid Bool) (y x : Nat) : Bool :=
  Nat.any k.height fun i _ =>
    k.height / 2 ≤ y + i &&
      Nat.any k.width fun j _ =>
        k.width / 2 ≤ x + j && g.get false (y + i - k.height / 2) (x + j - k.width / 2)

@[inline] def allSet (k : Window) (g : Grid Bool) (y x : Nat) : Bool :=
  Nat.all k.height fun i _ =>
    y + i < k.height / 2 ||
      Nat.all k.width fun j _ =>
        x + j < k.width / 2 || g.get true (y + i - k.height / 2) (x + j - k.width / 2)

def dilate (k : Window) (g : Grid Bool) : Grid Bool := Grid.ofFn g.height g.width (k.anySet g)

def erode (k : Window) (g : Grid Bool) : Grid Bool := Grid.ofFn g.height g.width (k.allSet g)

def closing (k : Window) (g : Grid Bool) : Grid Bool := k.erode (k.dilate g)

def opening (k : Window) (g : Grid Bool) : Grid Bool := k.dilate (k.erode g)

end Window

end PageFlattening
