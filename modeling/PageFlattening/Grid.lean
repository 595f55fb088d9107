/-! Rectangular grids of cells, addressed by row and column. Pages, sampled fields and displacement
arrays are grids; every operation on them is given cell by cell. -/
namespace PageFlattening

/-- A rectangle of cells stored row by row. -/
structure Grid (α : Type) where
  height : Nat
  width : Nat
  cells : Array α
  size_eq : cells.size = height * width

namespace Grid

variable {α β : Type}

@[inline] def ofFn (height width : Nat) (f : Nat → Nat → α) : Grid α where
  height
  width
  cells := Array.ofFn fun i : Fin (height * width) => f (i.val / width) (i.val % width)
  size_eq := by simp

/-- The cell in row `y` and column `x`, or `outside` where there is none. -/
@[inline] def get (g : Grid α) (outside : α) (y x : Nat) : α :=
  if x < g.width then g.cells.getD (y * g.width + x) outside else outside

def replicate (height width : Nat) (a : α) : Grid α := ofFn height width fun _ _ => a

@[inline] def map (f : α → β) (g : Grid α) : Grid β where
  height := g.height
  width := g.width
  cells := g.cells.map f
  size_eq := by simp [g.size_eq]

def row (g : Grid α) (y : Nat) : List α :=
  (g.cells.extract (y * g.width) ((y + 1) * g.width)).toList

def rows (g : Grid α) : List (List α) := (List.range g.height).map g.row

def isEmpty (g : Grid α) : Bool := g.height == 0 || g.width == 0

def crop (g : Grid α) (outside : α) (height width : Nat) : Grid α :=
  ofFn (min height g.height) (min width g.width) (g.get outside)

def ofList? (height width : Nat) (cells : List α) : Option (Grid α) :=
  if fits : cells.length = height * width then
    some { height, width, cells := cells.toArray, size_eq := by simpa using fits }
  else none

@[simp] theorem height_ofFn (height width : Nat) (f : Nat → Nat → α) :
    (ofFn height width f).height = height := rfl

@[simp] theorem width_ofFn (height width : Nat) (f : Nat → Nat → α) :
    (ofFn height width f).width = width := rfl

theorem position_lt {height width y x : Nat} (row : y < height) (column : x < width) :
    y * width + x < height * width := by
  have step : (y + 1) * width ≤ height * width := Nat.mul_le_mul_right _ row
  have open_ : (y + 1) * width = y * width + width := by rw [Nat.add_mul, Nat.one_mul]
  omega

theorem get_ofFn {height width y x : Nat} (f : Nat → Nat → α) (outside : α)
    (row : y < height) (column : x < width) :
    (ofFn height width f).get outside y x = f y x := by
  have inside := position_lt row column
  have quotient : (y * width + x) / width = y := by
    rw [Nat.mul_comm, Nat.mul_add_div (by omega), Nat.div_eq_of_lt column, Nat.add_zero]
  have rest : (y * width + x) % width = x := by
    rw [Nat.mul_comm, Nat.mul_add_mod, Nat.mod_eq_of_lt column]
  simp [get, ofFn, column, inside, quotient, rest]

theorem get_outside {g : Grid α} {outside : α} {y x : Nat}
    (away : g.height ≤ y ∨ g.width ≤ x) : g.get outside y x = outside := by
  unfold get
  split
  · rename_i column
    have beyond : g.cells.size ≤ y * g.width + x := by
      rcases away with below | right
      · have step : g.height * g.width ≤ y * g.width := Nat.mul_le_mul_right _ below
        rw [g.size_eq]
        omega
      · omega
    simp [Array.getD, Nat.not_lt.mpr beyond]
  · rfl

end Grid

end PageFlattening
