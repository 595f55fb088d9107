import PageFlattening.Grid
import PageFlattening.Value.Text

/-! Numeric arrays of any rank, as nested lists of numbers describe them. -/
namespace PageFlattening

/-- An array of numbers: its dimensions and its entries, the last index running fastest. -/
structure Shaped (K : Type) where
  dims : List Nat
  entries : List K

namespace Shaped

variable {K : Type} [Scalar K]

def single (x : K) : Shaped K := ⟨[], [x]⟩

def ofList (xs : List K) : Shaped K := ⟨[xs.length], xs⟩

def ofGrid (g : Grid K) : Shaped K := ⟨[g.height, g.width], g.cells.toList⟩

def stack : List (Shaped K) → Except Fault (Shaped K)
  | [] => .ok ⟨[0], []⟩
  | first :: rest =>
      if rest.all fun s => s.dims == first.dims then
        .ok ⟨(rest.length + 1) :: first.dims, first.entries ++ (rest.map (·.entries)).flatten⟩
      else .error (.misuse .shapesDiffer)

def grid? (s : Shaped K) : Option (Grid K) :=
  match s.dims with
  | [height, width] => Grid.ofList? height width s.entries
  | _ => none

def shapeText (s : Shaped K) : String := Text.shape s.dims

end Shaped

namespace Value

variable {K : Type} [Scalar K]

mutual

/-- The array that nested lists of numbers describe. Nothing counts as an undefined number. -/
def shaped : Value K → Except Fault (Shaped K)
  | .null => .ok (.single (Scalar.ratio 0 0))
  | .bool b => .ok (.single (Scalar.ofInt (if b then 1 else 0)))
  | .int n => .ok (.single (Scalar.ofInt n))
  | .real x => .ok (.single x)
  | .text _ => .error (.misuse .notANumber)
  | .list items =>
      match shapedItems items with
      | .ok parts => Shaped.stack parts
      | .error fault => .error fault
  | .table _ => .error (.misuse .wrongType)

def shapedItems : List (Value K) → Except Fault (List (Shaped K))
  | [] => .ok []
  | v :: rest =>
      match shaped v, shapedItems rest with
      | .ok part, .ok parts => .ok (part :: parts)
      | .error fault, _ => .error fault
      | _, .error fault => .error fault

end

def ofNumbers (xs : List K) : Value K := .list (xs.map .real)

def ofGrid (g : Grid K) : Value K := .list (g.rows.map ofNumbers)

end Value

end PageFlattening
