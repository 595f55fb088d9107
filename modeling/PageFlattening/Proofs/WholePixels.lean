import Mathlib
import PageFlattening.Proofs.Interpolation
import PageFlattening.Proofs.RationalFits
import PageFlattening.Proofs.SafeRendering

/-! Pages moved by whole pixels. At a whole coordinate reading between pixels gives the pixel
itself, and a coordinate is more than half a pixel off the page only if it is off the page. So each
pass copies pixels, the second from what the first has made, and together they read the source at
the displaced column and at the row that is displaced there. -/
namespace PageFlattening

namespace Grid

variable {α β : Type}

theorem get_map (f : α → β) (g : Grid α) (outside : α) (y x : Nat) :
    (g.map f).get (f outside) y x = f (g.get outside y x) := by
  change (if x < g.width then (g.cells.map f).getD (y * g.width + x) (f outside) else f outside) = _
  rw [get]
  split
  · rw [Array.getD_eq_getD_getElem?, Array.getD_eq_getD_getElem?, Array.getElem?_map,
      Option.getD_map]
  · rfl

def rational (w : Grid Int) : Grid Rat := w.map fun n : Int => (n : Rat)

theorem value_rational (w : Grid Int) (y x : Nat) : w.rational.value y x = (w.get 0 y x : Int) :=
  get_map (fun n : Int => (n : Rat)) w 0 y x

def pixel (g : Grid α) (background : α) (y x : Int) : α :=
  if (0 ≤ y ∧ y < g.height) ∧ 0 ≤ x ∧ x < g.width then g.get background y.toNat x.toNat
  else background

/-- A grid moved by arrays of whole numbers: a cell is read at the column that is displaced here and
at the row that is displaced there. -/
def moved (g : Grid α) (background : α) (v d : Grid Int) : Grid α :=
  ofFn g.height g.width fun y x =>
    let u : Int := x - d.get 0 y x
    if u < 0 ∨ g.width ≤ u then background
    else
      let t : Int := y - v.get 0 y u.toNat
      if t < 0 ∨ g.height ≤ t then background else g.get background t.toNat u.toNat

def shifted (g : Grid α) (background : α) (down right : Int) : Grid α :=
  ofFn g.height g.width fun y x => g.pixel background (y - down) (x - right)

end Grid

/-! ### Whole coordinates -/

theorem ratNearest_intCast (n : Int) : ratNearest (n : Rat) = n := by
  have rest : 2 * ((n : Rat) - (n : Rat)) < 1 := by norm_num
  rw [ratNearest, Rat.floor_intCast, if_pos rest]

theorem ratTrunc_intCast (n : Int) : Scalar.trunc (n : Rat) = n := by
  change ((n : Rat).num.tdiv ((n : Rat).den : Int)) = n
  simp

theorem offPage_intCast (n : Int) (size : Nat) :
    offPage (n : Rat) size = true ↔ n < 0 ∨ (size : Int) ≤ n := by
  have low : (n : Rat) < ((-1 : Int) : Rat) / ((2 : Int) : Rat) ↔ n < 0 := by
    constructor
    · intro less
      have below : (n : Rat) < (0 : Int) := by push_cast at less ⊢; linarith
      exact_mod_cast below
    · intro less
      have below : (n : Rat) ≤ ((-1 : Int) : Rat) := by exact_mod_cast Int.le_sub_one_of_lt less
      push_cast at below ⊢
      linarith
  have high : ((size : Int) : Rat) - ((1 : Int) : Rat) / ((2 : Int) : Rat) < (n : Rat) ↔
      (size : Int) ≤ n := by
    constructor
    · intro less
      have above : (((size : Int) - 1 : Int) : Rat) < (n : Rat) := by push_cast at less ⊢; linarith
      exact Int.le_of_sub_one_lt (by exact_mod_cast above)
    · intro least
      have above : ((size : Int) : Rat) ≤ (n : Rat) := by exact_mod_cast least
      push_cast at above ⊢
      linarith
  rw [offPage, Bool.or_eq_true, decide_eq_true_iff, decide_eq_true_iff]
  exact or_congr low high

theorem ontoPage_natCast {n size : Nat} (inside : n < size) :
    ontoPage (n : Rat) size = (n : Rat) := by
  have last : (n : Rat) ≤ (((size : Int) - 1 : Int) : Rat) := by
    exact_mod_cast (show (n : Int) ≤ (size : Int) - 1 by omega)
  rw [ontoPage, scalarMax_eq, scalarMin_eq]
  change max ((0 : Int) : Rat) (min (n : Rat) (((size : Int) - 1 : Int) : Rat)) = n
  rw [min_eq_left last]
  exact max_eq_right (by exact_mod_cast Nat.zero_le n)

theorem blend_natCast (f : Nat → Nat → Rat) (height width y x : Nat) :
    blend f height width (x : Rat) (y : Rat) = f y x := by
  have whole : ∀ n : Nat, (Scalar.trunc (n : Rat)).toNat = n := fun n => by
    rw [← Int.cast_natCast, ratTrunc_intCast, Int.toNat_natCast]
  have part : ∀ n : Nat, (n : Rat) - Scalar.ofNat n = 0 := fun n => sub_self _
  simp only [blend, whole, part]
  change f y x * (((1 : Int) : Rat) - 0) * (((1 : Int) : Rat) - 0) +
    _ * 0 * _ + _ * _ * 0 + _ * 0 * 0 = f y x
  push_cast
  ring

theorem levelOf_toNat (level : UInt8) : levelOf (Scalar.ofNat level.toNat : Rat) = level := by
  change Picture.clip (ratNearest ((level.toNat : Int) : Rat)) = level
  have most := level.toNat_lt
  have kept : (max 0 (min (level.toNat : Int) 255)).toNat = level.toNat := by omega
  rw [ratNearest_intCast, Picture.clip, kept, Nat.toUInt8, UInt8.ofNat_toNat]

/-! ### Passes by whole pixels -/

def ReadsCells {α : Type} (background : α) (read : Grid α → Rat → Rat → α) : Prop :=
  ∀ (g : Grid α) (y x : Nat), y < g.height → x < g.width →
    read g (x : Rat) (y : Rat) = g.get background y x

theorem nearestPixel_readsCells {α : Type} (background : α) :
    ReadsCells background fun g => nearestPixel g background := by
  intro g y x _ _
  have whole : ∀ n : Nat, (Scalar.nearest (n : Rat)).toNat = n := fun n => by
    change (ratNearest (n : Rat)).toNat = n
    rw [← Int.cast_natCast, ratNearest_intCast, Int.toNat_natCast]
  simp only [nearestPixel, whole]

theorem blendLevel_readsCells : ReadsCells 255 (blendLevel : Grid UInt8 → Rat → Rat → UInt8) := by
  intro g y x _ _
  rw [blendLevel, blend_natCast, levelOf_toNat]

theorem blendColor_readsCells : ReadsCells Rgb.white (blendColor : Grid Rgb → Rat → Rat → Rgb) := by
  intro g y x _ _
  simp only [blendColor, blend_natCast, levelOf_toNat]

section Passes

variable {α : Type} {background : α} {read : Grid α → Rat → Rat → α}

theorem gather_intCast (reads : ReadsCells background read) (g : Grid α) (t u : Nat → Nat → Int) :
    gather g background (read g) (fun y x => ((u y x : Rat), (t y x : Rat))) =
      Grid.ofFn g.height g.width fun y x => g.pixel background (t y x) (u y x) := by
  refine Grid.ofFn_congr fun y _ x _ => ?_
  have off : (offPage (u y x : Rat) g.width || offPage (t y x : Rat) g.height) = true ↔
      ¬ ((0 ≤ t y x ∧ t y x < g.height) ∧ 0 ≤ u y x ∧ u y x < g.width) := by
    rw [Bool.or_eq_true, offPage_intCast, offPage_intCast]
    omega
  dsimp only
  rw [Grid.pixel]
  by_cases inside : (0 ≤ t y x ∧ t y x < g.height) ∧ 0 ≤ u y x ∧ u y x < g.width
  · rw [if_neg (mt off.mp (not_not.mpr inside)), if_pos inside]
    obtain ⟨row, atRow⟩ := Int.eq_ofNat_of_zero_le inside.1.1
    obtain ⟨column, atColumn⟩ := Int.eq_ofNat_of_zero_le inside.2.1
    rw [atRow, atColumn] at inside ⊢
    rw [Int.cast_natCast, Int.cast_natCast, ontoPage_natCast (by omega),
      ontoPage_natCast (by omega), reads g row column (by omega) (by omega), Int.toNat_natCast,
      Int.toNat_natCast]
  · rw [if_pos (off.mpr inside), if_neg inside]

theorem gather_twice (reads : ReadsCells background read) (g : Grid α) (v d : Grid Int)
    {first : Grid α}
    (vertical : first = gather g background (read g) fun y x =>
      (Scalar.ofNat x, Scalar.ofNat y - v.rational.value y x)) :
    gather first background (read first)
        (fun y x => (Scalar.ofNat x - d.rational.value y x, Scalar.ofNat y)) =
      g.moved background v d := by
  have along : first = Grid.ofFn g.height g.width fun y x =>
      g.pixel background ((y : Int) - v.get 0 y x) (x : Int) := by
    rw [vertical, ← gather_intCast reads]
    congr 1
    funext y x
    rw [Grid.value_rational, Int.cast_sub]
    rfl
  have across : gather first background (read first)
      (fun y x => (Scalar.ofNat x - d.rational.value y x, Scalar.ofNat y)) =
      Grid.ofFn first.height first.width fun y x =>
        first.pixel background (y : Int) ((x : Int) - d.get 0 y x) := by
    rw [← gather_intCast reads]
    congr 1
    funext y x
    rw [Grid.value_rational, Int.cast_sub]
    rfl
  rw [across, along, Grid.moved]
  refine Grid.ofFn_congr fun y row x _ => ?_
  rw [Grid.height_ofFn] at row
  dsimp only
  generalize (x : Int) - d.get 0 y x = u
  rw [Grid.pixel, Grid.height_ofFn, Grid.width_ofFn]
  by_cases off : u < 0 ∨ (g.width : Int) ≤ u
  · rw [if_pos off, if_neg (by omega)]
  · rw [if_neg off, if_pos (by omega), Int.toNat_natCast, Grid.get_ofFn _ _ row (by omega),
      Grid.pixel, Int.toNat_of_nonneg (by omega)]
    split
    · rw [if_neg (by omega)]
    · rw [if_pos (by omega)]

end Passes

/-! ### Coordinates of sampled images -/

def toUnit (coordinate : Rat) (size : Nat) : Rat :=
  coordinate / max ((size : Rat) - 1) 1 * 2 - 1

def ofUnit (place : Rat) (size : Nat) : Rat := (place + 1) / 2 * ((size : Rat) - 1)

/-- Going through places in the unit interval changes nothing on the page. On an axis of one pixel
all places collapse to that pixel, and so does every coordinate that is moved onto the page. -/
theorem ontoPage_ofUnit (coordinate : Rat) {size : Nat} (filled : 0 < size) :
    ontoPage (ofUnit (toUnit coordinate size) size) size = ontoPage coordinate size := by
  obtain one | many : size = 1 ∨ 2 ≤ size := by omega
  · subst one
    have only : ∀ x : Rat, ontoPage x 1 = 0 := by
      intro x
      rw [ontoPage, scalarMax_eq, scalarMin_eq]
      change max (((0 : Int)) : Rat) (min x ((((1 : Nat) : Int) - 1 : Int) : Rat)) = 0
      norm_num
    rw [only, only]
  · have wide : (1 : Rat) ≤ (size : Rat) - 1 := by
      have two : ((2 : Nat) : Rat) ≤ (size : Rat) := by exact_mod_cast many
      push_cast at two
      linarith
    have nonzero : (size : Rat) - 1 ≠ 0 := by linarith
    have same : ofUnit (toUnit coordinate size) size = coordinate := by
      rw [ofUnit, toUnit, max_eq_left wide]
      field_simp
      ring
    rw [same]

def gatherUnit {α : Type} (g : Grid α) (background : α) (read : Rat → Rat → α)
    (point : Nat → Nat → Rat × Rat) : Grid α :=
  Grid.ofFn g.height g.width fun y x =>
    let (u, v) := point y x
    if offPage u g.width || offPage v g.height then background
    else read (ontoPage (ofUnit (toUnit u g.width) g.width) g.width)
      (ontoPage (ofUnit (toUnit v g.height) g.height) g.height)

theorem gather_eq_gatherUnit {α : Type} (g : Grid α) (background : α) (read : Rat → Rat → α)
    (point : Nat → Nat → Rat × Rat) :
    gather g background read point = gatherUnit g background read point := by
  refine Grid.ofFn_congr fun y row x column => ?_
  have tall : 0 < g.height := Nat.lt_of_le_of_lt (Nat.zero_le y) row
  have wide : 0 < g.width := Nat.lt_of_le_of_lt (Nat.zero_le x) column
  simp only [ontoPage_ofUnit _ tall, ontoPage_ofUnit _ wide]

namespace Grid

variable {α : Type}

theorem moved_replicate (g : Grid α) (background : α) (down right : Int) :
    g.moved background (replicate g.height g.width down) (replicate g.height g.width right) =
      g.shifted background down right := by
  refine ofFn_congr fun y row x column => ?_
  have everywhere : ∀ (n : Int) {u : Nat}, u < g.width →
      (replicate g.height g.width n).get 0 y u = n := fun n _ inside => get_ofFn _ _ row inside
  simp only [everywhere right column, pixel]
  by_cases off : (x : Int) - right < 0 ∨ (g.width : Int) ≤ (x : Int) - right
  · rw [if_pos off, if_neg (by omega)]
  · simp only [if_neg off, everywhere down (show ((x : Int) - right).toNat < g.width by omega)]
    split
    · rw [if_neg (by omega)]
    · rw [if_pos (by omega)]

theorem shifted_zero (g : Grid α) (background : α) : g.shifted background 0 0 = g := by
  nth_rewrite 2 [← g.ofFn_get background]
  refine ofFn_congr fun y row x column => ?_
  rw [pixel, if_pos (by omega), sub_zero, sub_zero, Int.toNat_natCast, Int.toNat_natCast]

theorem rational_replicate (height width : Nat) (n : Int) :
    (replicate height width n).rational = replicate height width (n : Rat) :=
  map_ofFn height width _ _

end Grid

namespace Page

def remapUnit (p : Page) (point : Nat → Nat → Rat × Rat) : Page :=
  match p with
  | bit g => bit (gatherUnit g false (nearestPixel g false) point)
  | gray g => gray (gatherUnit g 255 (blendLevel g) point)
  | color g => color (gatherUnit g Rgb.white (blendColor g) point)

def moved (p : Page) (v d : Grid Int) : Page :=
  match p with
  | bit g => bit (g.moved false v d)
  | gray g => gray (g.moved 255 v d)
  | color g => color (g.moved Rgb.white v d)

def shifted (p : Page) (down right : Int) : Page :=
  match p with
  | bit g => bit (g.shifted false down right)
  | gray g => gray (g.shifted 255 down right)
  | color g => color (g.shifted Rgb.white down right)

theorem move_twice (p : Page) (v d : Grid Int) :
    (p.moveVertically v.rational).moveHorizontally d.rational = p.moved v d := by
  cases p with
  | bit g => exact congrArg bit (gather_twice (nearestPixel_readsCells false) g v d rfl)
  | gray g => exact congrArg gray (gather_twice blendLevel_readsCells g v d rfl)
  | color g => exact congrArg color (gather_twice blendColor_readsCells g v d rfl)

theorem displace_rational {p : Page} (whole : p.check = .ok ()) {v d : Grid Int}
    (vertical : v.height = p.height ∧ v.width = p.width)
    (horizontal : d.height = p.height ∧ d.width = p.width) :
    p.displace (.ofGrid v.rational) (some (.ofGrid d.rational)) = .ok (p.moved v d) := by
  have both := displace_ofGrid (h := some d.rational) (v := v.rational) whole vertical.1 vertical.2
    fun g given => by
      obtain rfl := Option.some.inj given
      exact horizontal
  rw [← move_twice]
  exact both

theorem displace_replicate {p : Page} (whole : p.check = .ok ()) (down right : Int) :
    p.displace (.ofGrid (.replicate p.height p.width (down : Rat)))
      (some (.ofGrid (.replicate p.height p.width (right : Rat)))) =
      .ok (p.shifted down right) := by
  have uniform : p.moved (.replicate p.height p.width down) (.replicate p.height p.width right) =
      p.shifted down right := by
    cases p with
    | bit g => exact congrArg bit (g.moved_replicate false down right)
    | gray g => exact congrArg gray (g.moved_replicate 255 down right)
    | color g => exact congrArg color (g.moved_replicate Rgb.white down right)
  rw [← Grid.rational_replicate, ← Grid.rational_replicate,
    displace_rational whole ⟨rfl, rfl⟩ ⟨rfl, rfl⟩, uniform]

/-- Arrays of whole numbers copy pixels: each from the column that is displaced where it stands and
the row that is displaced there, or from the background where that is off the page. So arrays of
zeros change nothing and uniform arrays shift the page. Reading at points in the unit interval, as
images are sampled, is the same, also on pages of one row or column. -/
theorem displace_whole_steps (p : Page) (whole : p.check = .ok ()) :
    (∀ v d : Grid Int, v.height = p.height ∧ v.width = p.width →
      d.height = p.height ∧ d.width = p.width →
      p.displace (.ofGrid v.rational) (some (.ofGrid d.rational)) = .ok (p.moved v d)) ∧
    p.displace (.ofGrid (.replicate p.height p.width (0 : Rat)))
      (some (.ofGrid (.replicate p.height p.width (0 : Rat)))) = .ok p ∧
    (∀ down right : Int,
      p.displace (.ofGrid (.replicate p.height p.width (down : Rat)))
        (some (.ofGrid (.replicate p.height p.width (right : Rat)))) =
        .ok (p.shifted down right)) ∧
    ∀ point : Nat → Nat → Rat × Rat, p.remap point = p.remapUnit point := by
  refine ⟨fun v d => displace_rational whole, ?_, displace_replicate whole, fun point => ?_⟩
  · have still : p.shifted 0 0 = p := by
      cases p with
      | bit g => exact congrArg bit (g.shifted_zero false)
      | gray g => exact congrArg gray (g.shifted_zero 255)
      | color g => exact congrArg color (g.shifted_zero Rgb.white)
    have zero := displace_replicate whole 0 0
    rwa [still, Int.cast_zero] at zero
  · cases p with
    | bit g => exact congrArg bit (gather_eq_gatherUnit g _ _ point)
    | gray g => exact congrArg gray (gather_eq_gatherUnit g _ _ point)
    | color g => exact congrArg color (gather_eq_gatherUnit g _ _ point)

end Page

/-! A page of two rows whose last column goes down by one; then the first row goes to the right and
the second to the left. -/

namespace Tile

def levels : Grid UInt8 := Grid.ofFn 2 3 fun y x => (10 * y + x + 1).toUInt8

def down : Grid Int := Grid.ofFn 2 3 fun _ x => if x = 2 then 1 else 0

def right : Grid Int := Grid.ofFn 2 3 fun y _ => if y = 0 then 1 else -1

theorem tile_copied : (Page.gray levels).check = .ok () ∧
    (Page.gray levels).displace (.ofGrid down.rational) (some (.ofGrid right.rational)) =
      .ok (.gray (levels.moved 255 down right)) ∧
    (levels.moved 255 down right).cells = #[255, 1, 2, 12, 3, 255] := by
  have whole : (Page.gray levels).check = .ok () := rfl
  have copied := (Page.displace_whole_steps (.gray levels) whole).1 down right ⟨rfl, rfl⟩ ⟨rfl, rfl⟩
  exact ⟨whole, copied, by decide⟩

end Tile

end PageFlattening
