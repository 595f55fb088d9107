import Mathlib
import PageFlattening.Proofs.WholePixels

/-! Pages moved by any displacements. A number between the pixels around a point is a mean of means,
along two rows and then across them, and a mean is not beyond both of its terms. Rounding it to a
level leaves it between the two pixels, whose values are whole. So no pass brings in a value of its
own: what it shows lies between pixels that were there, or it is background. -/
namespace PageFlattening

/-! ### Rounding -/

theorem abs_sub_ratNearest_le (q : Rat) : |q - ratNearest q| ≤ 1 / 2 := by
  have low : (q.floor : Rat) ≤ q := Int.floor_le q
  have high : q < q.floor + 1 := Int.lt_floor_add_one q
  unfold ratNearest
  dsimp only
  rw [abs_le]
  split_ifs <;> push_cast <;> constructor <;> linarith

theorem ratNearest_even {q : Rat} (half : |q - ratNearest q| = 1 / 2) : ratNearest q % 2 = 0 := by
  have low : (q.floor : Rat) ≤ q := Int.floor_le q
  have high : q < q.floor + 1 := Int.lt_floor_add_one q
  unfold ratNearest at half ⊢
  dsimp only at half ⊢
  split_ifs at half ⊢ with below above even
  · rw [abs_of_nonneg (by linarith)] at half
    linarith
  · rw [abs_of_neg (by push_cast; linarith)] at half
    push_cast at half
    linarith
  · exact even
  · omega

theorem le_ratNearest {n : Int} {q : Rat} (h : n ≤ q) : n ≤ ratNearest q := by
  have near := abs_le.mp (abs_sub_ratNearest_le q)
  by_contra less
  have gap : (ratNearest q : Rat) + 1 ≤ n := by exact_mod_cast Int.not_le.mp less
  linarith

theorem ratNearest_le {n : Int} {q : Rat} (h : q ≤ n) : ratNearest q ≤ n := by
  have near := abs_le.mp (abs_sub_ratNearest_le q)
  by_contra more
  have gap : (n : Rat) + 1 ≤ ratNearest q := by exact_mod_cast Int.not_le.mp more
  linarith

theorem toNat_levelOf (q : Rat) : ((levelOf q).toNat : Int) = max 0 (min (ratNearest q) 255) := by
  change ((Picture.clip (ratNearest q)).toNat : Int) = _
  rw [Picture.clip]
  have small : (max 0 (min (ratNearest q) 255)).toNat < 256 := by omega
  rw [Nat.toUInt8, UInt8.toNat_ofNat', Nat.mod_eq_of_lt small]
  omega

theorem le_levelOf {q : Rat} {level : UInt8} (h : (level.toNat : Rat) ≤ q) :
    level.toNat ≤ (levelOf q).toNat := by
  have rounded := le_ratNearest (n := level.toNat) (by exact_mod_cast h)
  have most := level.toNat_lt
  have value := toNat_levelOf q
  omega

theorem levelOf_le {q : Rat} {level : UInt8} (h : q ≤ level.toNat) :
    (levelOf q).toNat ≤ level.toNat := by
  have rounded := ratNearest_le (n := level.toNat) (by exact_mod_cast h)
  have value := toNat_levelOf q
  omega

/-! ### Pixels beside a coordinate -/

def OffAxis (coordinate : Rat) (size : Nat) : Prop :=
  coordinate < -1 / 2 ∨ (size : Rat) - 1 / 2 < coordinate

def clamped (coordinate : Rat) (size : Nat) : Rat := max 0 (min coordinate ((size : Rat) - 1))

/-- A pixel that is less than its own width from a coordinate on the page. At most two are. -/
structure Beside (coordinate : Rat) (size n : Nat) : Prop where
  inside : n < size
  near : |clamped coordinate size - n| < 1

/-- The pixel nearest to a coordinate on the page; of two that are as near, the even one. -/
structure NearestOf (coordinate : Rat) (size n : Nat) : Prop where
  inside : n < size
  least : ∀ k < size, |clamped coordinate size - n| ≤ |clamped coordinate size - k|
  even : ∀ k < size, k ≠ n → |clamped coordinate size - k| = |clamped coordinate size - n| →
    n % 2 = 0

theorem offPage_iff (coordinate : Rat) (size : Nat) :
    offPage coordinate size = true ↔ OffAxis coordinate size := by
  rw [offPage, Bool.or_eq_true, decide_eq_true_iff, decide_eq_true_iff]
  change coordinate < ((-1 : Int) : Rat) / ((2 : Int) : Rat) ∨
    ((size : Int) : Rat) - ((1 : Int) : Rat) / ((2 : Int) : Rat) < coordinate ↔ _
  push_cast
  rfl

theorem ontoPage_eq_clamped (coordinate : Rat) (size : Nat) :
    ontoPage coordinate size = clamped coordinate size := by
  rw [ontoPage, scalarMax_eq, scalarMin_eq]
  change max ((0 : Int) : Rat) (min coordinate (((size : Int) - 1 : Int) : Rat)) = _
  push_cast
  rfl

theorem clamped_range {size : Nat} (filled : 0 < size) (coordinate : Rat) :
    0 ≤ clamped coordinate size ∧ clamped coordinate size ≤ (size : Rat) - 1 := by
  have one : (1 : Rat) ≤ size := by exact_mod_cast filled
  exact ⟨le_max_left _ _, max_le (by linarith) (min_le_right _ _)⟩

theorem one_le_distances {n k : Int} (apart : k ≠ n) (c : Rat) : 1 ≤ |c - n| + |c - k| := by
  have whole : 1 ≤ |n - k| := Int.one_le_abs (by omega)
  have gap : (1 : Rat) ≤ |(n : Rat) - k| := by exact_mod_cast whole
  have way := abs_sub_le (n : Rat) c k
  rw [abs_sub_comm (n : Rat) c] at way
  linarith

theorem nearestOf_ratNearest {size : Nat} (filled : 0 < size) (coordinate : Rat) :
    NearestOf coordinate size (ratNearest (clamped coordinate size)).toNat ∧
      Beside coordinate size (ratNearest (clamped coordinate size)).toNat := by
  obtain ⟨low, high⟩ := clamped_range filled coordinate
  have error := abs_sub_ratNearest_le (clamped coordinate size)
  have even := ratNearest_even (q := clamped coordinate size)
  have first : 0 ≤ ratNearest (clamped coordinate size) := le_ratNearest (by exact_mod_cast low)
  have last : ratNearest (clamped coordinate size) ≤ (size : Int) - 1 :=
    ratNearest_le (by push_cast; exact high)
  obtain ⟨n, rounded⟩ := Int.eq_ofNat_of_zero_le first
  rw [rounded] at error even last
  rw [Int.cast_natCast] at error even
  rw [rounded, Int.toNat_natCast]
  have far : ∀ k : Nat, k ≠ n →
      1 ≤ |clamped coordinate size - n| + |clamped coordinate size - k| :=
    fun k apart => by exact_mod_cast one_le_distances (Nat.cast_injective.ne apart) _
  refine ⟨⟨by omega, fun k _ => ?_, fun k _ apart tie => ?_⟩, by omega, by linarith⟩
  · rcases eq_or_ne k n with rfl | apart
    · exact le_refl _
    · linarith [far k apart]
  · have half := even (by linarith [far k apart])
    omega

/-! ### Means -/

def mean (f : Nat → Rat) (size : Nat) (c : Rat) : Rat :=
  let n := (Scalar.trunc c).toNat
  f n * (1 - (c - n)) + f (min (n + 1) (size - 1)) * (c - n)

theorem blend_eq_mean (f : Nat → Nat → Rat) (height width : Nat) (x y : Rat) :
    blend f height width x y = mean (fun v => mean (f v) width x) height y := by
  unfold blend mean
  change _ * (((1 : Int) : Rat) - (x - ((Scalar.trunc x).toNat : Int))) *
      (((1 : Int) : Rat) - (y - ((Scalar.trunc y).toNat : Int))) +
    _ * (x - ((Scalar.trunc x).toNat : Int)) *
      (((1 : Int) : Rat) - (y - ((Scalar.trunc y).toNat : Int))) +
    _ * (((1 : Int) : Rat) - (x - ((Scalar.trunc x).toNat : Int))) *
      (y - ((Scalar.trunc y).toNat : Int)) +
    _ * (x - ((Scalar.trunc x).toNat : Int)) * (y - ((Scalar.trunc y).toNat : Int)) = _
  push_cast
  ring

theorem trunc_range {c : Rat} (low : 0 ≤ c) :
    ((Scalar.trunc c).toNat : Rat) ≤ c ∧ c < (Scalar.trunc c).toNat + 1 := by
  have floor : Scalar.trunc c = ⌊c⌋ := by
    change c.num.tdiv c.den = c.floor
    rw [Rat.floor_def, Int.tdiv_eq_ediv_of_nonneg (Rat.num_nonneg.mpr low)]
  have whole : ((⌊c⌋.toNat : Nat) : Rat) = ⌊c⌋ := by
    exact_mod_cast Int.toNat_of_nonneg (Int.floor_nonneg.mpr low)
  rw [floor, whole]
  exact ⟨Int.floor_le c, Int.lt_floor_add_one c⟩

theorem exists_mean_eq {size : Nat} (filled : 0 < size) (coordinate : Rat) :
    ∃ a b t, Beside coordinate size a ∧ Beside coordinate size b ∧ 0 ≤ t ∧ t ≤ 1 ∧
      ∀ f, mean f size (clamped coordinate size) = f a * (1 - t) + f b * t := by
  obtain ⟨low, high⟩ := clamped_range filled coordinate
  obtain ⟨below, above⟩ := trunc_range low
  generalize number : (Scalar.trunc (clamped coordinate size)).toNat = n at below above
  have inside : n < size := by
    have less : (n : Rat) < size := by linarith
    exact_mod_cast less
  have here : Beside coordinate size n := ⟨inside, abs_lt.mpr ⟨by linarith, by linarith⟩⟩
  rcases eq_or_lt_of_le below with whole | between
  · -- At the pixel itself the other one does not count, and there may be none.
    refine ⟨n, n, 0, here, here, le_refl _, zero_le_one, fun f => ?_⟩
    simp only [mean, number]
    rw [← whole]
    ring
  · have more : n + 1 < size := by
      have less : ((n + 1 : Nat) : Rat) < size := by push_cast; linarith
      exact_mod_cast less
    have next : Beside coordinate size (n + 1) :=
      ⟨more, abs_lt.mpr ⟨by push_cast; linarith, by push_cast; linarith⟩⟩
    refine ⟨n, n + 1, clamped coordinate size - n, here, next, by linarith, by linarith,
      fun f => ?_⟩
    simp only [mean, number]
    rw [Nat.min_eq_left (by omega)]

theorem mean_between {size : Nat} (filled : 0 < size) (coordinate : Rat) (f : Nat → Rat) :
    (∃ n, Beside coordinate size n ∧ f n ≤ mean f size (clamped coordinate size)) ∧
      ∃ n, Beside coordinate size n ∧ mean f size (clamped coordinate size) ≤ f n := by
  obtain ⟨a, b, t, left, right, low, high, eq⟩ := exists_mean_eq filled coordinate
  rw [eq f]
  rcases le_total (f a) (f b) with up | down
  · exact ⟨⟨a, left, by nlinarith⟩, b, right, by nlinarith⟩
  · exact ⟨⟨b, right, by nlinarith⟩, a, left, by nlinarith⟩

/-! ### Reading a grid -/

inductive Channel where
  | red
  | green
  | blue

def Rgb.channel (c : Channel) (rgb : Rgb) : UInt8 :=
  match c with
  | .red => rgb.red
  | .green => rgb.green
  | .blue => rgb.blue

namespace Grid

variable {α β : Type}

def OffPoint (g : Grid α) (point : Rat × Rat) : Prop :=
  OffAxis point.1 g.width ∨ OffAxis point.2 g.height

def Around (g : Grid α) (point : Rat × Rat) (v u : Nat) : Prop :=
  Beside point.2 g.height v ∧ Beside point.1 g.width u

def NearestTo (g : Grid α) (point : Rat × Rat) (v u : Nat) : Prop :=
  NearestOf point.2 g.height v ∧ NearestOf point.1 g.width u

/-- A grid whose cells are read at given points of a source: off the source they are background, and
otherwise their values lie between those of cells around the point. -/
structure Resampled (source : Grid Nat) (background : Nat) (point : Nat → Nat → Rat × Rat)
    (out : Grid Nat) : Prop where
  size : out.height = source.height ∧ out.width = source.width
  off : ∀ y < out.height, ∀ x < out.width, source.OffPoint (point y x) →
    out.get background y x = background
  least : ∀ y < out.height, ∀ x < out.width, ¬ source.OffPoint (point y x) →
    ∃ v u, source.Around (point y x) v u ∧
      source.get background v u ≤ out.get background y x
  most : ∀ y < out.height, ∀ x < out.width, ¬ source.OffPoint (point y x) →
    ∃ v u, source.Around (point y x) v u ∧
      out.get background y x ≤ source.get background v u

def Copied (source : Grid Nat) (background : Nat) (point : Nat → Nat → Rat × Rat)
    (out : Grid Nat) : Prop :=
  ∀ y < out.height, ∀ x < out.width, ¬ source.OffPoint (point y x) →
    ∃ v u, source.Around (point y x) v u ∧ source.NearestTo (point y x) v u ∧
      out.get background y x = source.get background v u

end Grid

section Reading

variable {α : Type}

def readAt (pick : α → Nat) (read : Grid α → Rat → Rat → α) (g : Grid α) (point : Rat × Rat) :
    Nat :=
  pick (read g (clamped point.1 g.width) (clamped point.2 g.height))

def ReadsBetween (pick : α → Nat) (background : α) (read : Grid α → Rat → Rat → α) : Prop :=
  ∀ (g : Grid α) (point : Rat × Rat), 0 < g.height → 0 < g.width →
    (∃ v u, g.Around point v u ∧ pick (g.get background v u) ≤ readAt pick read g point) ∧
      ∃ v u, g.Around point v u ∧ readAt pick read g point ≤ pick (g.get background v u)

theorem levelOf_between (pick : α → UInt8) (background : α) (g : Grid α) (point : Rat × Rat)
    (tall : 0 < g.height) (wide : 0 < g.width) :
    let level := levelOf (blend (fun v u => Scalar.ofNat (pick (g.get background v u)).toNat)
      g.height g.width (clamped point.1 g.width) (clamped point.2 g.height))
    (∃ v u, g.Around point v u ∧ (pick (g.get background v u)).toNat ≤ level.toNat) ∧
      ∃ v u, g.Around point v u ∧ level.toNat ≤ (pick (g.get background v u)).toNat := by
  intro level
  let f : Nat → Nat → Rat := fun v u => ((pick (g.get background v u)).toNat : Rat)
  have mixed : level = levelOf (mean (fun v => mean (f v) g.width (clamped point.1 g.width))
      g.height (clamped point.2 g.height)) :=
    congrArg levelOf (blend_eq_mean f g.height g.width _ _)
  obtain ⟨⟨v, row, low⟩, w, row', high⟩ := mean_between tall point.2
    fun v => mean (f v) g.width (clamped point.1 g.width)
  obtain ⟨⟨u, column, low'⟩, -⟩ := mean_between wide point.1 (f v)
  obtain ⟨-, t, column', high'⟩ := mean_between wide point.1 (f w)
  rw [mixed]
  exact ⟨⟨v, u, ⟨row, column⟩, le_levelOf (low'.trans low)⟩,
    w, t, ⟨row', column'⟩, levelOf_le (high.trans high')⟩

theorem blendLevel_between :
    ReadsBetween UInt8.toNat 255 (blendLevel : Grid UInt8 → Rat → Rat → UInt8) :=
  fun g point => levelOf_between id 255 g point

theorem blendColor_between (c : Channel) :
    ReadsBetween (fun rgb : Rgb => (rgb.channel c).toNat) .white
      (blendColor : Grid Rgb → Rat → Rat → Rgb) := by
  intro g point tall wide
  have between := levelOf_between (Rgb.channel c) .white g point tall wide
  cases c <;> exact between

theorem nearestPixel_nearest (background : α) (g : Grid α) (point : Rat × Rat)
    (tall : 0 < g.height) (wide : 0 < g.width) :
    ∃ v u, g.Around point v u ∧ g.NearestTo point v u ∧
      nearestPixel g background (clamped point.1 g.width) (clamped point.2 g.height) =
        g.get background v u := by
  obtain ⟨nearest, beside⟩ := nearestOf_ratNearest tall point.2
  obtain ⟨nearest', beside'⟩ := nearestOf_ratNearest wide point.1
  exact ⟨_, _, ⟨beside, beside'⟩, ⟨nearest, nearest'⟩, rfl⟩

theorem nearestPixel_between (pick : α → Nat) (background : α) :
    ReadsBetween pick background fun g => nearestPixel g background := by
  intro g point tall wide
  obtain ⟨v, u, around, -, same⟩ := nearestPixel_nearest background g point tall wide
  exact ⟨⟨v, u, around, (congrArg pick same).ge⟩, v, u, around, (congrArg pick same).le⟩

theorem get_gather (pick : α → Nat) (background : α) (read : Grid α → Rat → Rat → α) (g : Grid α)
    (point : Nat → Nat → Rat × Rat) {y x : Nat} (row : y < g.height) (column : x < g.width) :
    (g.OffPoint (point y x) →
      ((gather g background (read g) point).map pick).get (pick background) y x =
        pick background) ∧
    (¬ g.OffPoint (point y x) →
      ((gather g background (read g) point).map pick).get (pick background) y x =
        readAt pick read g (point y x)) := by
  have off : (offPage (point y x).1 g.width || offPage (point y x).2 g.height) = true ↔
      g.OffPoint (point y x) := by
    rw [Bool.or_eq_true, offPage_iff, offPage_iff]
    rfl
  rw [Grid.get_map, gather, Grid.get_ofFn _ _ row column]
  dsimp only
  refine ⟨fun away => by rw [if_pos (off.mpr away)], fun inside => ?_⟩
  rw [if_neg (mt off.mp inside), ontoPage_eq_clamped, ontoPage_eq_clamped]
  rfl

theorem gather_resampled {pick : α → Nat} {background : α} {read : Grid α → Rat → Rat → α}
    (reads : ReadsBetween pick background read) (g : Grid α) (point : Nat → Nat → Rat × Rat) :
    (g.map pick).Resampled (pick background) point
      ((gather g background (read g) point).map pick) := by
  have cell := fun {y x : Nat} => get_gather pick background read g point (y := y) (x := x)
  have between := fun {y x : Nat} (row : y < g.height) (column : x < g.width) =>
    reads g (point y x) (by omega) (by omega)
  refine ⟨⟨rfl, rfl⟩, fun y row x column => (cell row column).1, ?_, ?_⟩
  · intro y (row : y < g.height) x (column : x < g.width) inside
    obtain ⟨⟨v, u, around, low⟩, -⟩ := between row column
    refine ⟨v, u, around, ?_⟩
    rw [(cell row column).2 inside, Grid.get_map]
    exact low
  · intro y (row : y < g.height) x (column : x < g.width) inside
    obtain ⟨-, v, u, around, high⟩ := between row column
    refine ⟨v, u, around, ?_⟩
    rw [(cell row column).2 inside, Grid.get_map]
    exact high

theorem gather_copied (pick : α → Nat) (background : α) (g : Grid α)
    (point : Nat → Nat → Rat × Rat) :
    (g.map pick).Copied (pick background) point
      ((gather g background (nearestPixel g background) point).map pick) := by
  intro y (row : y < g.height) x (column : x < g.width) inside
  obtain ⟨v, u, around, nearest, same⟩ :=
    nearestPixel_nearest background g (point y x) (by omega) (by omega)
  refine ⟨v, u, around, nearest, ?_⟩
  rw [(get_gather pick background (fun g => nearestPixel g background) g point row column).2 inside,
    Grid.get_map, readAt]
  exact congrArg pick same

end Reading

namespace Grid

variable {source out : Grid Nat} {background : Nat} {point : Nat → Nat → Rat × Rat}

def Uniform (g : Grid Nat) (n : Nat) : Prop := ∀ y < g.height, ∀ x < g.width, g.get n y x = n

def Backed (r : Nat → Nat → Prop) (background : Nat) (source out : Grid Nat) : Prop :=
  ∀ y < out.height, ∀ x < out.width, ∃ v < source.height, ∃ u < source.width,
    r (source.get background v u) (out.get background y x)

theorem Backed.trans {r : Nat → Nat → Prop} [IsTrans Nat r] {middle : Grid Nat}
    (h : source.Backed r background middle) (h' : middle.Backed r background out) :
    source.Backed r background out := by
  intro y row x column
  obtain ⟨v, row', u, column', first⟩ := h' y row x column
  obtain ⟨t, row'', s, column'', second⟩ := h v row' u column'
  exact ⟨t, row'', s, column'', IsTrans.trans _ _ _ second first⟩

theorem Resampled.uniform (h : source.Resampled background point out)
    (blank : source.Uniform background) : out.Uniform background := by
  intro y row x column
  by_cases off : source.OffPoint (point y x)
  · exact h.off y row x column off
  · obtain ⟨v, u, around, low⟩ := h.least y row x column off
    obtain ⟨t, s, around', high⟩ := h.most y row x column off
    rw [blank v around.1.inside u around.2.inside] at low
    rw [blank t around'.1.inside s around'.2.inside] at high
    exact Nat.le_antisymm high low

theorem Resampled.backed {r : Nat → Nat → Prop} (h : source.Resampled background point out)
    (edge : ∀ y x, r (source.get background y x) background)
    (read : ∀ y < out.height, ∀ x < out.width, ¬ source.OffPoint (point y x) →
      ∃ v u, source.Around (point y x) v u ∧
        r (source.get background v u) (out.get background y x)) :
    source.Backed r background out := by
  intro y row x column
  by_cases off : source.OffPoint (point y x)
  · refine ⟨y, by rwa [← h.size.1], x, by rwa [← h.size.2], ?_⟩
    rw [h.off y row x column off]
    exact edge y x
  · obtain ⟨v, u, around, related⟩ := read y row x column off
    exact ⟨v, around.1.inside, u, around.2.inside, related⟩

end Grid

/-! ### Pages -/

namespace Page

/-- The values of a page in a channel; ink counts as one, and a page without colours is the same in
all channels. -/
def channel (p : Page) (c : Channel) : Grid Nat :=
  match p with
  | bit g => g.map Bool.toNat
  | gray g => g.map UInt8.toNat
  | color g => g.map fun rgb => (rgb.channel c).toNat

def background : Page → Nat
  | bit _ => 0
  | _ => 255

def Blank (p : Page) : Prop := ∀ c, (p.channel c).Uniform p.background

/-- A page read at given points of another: of the same layout, in every channel background or
between pixels around the point, and with one bit per pixel copied from the nearest. -/
structure Resampled (p : Page) (point : Nat → Nat → Rat × Rat) (out : Page) : Prop where
  layout : p.SameLayout out
  between : ∀ c, (p.channel c).Resampled p.background point (out.channel c)
  nearest : p.isBit = true → ∀ c, (p.channel c).Copied p.background point (out.channel c)

theorem remap_resampled (p : Page) (point : Nat → Nat → Rat × Rat) :
    p.Resampled point (p.remap point) := by
  refine ⟨remap_layout p point, ?_, ?_⟩
  · intro c
    cases p with
    | bit g => exact gather_resampled (nearestPixel_between Bool.toNat false) g point
    | gray g => exact gather_resampled blendLevel_between g point
    | color g => cases c <;> exact gather_resampled (blendColor_between _) g point
  · intro bits c
    cases p with
    | bit g => exact gather_copied Bool.toNat false g point
    | gray g => cases bits
    | color g => cases bits

theorem remap_background (p : Page) (point : Nat → Nat → Rat × Rat) :
    (p.remap point).background = p.background := by
  cases p <;> rfl

theorem remap_isBit (p : Page) (point : Nat → Nat → Rat × Rat) :
    (p.remap point).isBit = p.isBit := by
  cases p <;> rfl

theorem Blank.remap {p : Page} (h : p.Blank) (point : Nat → Nat → Rat × Rat) :
    (p.remap point).Blank := by
  intro c
  rw [remap_background]
  exact ((remap_resampled p point).between c).uniform (h c)

theorem channel_le_background {p : Page} (levels : p.isBit = false) (c : Channel) (y x : Nat) :
    (p.channel c).get p.background y x ≤ p.background := by
  have top : ∀ level : UInt8, level.toNat ≤ 255 := fun level => Nat.le_of_lt_succ level.toNat_lt
  cases p with
  | bit g => cases levels
  | gray g => exact (Grid.get_map UInt8.toNat g 255 y x).trans_le (top _)
  | color g =>
      have white : ((Rgb.white).channel c).toNat = 255 := by cases c <;> rfl
      have cell := Grid.get_map (fun rgb : Rgb => (rgb.channel c).toNat) g .white y x
      rw [white] at cell
      exact cell.trans_le (top _)

theorem remap_backed_le {p : Page} (levels : p.isBit = false) (point : Nat → Nat → Rat × Rat)
    (c : Channel) :
    (p.channel c).Backed (· ≤ ·) p.background ((p.remap point).channel c) :=
  have read := (remap_resampled p point).between c
  read.backed (channel_le_background levels c) read.least

theorem remap_backed_ge {p : Page} (bits : p.isBit = true) (point : Nat → Nat → Rat × Rat)
    (c : Channel) :
    (p.channel c).Backed (· ≥ ·) p.background ((p.remap point).channel c) := by
  have read := (remap_resampled p point).between c
  refine read.backed (fun y x => ?_) read.most
  cases p with
  | bit g => exact Nat.zero_le _
  | gray g => cases bits
  | color g => cases bits

/-- Moving a page invents nothing. In each pass a pixel is background where its point is more than
half a pixel off the page, and otherwise in every channel between two pixels around the point; with
one bit per pixel it is the nearest of them. So after both passes a blank page is blank, no level is
darker than all levels of the page, and there is no ink on a page that had none. -/
theorem displace_invents_nothing (p : Page) (whole : p.check = .ok ()) :
    (∀ d : Grid Rat, d.height = p.height ∧ d.width = p.width →
      (∃ out, p.applyVertical (.ofGrid d) = .ok out ∧
        p.Resampled (fun y x => ((x : Rat), (y : Rat) - d.value y x)) out) ∧
      ∃ out, p.applyHorizontal (.ofGrid d) = .ok out ∧
        p.Resampled (fun y x => ((x : Rat) - d.value y x, (y : Rat))) out) ∧
    ∀ v d : Grid Rat, v.height = p.height ∧ v.width = p.width →
      d.height = p.height ∧ d.width = p.width →
      ∃ out, p.displace (.ofGrid v) (some (.ofGrid d)) = .ok out ∧ p.SameLayout out ∧
        (p.Blank → out.Blank) ∧
        (p.isBit = false → ∀ c, (p.channel c).Backed (· ≤ ·) p.background (out.channel c)) ∧
        (p.isBit = true → ∀ c, (p.channel c).Backed (· ≥ ·) p.background (out.channel c)) := by
  refine ⟨fun d size => ⟨⟨_, ?_, remap_resampled p _⟩, _, ?_, remap_resampled p _⟩,
    fun v d size size' => ?_⟩
  · rw [applyVertical, checkDisplacement_ofGrid whole size.1 size.2]
    rfl
  · rw [applyHorizontal, checkDisplacement_ofGrid whole size.1 size.2]
    rfl
  · have moved := displace_ofGrid (h := some d) whole size.1 size.2 fun g given => by
      obtain rfl := Option.some.inj given
      exact size'
    refine ⟨_, moved, displace_layout moved, ?_, ?_, ?_⟩
    · intro blank
      exact (blank.remap _).remap _
    · intro levels c
      have second := remap_backed_le (p := p.moveVertically v) ((remap_isBit p _).trans levels)
        (fun y x => (Scalar.ofNat x - d.value y x, Scalar.ofNat y)) c
      rw [moveVertically, remap_background] at second
      exact (remap_backed_le levels _ c).trans second
    · intro bits c
      have second := remap_backed_ge (p := p.moveVertically v) ((remap_isBit p _).trans bits)
        (fun y x => (Scalar.ofNat x - d.value y x, Scalar.ofNat y)) c
      rw [moveVertically, remap_background] at second
      exact (remap_backed_ge bits _ c).trans second

end Page

/-! Four levels moved down by half a pixel. The first row stands on the rim of the page and is read
at its own pixels, the second lies in the middle of both rows. -/

namespace Rim

def levels : Grid UInt8 := Grid.ofFn 2 2 fun y x => (20 * y + 10 * x + y * x + 10).toUInt8

def halves : Grid Rat := Grid.replicate 2 2 (1 / 2)

theorem levels_resampled : (Page.gray levels).check = .ok () ∧
    (halves.height = 2 ∧ halves.width = 2) ∧
    (∃ out, (Page.gray levels).applyVertical (.ofGrid halves) = .ok out ∧
      (Page.gray levels).Resampled (fun y x => ((x : Rat), (y : Rat) - halves.value y x)) out) ∧
    (∃ out, (Page.gray levels).displace (.ofGrid halves) (some (.ofGrid halves)) = .ok out ∧
      ∀ c, ((Page.gray levels).channel c).Backed (· ≤ ·) 255 (out.channel c)) ∧
    (((Page.gray levels).moveVertically halves).channel .red).cells = #[10, 20, 20, 30] := by
  have whole : (Page.gray levels).check = .ok () := rfl
  obtain ⟨passes, both⟩ := Page.displace_invents_nothing (.gray levels) whole
  obtain ⟨out, moved, -, -, lighter, -⟩ := both halves halves ⟨rfl, rfl⟩ ⟨rfl, rfl⟩
  exact ⟨whole, ⟨rfl, rfl⟩, (passes halves ⟨rfl, rfl⟩).1, ⟨out, moved, lighter rfl⟩,
    by decide +kernel⟩

/-- Ink that is moved away leaves the background behind it, which is less than all the page was. -/
theorem ink_moved_away : ¬ ∀ (p : Page) (v d out), p.check = .ok () →
    v.height = p.height ∧ v.width = p.width → d.height = p.height ∧ d.width = p.width →
    p.displace (.ofGrid (v : Grid Rat)) (some (.ofGrid d)) = .ok out →
    ∀ c, (p.channel c).Backed (· ≤ ·) p.background (out.channel c) := by
  intro all
  have black : (Page.bit (.replicate 1 1 true)).check = .ok () := rfl
  have kept := all _ (.replicate 1 1 1) (.replicate 1 1 0) _ black ⟨rfl, rfl⟩ ⟨rfl, rfl⟩
    (Page.displace_replicate black 1 0) .red 0 (by decide) 0 (by decide)
  revert kept
  decide +kernel

end Rim

end PageFlattening
