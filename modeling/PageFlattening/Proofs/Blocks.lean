import Mathlib
import PageFlattening.Proofs.ComponentLines

/-! A solid block of ink under line detection. Dilation takes a window that reaches farther to the
left, erosion the same window and not its mirror image. So a closing by a window of even width moves
the block by one column to the right, one of odd width leaves it in place, and the opening along y
leaves a block of three rows or more alone. The block is one component, and its line runs through
the middle row. -/
namespace PageFlattening

open Component

namespace Window

variable {k : Window} {g : Grid Bool} {p : Pixel}

def Reaches (k : Window) (p q : Pixel) : Prop :=
  (p.1 ≤ q.1 + k.height / 2 ∧ q.1 + k.height / 2 < p.1 + k.height) ∧
    p.2 ≤ q.2 + k.width / 2 ∧ q.2 + k.width / 2 < p.2 + k.width

theorem dilate_inked_iff : (k.dilate g).Inked p ↔
    (p.1 < g.height ∧ p.2 < g.width) ∧ ∃ q, k.Reaches p q ∧ g.Inked q := by
  rw [Grid.Inked, dilate, Grid.get_ofFn_eq]
  by_cases inside : p.1 < g.height ∧ p.2 < g.width
  · rw [if_pos inside]
    simp only [anySet, Nat.any_eq_finRange_any, List.any_eq_true, List.mem_finRange, true_and,
      Bool.and_eq_true, decide_eq_true_eq, Fin.exists_iff]
    constructor
    · rintro ⟨i, low, above, j, narrow, before, set⟩
      refine ⟨inside, (p.1 + i - k.height / 2, p.2 + j - k.width / 2), ⟨⟨?_, ?_⟩, ?_, ?_⟩, set⟩ <;>
        dsimp only <;> omega
    · rintro ⟨-, q, ⟨⟨above, below⟩, before, behind⟩, set⟩
      have row : p.1 + (q.1 + k.height / 2 - p.1) - k.height / 2 = q.1 := by omega
      have column : p.2 + (q.2 + k.width / 2 - p.2) - k.width / 2 = q.2 := by omega
      refine ⟨q.1 + k.height / 2 - p.1, by omega, by omega, q.2 + k.width / 2 - p.2, by omega,
        by omega, ?_⟩
      rw [row, column]
      exact set
  · simp [inside]

theorem erode_inked_iff : (k.erode g).Inked p ↔ (p.1 < g.height ∧ p.2 < g.width) ∧
    ∀ q, q.1 < g.height → q.2 < g.width → k.Reaches p q → g.Inked q := by
  have on : ∀ {y x}, y < g.height → x < g.width → g.get true y x = g.get false y x := by
    intro y x row column
    have within := Grid.position_lt row column
    rw [← g.size_eq] at within
    simp [Grid.get, column, Array.getD, within]
  rw [Grid.Inked, erode, Grid.get_ofFn_eq]
  by_cases inside : p.1 < g.height ∧ p.2 < g.width
  · rw [if_pos inside]
    simp only [allSet, Nat.all_eq_finRange_all, List.all_eq_true, List.mem_finRange, true_imp_iff,
      Bool.or_eq_true, decide_eq_true_eq, Fin.forall_iff]
    constructor
    · refine fun all => ⟨inside, fun q row column reached => ?_⟩
      obtain ⟨⟨above, below⟩, before, behind⟩ := reached
      have row' : p.1 + (q.1 + k.height / 2 - p.1) - k.height / 2 = q.1 := by omega
      have column' : p.2 + (q.2 + k.width / 2 - p.2) - k.width / 2 = q.2 := by omega
      have here := (all (q.1 + k.height / 2 - p.1) (by omega)).resolve_left (by omega)
        (q.2 + k.width / 2 - p.2) (by omega)
      replace here := here.resolve_left (by omega)
      rwa [row', column', on row column] at here
    · rintro ⟨-, all⟩ i low
      refine or_iff_not_imp_left.mpr fun above j narrow => or_iff_not_imp_left.mpr fun before => ?_
      by_cases here : p.1 + i - k.height / 2 < g.height ∧ p.2 + j - k.width / 2 < g.width
      · rw [on here.1 here.2]
        refine all (_, _) here.1 here.2 ⟨⟨?_, ?_⟩, ?_, ?_⟩ <;> dsimp only <;> omega
      · exact Grid.get_outside (by omega)
  · simp [inside]

end Window

def Component.Box.moved (b : Box) (shift : Nat) : Box :=
  { b with left := b.left + shift, right := b.right + shift }

@[simp] theorem Component.Box.width_moved (b : Box) (shift : Nat) :
    (b.moved shift).width = b.width := by
  simp only [moved, width]
  omega

@[simp] theorem Component.Box.height_moved (b : Box) (shift : Nat) :
    (b.moved shift).height = b.height := rfl

namespace Grid

variable {g : Grid Bool} {b : Box}

def IsBlock (g : Grid Bool) (b : Box) : Prop :=
  ∀ p, g.Inked p ↔ (b.top ≤ p.1 ∧ p.1 ≤ b.bottom) ∧ b.left ≤ p.2 ∧ p.2 ≤ b.right

theorem IsBlock.bottom_lt (h : g.IsBlock b) (high : b.top ≤ b.bottom) (wide : b.left ≤ b.right) :
    b.bottom < g.height :=
  ((h (b.bottom, b.right)).mpr ⟨⟨high, le_rfl⟩, wide, le_rfl⟩).inside.1

theorem IsBlock.dilate_row (h : g.IsBlock b) (high : b.top ≤ b.bottom) (wide : b.left ≤ b.right)
    {n : Nat} (positive : 0 < n) (right : b.right + n < g.width) :
    ((Window.mk 1 n).dilate g).IsBlock
      { b with left := b.left - (n - 1 - n / 2), right := b.right + n / 2 } := by
  have low := h.bottom_lt high wide
  intro p
  simp only [Window.dilate_inked_iff, Window.Reaches, h _]
  constructor
  · rintro ⟨_, q, _, _⟩
    omega
  · rintro ⟨rows, columns⟩
    -- The nearest column of the block is in the window.
    refine ⟨by omega, (p.1, max b.left (min b.right p.2)), ?_⟩
    omega

theorem IsBlock.erode_row (h : g.IsBlock b) (high : b.top ≤ b.bottom) {n : Nat} (positive : 0 < n)
    (wide : b.left + n ≤ b.right + 1) (left : 0 < b.left) (right : b.right + 1 < g.width) :
    ((Window.mk 1 n).erode g).IsBlock
      { b with left := b.left + n / 2, right := b.right - (n - 1 - n / 2) } := by
  have low := h.bottom_lt high (by omega)
  intro p
  simp only [Window.erode_inked_iff, Window.Reaches, h _]
  constructor
  · rintro ⟨inside, all⟩
    -- The leftmost and the rightmost column of the window on the page.
    have first := all (p.1, p.2 - n / 2)
    have last := all (p.1, min (p.2 + n - 1 - n / 2) (g.width - 1))
    have := first (by omega) (by dsimp only; omega) (by dsimp only; omega)
    have := last (by omega) (by dsimp only; omega) (by dsimp only; omega)
    dsimp only at *
    omega
  · rintro ⟨rows, columns⟩
    refine ⟨by omega, fun q _ _ reached => ?_⟩
    omega

/-- A closing moves a block by the difference of the two sides of the window, which is one column if
the width of the window is even. -/
theorem IsBlock.closing (h : g.IsBlock b) (high : b.top ≤ b.bottom) (wide : b.left ≤ b.right)
    {n : Nat} (positive : 0 < n) (left : n ≤ b.left) (right : b.right + n < g.width) :
    ((Window.mk 1 n).closing g).IsBlock (b.moved ((n + 1) % 2)) := by
  have dilated := h.dilate_row high wide positive right
  have width : ((Window.mk 1 n).dilate g).width = g.width := rfl
  have eroded := dilated.erode_row high positive (by dsimp only; omega) (by dsimp only; omega)
    (by dsimp only; omega)
  dsimp only at eroded
  rw [Window.closing, Box.moved]
  convert eroded using 2 <;> omega

theorem IsBlock.opening (h : g.IsBlock b) (high : b.top + 2 ≤ b.bottom) (wide : b.left ≤ b.right) :
    ((Window.mk 3 1).opening g).IsBlock b := by
  have low := h.bottom_lt (by omega) wide
  intro p
  simp only [Window.opening, Window.dilate_inked_iff, Window.erode_inked_iff, Window.Reaches, h _]
  constructor
  · rintro ⟨inside, q, reached, within, all⟩
    have here := all p inside.1 inside.2 (by omega)
    exact here
  · rintro ⟨rows, columns⟩
    have inside := ((h p).mpr ⟨rows, columns⟩).inside
    -- The nearest row that has one of the block above and one below it.
    refine ⟨inside, (max (b.top + 1) (min (b.bottom - 1) p.1), p.2), by dsimp only; omega,
      by dsimp only at *; omega, fun q _ _ reached => ?_⟩
    dsimp only at reached
    omega

def block (b : Box) : Finset Pixel :=
  Finset.Icc b.top b.bottom ×ˢ Finset.Icc b.left b.right

theorem mem_block {p : Pixel} :
    p ∈ block b ↔ (b.top ≤ p.1 ∧ p.1 ≤ b.bottom) ∧ b.left ≤ p.2 ∧ p.2 ≤ b.right := by
  rw [block, Finset.mem_product, Finset.mem_Icc, Finset.mem_Icc]

theorem IsBlock.joined (h : g.IsBlock b) {p : Pixel} (member : p ∈ block b) :
    g.Joined (b.top, b.left) p := by
  obtain ⟨y, x⟩ := p
  obtain ⟨rows, columns⟩ := mem_block.mp member
  dsimp only at rows columns
  have down : ∀ v, b.top ≤ v → v ≤ y → g.Joined (b.top, b.left) (v, b.left) := by
    intro v above
    induction v, above using Nat.le_induction with
    | base => exact fun _ => .refl
    | succ v above ih =>
        intro below
        refine (ih (by omega)).tail ⟨(h _).mpr ?_, (h _).mpr ?_, ?_⟩
        · dsimp only; omega
        · dsimp only; omega
        · simp only [Touch]; omega
  induction x, columns.1 using Nat.le_induction with
  | base => exact down y rows.1 le_rfl
  | succ u before ih =>
      have previous : (y, u) ∈ block b := mem_block.mpr ⟨rows, before, by omega⟩
      refine (ih previous ⟨before, by omega⟩).tail ⟨(h _).mpr ?_, (h _).mpr ?_, ?_⟩
      · dsimp only; omega
      · dsimp only; omega
      · simp only [Touch]; omega

theorem IsBlock.isComponent_iff (h : g.IsBlock b) (high : b.top ≤ b.bottom)
    (wide : b.left ≤ b.right) (c : Finset Pixel) : g.IsComponent c ↔ c = block b := by
  have corner : (b.top, b.left) ∈ block b := mem_block.mpr ⟨⟨le_rfl, high⟩, le_rfl, wide⟩
  have whole : g.IsComponent (block b) := by
    refine ⟨(b.top, b.left), (h _).mpr (mem_block.mp corner), fun q => ⟨h.joined, fun path => ?_⟩⟩
    exact mem_block.mpr ((h q).mp (path.inked ((h _).mpr (mem_block.mp corner))))
  refine ⟨fun component => ?_, fun same => same ▸ whole⟩
  obtain ⟨p, member⟩ := component.nonempty
  exact component.eq_of_mem whole member (mem_block.mpr ((h p).mp (component.inked member)))

theorem bounds_block (high : b.top ≤ b.bottom) (wide : b.left ≤ b.right) : Bounds (block b) b where
  inside p member := by
    have := mem_block.mp member
    omega
  top := ⟨(b.top, b.left), mem_block.mpr ⟨⟨le_rfl, high⟩, le_rfl, wide⟩, rfl⟩
  left := ⟨(b.top, b.left), mem_block.mpr ⟨⟨le_rfl, high⟩, le_rfl, wide⟩, rfl⟩
  bottom := ⟨(b.bottom, b.right), mem_block.mpr ⟨⟨high, le_rfl⟩, wide, le_rfl⟩, rfl⟩
  right := ⟨(b.bottom, b.right), mem_block.mpr ⟨⟨high, le_rfl⟩, wide, le_rfl⟩, rfl⟩

theorem column_block {x : Nat} (left : b.left ≤ x) (right : x ≤ b.right) :
    column (block b) x = Finset.Icc b.top b.bottom ×ˢ {x} := by
  ext p
  simp only [column, Finset.mem_filter, mem_block, Finset.mem_product, Finset.mem_Icc,
    Finset.mem_singleton]
  omega

theorem sum_Icc_mul_two {low high : Nat} (le : low ≤ high) :
    (∑ y ∈ Finset.Icc low high, y) * 2 = (high + 1 - low) * (low + high) := by
  induction high, le using Nat.le_induction with
  | base => simp [Nat.mul_two]
  | succ high le ih =>
      obtain ⟨n, rfl⟩ := Nat.exists_eq_add_of_le le
      rw [Finset.sum_Icc_succ_top (by omega), Nat.add_mul, ih,
        show low + n + 1 - low = n + 1 by omega, show low + n + 1 + 1 - low = n + 2 by omega]
      ring

theorem meanRow_block (high : b.top ≤ b.bottom) {x : Nat} (left : b.left ≤ x)
    (right : x ≤ b.right) : (meanRow (block b) x : Rat) = ((b.top : Rat) + b.bottom) / 2 := by
  have count : (column (block b) x).card = b.bottom + 1 - b.top := by
    rw [column_block left right, Finset.card_product, Nat.card_Icc, Finset.card_singleton,
      Nat.mul_one]
  have total : (∑ p ∈ column (block b) x, p.1) * 2 =
      (b.bottom + 1 - b.top) * (b.top + b.bottom) := by
    rw [column_block left right, Finset.sum_product]
    simpa using sum_Icc_mul_two high
  have positive : (0 : Rat) < (b.bottom + 1 - b.top : Nat) := by
    exact_mod_cast (show 0 < b.bottom + 1 - b.top by omega)
  change ((∑ p ∈ column (block b) x, p.1 : Nat) : Rat) / ((column (block b) x).card : Nat) = _
  rw [count, div_eq_div_iff positive.ne' two_ne_zero]
  exact_mod_cast total.trans (Nat.mul_comm _ _)

end Grid

namespace TextLine

variable {ink : Grid Bool} {b : Box} {s : DetectionSettings}

def throughMiddle (b : Box) : TextLine Rat :=
  (List.range b.width).map fun j => (((b.left + j : Nat) : Rat), ((b.top : Rat) + b.bottom) / 2)

theorem Traces.block {l : TextLine Rat} {box : Box} (high : b.top ≤ b.bottom)
    (wide : b.left ≤ b.right) (h : Traces (Grid.block b) box l) : l = throughMiddle b := by
  obtain rfl := h.bounds.unique (Grid.bounds_block high wide)
  rw [h.points, throughMiddle]
  refine List.map_congr_left fun j inside => ?_
  rw [List.mem_range, Box.width] at inside
  rw [Grid.meanRow_block high (by omega) (by omega)]
  rfl

theorem detect_of_isBlock (isBlock : (joined s ink).IsBlock b) (high : b.top ≤ b.bottom)
    (wide : b.left ≤ b.right) (large : s.minWidth ≤ b.width ∧ s.minHeight ≤ b.height) :
    (detect s ink : List (TextLine Rat)) = [throughMiddle b] := by
  obtain ⟨components, nodup, mem_iff, traces⟩ := detect_traces s ink
  have alone : components = [Grid.block b] := by
    refine List.perm_singleton.mp ((List.perm_ext_iff_of_nodup nodup (List.nodup_singleton _)).mpr
      fun c => ?_)
    rw [mem_iff, List.mem_singleton, isBlock.isComponent_iff high wide]
    refine ⟨And.left, ?_⟩
    rintro rfl
    exact ⟨rfl, b, Grid.bounds_block high wide, large⟩
  have one := traces Rat
  rw [alone, List.forall₂_cons_left_iff] at one
  obtain ⟨l, rest, ⟨box, trace⟩, none, eq⟩ := one
  rw [List.forall₂_nil_left_iff] at none
  rw [eq, none, trace.block high wide]

/-- A page is blank but for a block, which is large enough for a line and stands as far from the
left and right border as the characters of a line may be apart. -/
structure ShowsBlock (s : DetectionSettings) (ink : Grid Bool) (b : Box) : Prop where
  isBlock : ink.IsBlock b
  joins : 1 ≤ s.closeWidth
  ordered : b.left ≤ b.right
  left : s.closeWidth ≤ b.left
  right : b.right + s.closeWidth < ink.width
  wide : s.minWidth ≤ b.width
  high : max 3 s.minHeight ≤ b.height

theorem ShowsBlock.detect_eq (h : ShowsBlock s ink b) :
    (detect s ink : List (TextLine Rat)) = [throughMiddle (b.moved ((s.closeWidth + 1) % 2))] := by
  have high := h.high
  have three : b.top + 2 ≤ b.bottom := by
    rw [Box.height] at high
    omega
  have ordered := h.ordered
  have closed := h.isBlock.closing (by omega) ordered h.joins h.left h.right
  refine detect_of_isBlock (closed.opening three ?_) (Nat.le_of_add_right_le three) ?_ ?_
  · exact Nat.add_le_add_right ordered _
  · exact Nat.add_le_add_right ordered _
  · rw [Box.width_moved, Box.height_moved]
    exact ⟨h.wide, by omega⟩

theorem first_throughMiddle (wide : b.left ≤ b.right) :
    (throughMiddle b).first = ((b.left : Rat), ((b.top : Rat) + b.bottom) / 2) := by
  obtain ⟨n, width⟩ : ∃ n, b.width = n + 1 := ⟨b.right - b.left, by rw [Box.width]; omega⟩
  rw [throughMiddle, width, List.range_succ_eq_map]
  rfl

theorem last_throughMiddle (wide : b.left ≤ b.right) :
    (throughMiddle b).last = ((b.right : Rat), ((b.top : Rat) + b.bottom) / 2) := by
  have width : b.width = b.right - b.left + 1 := by rw [Box.width]; omega
  rw [last, throughMiddle, width, List.range_succ, List.map_append, List.map_singleton,
    List.getLastD_concat, Nat.add_sub_cancel' wide]

theorem throughMiddle_moved_eq_iff (wide : b.left ≤ b.right) (shift : Nat) :
    throughMiddle (b.moved shift) = throughMiddle b ↔ shift = 0 := by
  refine ⟨fun same => ?_, fun none => none ▸ rfl⟩
  have first := congrArg TextLine.first same
  rw [first_throughMiddle wide, first_throughMiddle (Nat.add_le_add_right wide shift)] at first
  have left : ((b.left + shift : Nat) : Rat) = (b.left : Rat) := congrArg Prod.fst first
  exact Nat.add_eq_left.mp (Nat.cast_inj.mp left)

theorem long_singleton {l : TextLine Rat} (nonneg : 0 ≤ l.extent) :
    long longFraction [l] = [l] := by
  have part : (longFraction : Rat) * l.extent ≤ l.extent := by
    change ((4 : Int) : Rat) / ((5 : Int) : Rat) * l.extent ≤ l.extent
    push_cast
    linarith
  change [l].filter (reaches longFraction l.extent) = [l]
  rw [List.filter_singleton, reaches, decide_eq_true part, cond_true]

/-- The line of a block runs through the middle of it, in its own columns if the window that joins
characters is of odd width and one column to the right of them if it is even. The usual window is
even, so that the ends of the line are next to the edges of the block. -/
theorem detect_in_place_iff (s : DetectionSettings) (ink : Grid Bool) (b : Box)
    (h : ShowsBlock s ink b) :
    (detect s ink : List (TextLine Rat)) = [throughMiddle (b.moved ((s.closeWidth + 1) % 2))] ∧
    ((detect s ink : List (TextLine Rat)) = [throughMiddle b] ↔ s.closeWidth % 2 = 1) ∧
    (s = .standard →
      leftEnds (detectLong ink) = [((b.left : Rat) + 1, ((b.top : Rat) + b.bottom) / 2)] ∧
      rightEnds (detectLong ink) = [((b.right : Rat) + 1, ((b.top : Rat) + b.bottom) / 2)]) := by
  have found := h.detect_eq
  refine ⟨found, ?_, ?_⟩
  · rw [found, List.singleton_inj, throughMiddle_moved_eq_iff h.ordered]
    omega
  · rintro rfl
    have wide : (b.moved 1).left ≤ (b.moved 1).right := Nat.add_le_add_right h.ordered 1
    have first := first_throughMiddle wide
    have last := last_throughMiddle wide
    have extent : 0 ≤ (throughMiddle (b.moved 1)).extent := by
      rw [TextLine.extent, first, last]
      exact sub_nonneg.mpr (Nat.cast_le.mpr wide)
    have long : detectLong ink = [throughMiddle (b.moved 1)] := by
      rw [detectLong, found]
      exact long_singleton extent
    have sorted : ∀ q : Point Rat, topToBottom [q] = [q] := fun q => by simp [topToBottom]
    rw [long, leftEnds, rightEnds, List.map_singleton, List.map_singleton, sorted, sorted, first,
      last]
    simp [Box.moved]

end TextLine

namespace Strip

def ink : Grid Bool :=
  Grid.ofFn 10 200 fun y x => decide ((2 ≤ y ∧ y ≤ 7) ∧ 40 ≤ x ∧ x ≤ 159)

def box : Box := ⟨2, 40, 7, 159⟩

theorem showsBlock (n : Nat) (positive : 1 ≤ n) (small : n ≤ 40) :
    TextLine.ShowsBlock ⟨n, 100, 4⟩ ink box where
  isBlock p := by
    simp only [Grid.Inked, ink, Grid.get_ofFn_eq, box]
    split
    · exact decide_eq_true_iff
    · simp only [Bool.false_eq_true, false_iff]
      omega
  joins := positive
  ordered := by decide
  left := small
  right := by simp only [box, ink, Grid.width_ofFn]; omega
  wide := show (100 : Int) ≤ (box.width : Nat) by decide
  high := show max 3 (4 : Int) ≤ (box.height : Nat) by decide

theorem found_in_place :
    TextLine.ShowsBlock ⟨31, 100, 4⟩ ink box ∧
    (TextLine.detect ⟨31, 100, 4⟩ ink : List (TextLine Rat)) = [TextLine.throughMiddle box] ∧
    TextLine.ShowsBlock .standard ink box ∧
    TextLine.leftEnds (TextLine.detectLong ink) = [((40 : Rat) + 1, (2 + 7) / 2)] := by
  have odd := showsBlock 31 (by decide) (by decide)
  have even := showsBlock 30 (by decide) (by decide)
  refine ⟨odd, (TextLine.detect_in_place_iff _ ink box odd).2.1.mpr rfl, even, ?_⟩
  exact ((TextLine.detect_in_place_iff _ ink box even).2.2 rfl).1

/-- The usual detection does not find the strip where it is. -/
theorem found_displaced : TextLine.ShowsBlock .standard ink box ∧
    (TextLine.detect .standard ink : List (TextLine Rat)) ≠ [TextLine.throughMiddle box] ∧
    (TextLine.detect .standard ink : List (TextLine Rat)) =
      [TextLine.throughMiddle (box.moved 1)] := by
  have shows := showsBlock 30 (by decide) (by decide)
  have found := shows.detect_eq
  refine ⟨shows, fun same => ?_, found⟩
  have moved := List.singleton_inj.mp (found.symm.trans same)
  exact absurd ((TextLine.throughMiddle_moved_eq_iff shows.ordered _).mp moved) (by decide)

end Strip

end PageFlattening
