import Mathlib
import PageFlattening.Build.Page
import PageFlattening.Proofs.Outcome

/-! Forms of the line detection that can be followed step by step. A window of one row acts row by
row and one of one column column by column, sets of pixels are numbers with a bit for each pixel,
and sorting by a key is insertion. A page with four lines is followed through to its model. -/
namespace PageFlattening

namespace Grid

variable {α : Type}

theorem ofFn_congr {height width : Nat} {f g : Nat → Nat → α}
    (same : ∀ y < height, ∀ x < width, f y x = g y x) :
    ofFn height width f = ofFn height width g := by
  unfold ofFn
  congr 2
  funext i
  have inside : i.val < height * width := i.isLt
  have filled : 0 < width := Nat.pos_of_mul_pos_left (Nat.lt_of_le_of_lt (Nat.zero_le _) inside)
  have row : i.val / width < height := (Nat.div_lt_iff_lt_mul filled).mpr inside
  exact same _ row _ (Nat.mod_lt _ filled)

theorem get_ofFn_eq (height width : Nat) (f : Nat → Nat → α) (outside : α) (y x : Nat) :
    (ofFn height width f).get outside y x =
      if y < height ∧ x < width then f y x else outside := by
  split
  · rename_i inside
    exact get_ofFn f outside inside.1 inside.2
  · rename_i away
    refine get_outside ?_
    rw [height_ofFn, width_ofFn]
    omega

theorem map_ofFn {β : Type} (height width : Nat) (f : Nat → Nat → α) (k : α → β) :
    (ofFn height width f).map k = ofFn height width fun y x => k (f y x) := by
  simp [map, ofFn, Array.map_ofFn, Function.comp_def]

end Grid

/-! Windows. -/

namespace Window

def anyNear (extent length : Nat) (line : Nat → Bool) (x : Nat) : Bool :=
  Nat.any extent fun j _ =>
    extent / 2 ≤ x + j && (decide (x + j - extent / 2 < length) && line (x + j - extent / 2))

def allNear (extent length : Nat) (line : Nat → Bool) (x : Nat) : Bool :=
  Nat.all extent fun j _ =>
    decide (x + j < extent / 2) ||
      (!decide (x + j - extent / 2 < length) || line (x + j - extent / 2))

variable (n height width : Nat) (f : Nat → Nat → Bool)

theorem dilate_row : (Window.mk 1 n).dilate (Grid.ofFn height width f) =
    Grid.ofFn height width fun y x => anyNear n width (f y) x := by
  refine Grid.ofFn_congr fun y (row : y < height) x _ => ?_
  simp [anySet, anyNear, Nat.any, Grid.get_ofFn_eq, row]

theorem erode_row : (Window.mk 1 n).erode (Grid.ofFn height width f) =
    Grid.ofFn height width fun y x => allNear n width (f y) x := by
  refine Grid.ofFn_congr fun y (row : y < height) x _ => ?_
  simp [allSet, allNear, Nat.all, Grid.get_ofFn_eq, row]

theorem dilate_column : (Window.mk n 1).dilate (Grid.ofFn height width f) =
    Grid.ofFn height width fun y x => anyNear n height (fun y => f y x) y := by
  refine Grid.ofFn_congr fun y _ x (column : x < width) => ?_
  simp [anySet, anyNear, Nat.any, Grid.get_ofFn_eq, column]

theorem erode_column : (Window.mk n 1).erode (Grid.ofFn height width f) =
    Grid.ofFn height width fun y x => allNear n height (fun y => f y x) y := by
  refine Grid.ofFn_congr fun y _ x (column : x < width) => ?_
  simp [allSet, allNear, Nat.all, Grid.get_ofFn_eq, column]

end Window

/-! Components. -/

namespace Component

/-- The bits of a number are the set pixels of a page, row by row. -/
def Masks (mask : Nat) (g : Grid Bool) : Prop :=
  ∀ y x, x < g.width → g.get false y x = mask.testBit (y * g.width + x)

theorem masks_ofFn {mask height width : Nat} {f : Nat → Nat → Bool}
    (small : mask < 2 ^ (height * width))
    (same : ∀ y < height, ∀ x < width, f y x = mask.testBit (y * width + x)) :
    Masks mask (Grid.ofFn height width f) := by
  intro y x column
  rw [Grid.width_ofFn] at column ⊢
  rw [Grid.get_ofFn_eq]
  by_cases row : y < height
  · rw [if_pos ⟨row, column⟩, same y row x column]
  · have beyond : height * width ≤ y * width + x := by
      have := Nat.mul_le_mul_right width (Nat.not_lt.mp row)
      omega
    rw [if_neg fun inside => row inside.1, eq_comm]
    exact Nat.testBit_lt_two_pow (Nat.lt_of_lt_of_le small (Nat.pow_le_pow_right (by omega) beyond))

def spreadMask (width : Nat) : Nat → Nat × Component → List Pixel → Nat × Component
  | 0, fill, _ => fill
  | _ + 1, fill, [] => fill
  | steps + 1, (free, found), p :: rest =>
      if p.2 < width ∧ free.testBit (p.1 * width + p.2) = true then
        spreadMask width steps (free ^^^ 2 ^ (p.1 * width + p.2), p :: found) (around p ++ rest)
      else spreadMask width steps (free, found) rest

def lookMask (height width : Nat) (s : Nat × List Component) (position : Nat) :
    Nat × List Component :=
  let p : Pixel := (position / width, position % width)
  if p.2 < width ∧ s.1.testBit (p.1 * width + p.2) = true then
    let fill := spreadMask width (9 * (height * width) + 1) (s.1, []) [p]
    (fill.1, fill.2 :: s.2)
  else s

def ofMask (height width mask : Nat) : List Component :=
  ((List.range (height * width)).foldl (lookMask height width) (mask, [])).2.reverse

/-- The bits of a number are the set pixels that have not been reached. -/
def Free (g : Grid Bool) (seen : Array Bool) (free : Nat) : Prop :=
  ∀ p, isNew g seen p = true ↔ p.2 < g.width ∧ free.testBit (p.1 * g.width + p.2) = true

theorem free_start {g : Grid Bool} {mask : Nat} (h : Masks mask g) :
    Free g (Array.replicate (g.height * g.width) false) mask := by
  intro p
  by_cases column : p.2 < g.width
  · by_cases row : p.1 < g.height
    · have inside := Grid.position_lt row column
      simp [isNew, h p.1 p.2 column, column, Array.getD, inside]
    · have outside : g.get false p.1 p.2 = false := Grid.get_outside (Or.inl (by omega))
      have absent := (h p.1 p.2 column).symm.trans outside
      simp [isNew, outside, absent]
  · have outside : g.get false p.1 p.2 = false := Grid.get_outside (Or.inr (by omega))
    simp [isNew, outside, column]

theorem Free.step {g : Grid Bool} {seen : Array Bool} {free : Nat} (h : Free g seen free)
    {p : Pixel} (new : isNew g seen p = true) :
    Free g (seen.setIfInBounds (p.1 * g.width + p.2) true)
      (free ^^^ 2 ^ (p.1 * g.width + p.2)) := by
  intro q
  have reached := (h p).mp new
  by_cases same : p.1 * g.width + p.2 = q.1 * g.width + q.2
  · have inside : p.1 * g.width + p.2 < seen.size := by
      by_contra beyond
      simp [isNew, Array.getD, beyond] at new
    rw [same] at reached inside ⊢
    simp [isNew, Array.getD, inside, Nat.testBit_xor, reached.2]
  · have other : (seen.setIfInBounds (p.1 * g.width + p.2) true).getD (q.1 * g.width + q.2) true =
        seen.getD (q.1 * g.width + q.2) true := by
      simp [Array.getD_eq_getD_getElem?, same]
    have old := h q
    rw [isNew] at old ⊢
    rw [other, old, Nat.testBit_xor, Nat.testBit_two_pow]
    simp [same]

theorem spread_eq {g : Grid Bool} {seen : Array Bool} {free : Nat} (h : Free g seen free)
    (steps : Nat) (found : Component) (stack : List Pixel) :
    (spread g steps ⟨seen, found⟩ stack).found =
        (spreadMask g.width steps (free, found) stack).2 ∧
      Free g (spread g steps ⟨seen, found⟩ stack).seen
        (spreadMask g.width steps (free, found) stack).1 := by
  induction steps generalizing seen free found stack with
  | zero => exact ⟨rfl, h⟩
  | succ steps ih =>
      cases stack with
      | nil => exact ⟨rfl, h⟩
      | cons p rest =>
          rw [spread, spreadMask]
          by_cases new : isNew g seen p = true
          · rw [if_pos new, if_pos ((h p).mp new)]
            exact ih (h.step new) _ _
          · rw [if_neg new, if_neg (mt (h p).mpr new)]
            exact ih h _ _

theorem fold_look {g : Grid Bool} {mask : Nat} (h : Masks mask g) (count : Nat) :
    let s := Nat.fold count (fun position _ s => look g s position)
      ⟨Array.replicate (g.height * g.width) false, []⟩
    let t := (List.range count).foldl (lookMask g.height g.width) (mask, [])
    s.components = t.2 ∧ Free g s.seen t.1 := by
  induction count with
  | zero => exact ⟨rfl, free_start h⟩
  | succ count ih =>
      obtain ⟨components, free⟩ := ih
      rw [List.range_succ, List.foldl_append, Nat.fold_succ]
      simp only [List.foldl_cons, List.foldl_nil, look, lookMask]
      rw [← components]
      split
      · rename_i new
        rw [if_pos ((free _).mp new)]
        have filled := spread_eq free (9 * (g.height * g.width) + 1) []
          [(count / g.width, count % g.width)]
        exact ⟨congrArg (· :: _) filled.1, filled.2⟩
      · rename_i old
        rw [if_neg (mt (free _).mpr old)]
        exact ⟨components, free⟩

theorem all_eq_ofMask {g : Grid Bool} {mask : Nat} (h : Masks mask g) :
    all g = ofMask g.height g.width mask := by
  rw [all, ofMask]
  exact congrArg List.reverse (fold_look h _).1

end Component

/-! Sorting. -/

theorem orderedInsert_between {α : Type} {r : α → α → Prop} [DecidableRel r] {a : α}
    {before after : List α} (less : ∀ b ∈ before, ¬ r a b) (more : ∀ b ∈ after, r a b) :
    (before ++ after).orderedInsert r a = before ++ a :: after := by
  induction before with
  | nil =>
      cases after with
      | nil => rfl
      | cons b rest => exact List.orderedInsert_cons_of_le r rest (more b (by simp))
  | cons b rest ih =>
      rw [List.cons_append, List.orderedInsert_of_not_le r _ (less b (by simp)),
        ih fun c member => less c (by simp [member])]
      rfl

theorem mergeSort_key {α : Type} (key : α → Rat) (xs : List α) :
    (xs.mergeSort fun a b => decide (key a ≤ key b)) =
      xs.insertionSort fun a b => key a ≤ key b := by
  induction xs with
  | nil => simp
  | cons a xs ih =>
      have trans : ∀ a b c : α, decide (key a ≤ key b) = true → decide (key b ≤ key c) = true →
          decide (key a ≤ key c) = true := by
        simp only [decide_eq_true_eq]
        exact fun a b c => Rat.le_trans
      have total : ∀ a b : α, (decide (key a ≤ key b) || decide (key b ≤ key a)) = true := by
        simp only [Bool.or_eq_true, decide_eq_true_eq]
        exact fun a b => Rat.le_total
      obtain ⟨before, after, sorted, rest, less⟩ := List.mergeSort_cons trans total a xs
      have order := List.pairwise_mergeSort trans total (a :: xs)
      rw [sorted, List.pairwise_append, List.pairwise_cons] at order
      rw [sorted, List.insertionSort_cons, ← ih, rest, orderedInsert_between]
      · intro b member
        simpa using less b member
      · intro b member
        simpa using order.2.1.1 b member

theorem ascending_eq (xs : List Rat) : ascending xs = xs.insertionSort fun a b => a ≤ b :=
  mergeSort_key id xs

theorem topToBottom_eq (points : List (Point Rat)) :
    TextLine.topToBottom points = points.insertionSort fun p q => p.2 ≤ q.2 :=
  mergeSort_key (fun p : Point Rat => p.2) points

/-! Lines of components. -/

def TextLine.columnTable (c : Component) (left width : Nat) : List (Nat × Nat) :=
  c.foldl (fun table p => table.modify (p.2 - left) fun e => (e.1 + 1, e.2 + p.1))
    (List.replicate width (0, 0))

theorem TextLine.columnSums_toList (c : Component) (left width : Nat) :
    (columnSums c left width).toList = columnTable c left width := by
  have folded : ∀ table : Array (Nat × Nat),
      (c.foldl (fun table p => table.modify (p.2 - left) fun e => (e.1 + 1, e.2 + p.1))
        table).toList =
      c.foldl (fun table p => table.modify (p.2 - left) fun e => (e.1 + 1, e.2 + p.1))
        table.toList := by
    induction c with
    | nil => exact fun _ => rfl
    | cons p rest ih =>
        intro table
        rw [List.foldl_cons, ih, Array.toList_modify]
        rfl
  rw [columnSums, folded, Array.toList_replicate]
  rfl

theorem TextLine.ofComponent_eq {K : Type} [Scalar K] :
    (ofComponent : Component → TextLine K) = fun c =>
      (columnTable c c.box.left c.box.width).zipIdx.filterMap fun (e, j) =>
        if e.1 = 0 then none
        else some (Scalar.ofNat (c.box.left + j), Scalar.ofNat e.2 / Scalar.ofNat e.1) := by
  funext c
  rw [ofComponent, columnSums_toList]

/-! A page of four lines. -/

namespace Stepped

set_option maxRecDepth 10000

/-- Ink in lines of three rows with two rows from each to the next; left of an edge they stand one
row lower. -/
def ink (edge y x : Nat) : Bool :=
  if x < edge then decide (1 ≤ y % 5) && decide (y % 5 ≤ 3) else decide (y % 5 ≤ 2)

def page : Grid Bool := Grid.ofFn 19 100 (ink 50)

def smeared (y x : Nat) : Bool :=
  if y % 5 = 0 then decide (36 ≤ x) else if y % 5 = 3 then decide (x ≤ 64) else decide (y % 5 ≠ 4)

def core (y x : Nat) : Bool :=
  if x < 51 then decide (y % 5 = 2) || decide (y = 18) else decide (y % 5 = 1) || decide (y = 0)

theorem closing_page : (Window.mk 1 30).closing page = Grid.ofFn 19 100 (ink 51) := by
  -- Rows that are five apart are alike, so five of them are computed.
  have dilated : ∀ r < 5, ∀ x < 100, Window.anyNear 30 100 (ink 50 r) x = smeared r x := by
    decide +kernel
  have eroded : ∀ r < 5, ∀ x < 100, Window.allNear 30 100 (smeared r) x = ink 51 r x := by
    decide +kernel
  have inks : ∀ edge y, ink edge (y % 5) = ink edge y := fun edge y => by
    funext x
    simp only [ink, Nat.mod_mod]
  have smears : ∀ y, smeared (y % 5) = smeared y := fun y => by
    funext x
    simp only [smeared, Nat.mod_mod]
  rw [Window.closing, page, Window.dilate_row, Grid.ofFn_congr (g := smeared), Window.erode_row]
  · refine Grid.ofFn_congr fun y _ x column => ?_
    have here := eroded (y % 5) (Nat.mod_lt _ (by omega)) x column
    rwa [smears, inks] at here
  · intro y _ x column
    have here := dilated (y % 5) (Nat.mod_lt _ (by omega)) x column
    rwa [inks, smears] at here

theorem opening_lines : (Window.mk 3 1).opening (Grid.ofFn 19 100 (ink 51)) =
    Grid.ofFn 19 100 (ink 51) := by
  have eroded : ∀ y < 19, ∀ x < 100, Window.allNear 3 19 (fun y => ink 51 y x) y = core y x := by
    decide +kernel
  have dilated : ∀ y < 19, ∀ x < 100, Window.anyNear 3 19 (fun y => core y x) y = ink 51 y x := by
    decide +kernel
  rw [Window.opening, Window.erode_column, Grid.ofFn_congr eroded, Window.dilate_column,
    Grid.ofFn_congr dilated]

/-- The lines after detection as a number: four times a row of the right part, two full rows and a
row of the left part. -/
def mask : Nat :=
  ((2 ^ 49 - 1) * 2 ^ 51 + (2 ^ 100 - 1) * 2 ^ 100 + (2 ^ 100 - 1) * 2 ^ 200 +
    (2 ^ 51 - 1) * 2 ^ 300) * (1 + 2 ^ 500 + 2 ^ 1000 + 2 ^ 1500)

theorem masks_lines : Component.Masks mask (Grid.ofFn 19 100 (ink 51)) :=
  Component.masks_ofFn (by decide +kernel) (by decide +kernel)

def line (k : Nat) : TextLine Rat :=
  (List.range 100).map fun x =>
    ((x : Rat), ((if x < 51 then 5 * k + 2 else 5 * k + 1 : Nat) : Rat))

def lines : List (TextLine Rat) := (List.range 4).map line

theorem detectLong_page : (TextLine.detectLong page : List (TextLine Rat)) = lines := by
  have found : ((Component.ofMask 19 100 mask).filter (TextLine.largeEnough .standard)).map
      TextLine.ofComponent = lines := by
    rw [TextLine.ofComponent_eq]
    decide +kernel
  have all : (TextLine.detect .standard page : List (TextLine Rat)) = lines := by
    rw [TextLine.detect, TextLine.joined]
    change ((Component.all ((Window.mk 3 1).opening
      ((Window.mk 1 30).closing page))).filter _).map _ = _
    rw [closing_page, opening_lines, Component.all_eq_ofMask masks_lines]
    exact found
  rw [TextLine.detectLong, all]
  decide +kernel

def settings : BuildSettings :=
  { BuildSettings.standard with
    stride := 99, minLines := 4, stride_ge := by decide, minLines_ge := by decide }

def halving : BuildSettings := { settings with reduction := 2, reduction_eq := .inr rfl }

def figures (m : PageModel Rat) : Int × Int × Option Rat :=
  (m.statistics.minCurvature, m.statistics.maxCurvature,
    m.vertical.field?.map fun f => f.sample 0 0)

theorem ofLines_figures : ∀ e ∈ [(settings, 2), (halving, 0)], ∃ m,
    (BuildReport.ofLines e.1 page e.2 (.int 4) lines).map BuildReport.model = .ok m ∧
      figures m = (-15, -15, some (-7497 / 5050)) := by
  have sorted : ∀ read : List (SampledLine Rat),
      (read.mergeSort fun a b => decide (a.middle ≤ b.middle)) =
        read.insertionSort fun a b => a.middle ≤ b.middle :=
    mergeSort_key fun l : SampledLine Rat => l.middle
  have evaluated : ∀ e ∈ [(settings, 2), (halving, 0)],
      ((BuildReport.ofLines e.1 page e.2 (.int 4) lines).toOption.map
        fun report => figures report.model) = some (-15, -15, some (-7497 / 5050)) := by
    simp only [BuildReport.ofLines, BuildReport.addEdges, TextLine.leftEnds, TextLine.rightEnds,
      topToBottom_eq, VerticalFit.ofLines, LineFit.consistent, LineFit.isConsistent, LineFit.band,
      medianAndDeviation, medianDistance, median, ascending_eq, sorted]
    decide +kernel
  intro e member
  have values := evaluated e member
  cases made : BuildReport.ofLines e.1 page e.2 (.int 4) lines with
  | error fault =>
      rw [made] at values
      cases values
  | ok report =>
      rw [made] at values
      exact ⟨report.model, rfl, Option.some.inj values⟩

end Stepped

end PageFlattening
