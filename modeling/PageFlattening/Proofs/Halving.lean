import Mathlib.Algebra.BigOperators.Group.Finset.Basic
import Mathlib.Algebra.Order.BigOperators.Group.Finset
import Mathlib.Tactic.Ring
import PageFlattening.Image.Binarize
import PageFlattening.Proofs.Components
import PageFlattening.Proofs.Evaluation
import PageFlattening.Proofs.Outcome

/-! Pages at half size. A pixel stands for four of the page, or for fewer at an odd end, and halving
the two coordinates of a pixel tells which one stands for it. What a rank makes of a page follows
from the number of set pixels under each. -/
namespace PageFlattening

namespace Grid

/-- The set pixels of a page among the four that a pixel at half size stands for. -/
def under (g : Grid Bool) (q : Pixel) : Finset Pixel :=
  ({(2 * q.1, 2 * q.2), (2 * q.1, 2 * q.2 + 1), (2 * q.1 + 1, 2 * q.2),
    (2 * q.1 + 1, 2 * q.2 + 1)} : Finset Pixel).filter fun p =>
      p.1 < g.height ∧ p.2 < g.width ∧ g.get false p.1 p.2 = true

variable {g g' : Grid Bool} {p q : Pixel}

theorem mem_under : p ∈ g.under q ↔ g.Inked p ∧ (p.1 / 2, p.2 / 2) = q := by
  obtain ⟨y, x⟩ := p
  obtain ⟨i, j⟩ := q
  have inside : g.Inked (y, x) → y < g.height ∧ x < g.width := Inked.inside
  simp only [under, Finset.mem_filter, Finset.mem_insert, Finset.mem_singleton, Prod.mk.injEq]
  change _ ∧ _ ∧ _ ∧ g.Inked (y, x) ↔ _
  grind

theorem under_subset (darker : ∀ p, g.Inked p → g'.Inked p) (q : Pixel) :
    g.under q ⊆ g'.under q := by
  intro p member
  obtain ⟨inked, above⟩ := mem_under.mp member
  exact mem_under.mpr ⟨darker p inked, above⟩

theorem card_under (g : Grid Bool) (q : Pixel) : (g.under q).card =
    (if g.get false (2 * q.1) (2 * q.2) then 1 else 0) +
      (if g.get false (2 * q.1) (2 * q.2 + 1) then 1 else 0) +
      (if g.get false (2 * q.1 + 1) (2 * q.2) then 1 else 0) +
      (if g.get false (2 * q.1 + 1) (2 * q.2 + 1) then 1 else 0) := by
  have there : ∀ p : Pixel, (p.1 < g.height ∧ p.2 < g.width ∧ g.get false p.1 p.2 = true) ↔
      g.get false p.1 p.2 = true := by
    intro p
    refine ⟨fun h => h.2.2, fun inked => ?_⟩
    obtain ⟨row, column⟩ := Inked.inside (p := p) inked
    exact ⟨row, column, inked⟩
  simp only [under, there, Finset.card_filter]
  rw [Finset.sum_insert (by simp), Finset.sum_insert (by simp), Finset.sum_insert (by simp),
    Finset.sum_singleton, add_assoc, add_assoc]

end Grid

open Grid

/-! ### Blocks -/

theorem blockSums_eq {g : Grid Nat} {columns : Nat} (even : g.width = 2 * columns) :
    blockSums g = ofFn (g.height / 2) columns fun y x =>
      g.get 0 (2 * y) (2 * x) + g.get 0 (2 * y) (2 * x + 1) +
        g.get 0 (2 * y + 1) (2 * x) + g.get 0 (2 * y + 1) (2 * x + 1) := by
  have half : g.width / 2 = columns := by omega
  rw [blockSums, half]
  refine ofFn_congr fun y _ x column => ?_
  -- Where a cell stands among four sides is where it stands among two.
  have cell : ∀ dy dx, dx < 2 → g.cells.getD (((y * 2 + dy) * columns + x) * 2 + dx) 0 =
      g.get 0 (2 * y + dy) (2 * x + dx) := by
    intro dy dx inside
    have position : ((y * 2 + dy) * columns + x) * 2 + dx =
        (2 * y + dy) * g.width + (2 * x + dx) := by
      rw [even]
      ring
    rw [Grid.get, if_pos (by omega), position]
  have first := cell 0 0 (by decide)
  have second := cell 0 1 (by decide)
  have third := cell 1 0 (by decide)
  have fourth := cell 1 1 (by decide)
  simp only [List.range_succ, List.range_zero, List.nil_append, List.flatMap_append,
    List.flatMap_cons, List.flatMap_nil, List.append_nil, List.map_append, List.map_cons,
    List.map_nil, List.foldl_append, List.foldl_cons, List.foldl_nil, first, second, third, fourth]
  simp only [Nat.add_zero, Nat.zero_add]

theorem padded_get (g : Grid Bool) (y x : Nat) :
    (padded g).get 0 y x = if g.get false y x then 1 else 0 := by
  rw [padded, get_ofFn_eq]
  split
  · cases g.get false y x <;> rfl
  · rename_i away
    rw [get_outside (by omega), if_neg (by decide)]

/-- The four pixels of a block decide what it is halved to; those beyond the page are not set. -/
theorem reduceRank_eq (g : Grid Bool) (rank : Nat) :
    reduceRank g rank = ofFn ((g.height + 1) / 2) ((g.width + 1) / 2) fun y x =>
      decide (rank ≤ (if g.get false (2 * y) (2 * x) then 1 else 0) +
        (if g.get false (2 * y) (2 * x + 1) then 1 else 0) +
        (if g.get false (2 * y + 1) (2 * x) then 1 else 0) +
        (if g.get false (2 * y + 1) (2 * x + 1) then 1 else 0)) := by
  have even : (padded g).width = 2 * ((g.width + 1) / 2) := by
    rw [padded, width_ofFn]
    omega
  have rows : (padded g).height / 2 = (g.height + 1) / 2 := by
    rw [padded, height_ofFn]
    omega
  rw [reduceRank, blockSums_eq even, map_ofFn, rows]
  simp only [padded_get]

/-! ### Ranks -/

structure HalvedBy (rank : Nat) (g r : Grid Bool) : Prop where
  height : r.height = g.height ⌈/⌉ 2
  width : r.width = g.width ⌈/⌉ 2
  inked_iff : ∀ q, r.Inked q ↔ rank ≤ (g.under q).card

namespace HalvedBy

variable {rank rank' : Nat} {g g' r r' : Grid Bool}

theorem mono (h : HalvedBy rank g r) (h' : HalvedBy rank g' r')
    (darker : ∀ p, g.Inked p → g'.Inked p) (q : Pixel) (inked : r.Inked q) : r'.Inked q := by
  rw [h.inked_iff] at inked
  rw [h'.inked_iff]
  exact inked.trans (Finset.card_le_card (under_subset darker q))

theorem anti (h : HalvedBy rank g r) (h' : HalvedBy rank' g r') (le : rank ≤ rank') (q : Pixel)
    (inked : r'.Inked q) : r.Inked q := by
  rw [h'.inked_iff] at inked
  rw [h.inked_iff]
  exact le.trans inked

theorem inked_iff_exists (h : HalvedBy 1 g r) (q : Pixel) :
    r.Inked q ↔ ∃ p, g.Inked p ∧ (p.1 / 2, p.2 / 2) = q := by
  rw [h.inked_iff, Nat.one_le_iff_ne_zero, ← Nat.pos_iff_ne_zero, Finset.card_pos]
  exact exists_congr fun _ => mem_under

end HalvedBy

theorem halvedBy_reduceRank (g : Grid Bool) {rank : Nat} (positive : 1 ≤ rank) :
    HalvedBy rank g (reduceRank g rank) where
  height := congrArg Grid.height (reduceRank_eq g rank)
  width := congrArg Grid.width (reduceRank_eq g rank)
  inked_iff q := by
    by_cases inside : q.1 < (g.height + 1) / 2 ∧ q.2 < (g.width + 1) / 2
    · rw [Inked, reduceRank_eq, get_ofFn _ _ inside.1 inside.2, card_under]
      exact decide_eq_true_iff
    · have off : ¬ (reduceRank g rank).Inked q := by
        rw [reduceRank_eq]
        exact fun inked => inside inked.inside
      have none : g.under q = ∅ := by
        refine Finset.eq_empty_of_forall_notMem fun p member => ?_
        obtain ⟨inked, rfl⟩ := mem_under.mp member
        have size := inked.inside
        dsimp only at inside
        omega
      rw [none, Finset.card_empty]
      exact iff_of_false off (by omega)

section Reading

variable {K : Type} [Scalar K]

theorem checkRank_int {rank : Nat} (low : 1 ≤ rank) (high : rank ≤ 4) :
    checkRank (.int rank : Value K) = .ok rank := by
  interval_cases rank <;> rfl

theorem reduce_halvedBy {source : Source} {g : Grid Bool} (loaded : source.loadBit = .ok g)
    {rank : Nat} (low : 1 ≤ rank) (high : rank ≤ 4) :
    ∃ r, source.reduce (.int rank : Value K) = .ok r ∧ HalvedBy rank g r := by
  refine ⟨reduceRank g rank, ?_, halvedBy_reduceRank g low⟩
  rw [Source.reduce, checkRank_int low high, loaded]
  rfl

/-- A page is halved by the number of set pixels under each pixel. So more ink on the page gives no
less ink, a higher rank no more, and at the lowest rank exactly the set pixels are traced. -/
theorem reduce_by_rank {source : Source} {g : Grid Bool} (loaded : source.loadBit = .ok g)
    {rank : Nat} (low : 1 ≤ rank) (high : rank ≤ 4) :
    ∃ r, source.reduce (.int rank : Value K) = .ok r ∧ HalvedBy rank g r ∧
      (∀ source' g', Source.loadBit source' = .ok g' → (∀ p, g.Inked p → g'.Inked p) →
        ∃ r', source'.reduce (.int rank : Value K) = .ok r' ∧ ∀ q, r.Inked q → r'.Inked q) ∧
      (∀ rank', rank ≤ rank' → rank' ≤ 4 →
        ∃ r', source.reduce (.int rank' : Value K) = .ok r' ∧ ∀ q, r'.Inked q → r.Inked q) ∧
      (rank = 1 → (∀ p, g.Inked p → r.Inked (p.1 / 2, p.2 / 2)) ∧
        ∀ q, r.Inked q → ∃ p, g.Inked p ∧ (p.1 / 2, p.2 / 2) = q) := by
  obtain ⟨r, reduced, halved⟩ := reduce_halvedBy (K := K) loaded low high
  refine ⟨r, reduced, halved, ?_, ?_, ?_⟩
  · intro source' g' loaded' darker
    obtain ⟨r', reduced', halved'⟩ := reduce_halvedBy (K := K) loaded' low high
    exact ⟨r', reduced', halved.mono halved' darker⟩
  · intro rank' le high'
    obtain ⟨r', reduced', halved'⟩ := reduce_halvedBy (K := K) loaded (low.trans le) high'
    exact ⟨r', reduced', halved.anti halved' le⟩
  · rintro rfl
    exact ⟨fun p inked => (halved.inked_iff_exists _).mpr ⟨p, inked, rfl⟩,
      fun q => (halved.inked_iff_exists q).mp⟩

end Reading

def chequered : Grid Bool := Grid.ofFn 3 3 fun y x => (y + x) % 2 == 0

/-- Two of four pixels are set in the first corner; the last corner stands for one pixel only. -/
theorem chequered_by_rank : ∃ once twice,
    (Source.page (.bit chequered)).reduce (.int 1 : Value Rat) = .ok once ∧
      (Source.page (.bit chequered)).reduce (.int 2 : Value Rat) = .ok twice ∧
      HalvedBy 1 chequered once ∧ HalvedBy 2 chequered twice ∧
      (once.height = 2 ∧ once.width = 2) ∧ once.Inked (1, 1) ∧
      twice.Inked (0, 0) ∧ ¬ twice.Inked (1, 1) := by
  have loaded : (Source.page (.bit chequered)).loadBit = .ok chequered := rfl
  obtain ⟨once, reduced, halved, -, -, traced⟩ :=
    reduce_by_rank (K := Rat) loaded (show 1 ≤ 1 by decide) (by decide)
  obtain ⟨twice, reduced', halved', -⟩ :=
    reduce_by_rank (K := Rat) loaded (show 1 ≤ 2 by decide) (by decide)
  refine ⟨once, twice, reduced, reduced', halved, halved', ⟨halved.height, halved.width⟩,
    ?_, ?_, ?_⟩
  · exact (traced rfl).1 (2, 2) rfl
  · exact (halved'.inked_iff _).mpr (by decide)
  · exact (halved'.inked_iff _).not.mpr (by decide)

end PageFlattening
