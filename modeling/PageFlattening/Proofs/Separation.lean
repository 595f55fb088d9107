import Mathlib
import PageFlattening.Proofs.FileNames
import PageFlattening.Proofs.RationalFits

/-! The level that separates a page. A level separates the pixels up to it from the lighter ones if
neither class is all but empty. The search goes through the levels with weight and mean of the
darker class, and comes to a level that separates or to none, where it stays at zero. Unless some
darker class is too thin to count, its means are exact and it finds the first level of greatest
variance between the classes. -/
namespace PageFlattening

open Finset

namespace SplitSearch

/-! ### Classes of a histogram -/

section Classes

def share (c : Nat → Nat) (n k : Nat) : Rat :=
  (∑ i ∈ range k, (c i : Rat)) / ∑ i ∈ range n, (c i : Rat)

def onePixel (c : Nat → Nat) (n : Nat) : Rat := 1 / ∑ i ∈ range n, (c i : Rat)

def moment (c : Nat → Nat) (n k : Nat) : Rat :=
  (∑ i ∈ range k, (i : Rat) * c i) / ∑ i ∈ range n, (c i : Rat)

def between (c : Nat → Nat) (n k : Nat) : Rat :=
  let dark := share c n (k + 1)
  let light := 1 - dark
  dark * light *
    (moment c n (k + 1) / dark - (moment c n n - moment c n (k + 1)) / light) ^ 2

structure Separates (c : Nat → Nat) (n k : Nat) : Prop where
  inside : k < n
  dark : leastWeight ≤ share c n (k + 1)
  light : share c n (k + 1) ≤ 1 - leastWeight

variable {c : Nat → Nat} {n k : Nat}

theorem leastWeight_eq : (leastWeight : Rat) = 1 / 8388608 := rfl

theorem leastWeight_pos : (0 : Rat) < leastWeight := by
  rw [leastWeight_eq]
  norm_num

theorem mul_onePixel (c : Nat → Nat) (n : Nat) (x : Rat) :
    x * onePixel c n = x / ∑ i ∈ range n, (c i : Rat) := (div_eq_mul_one_div x _).symm

theorem share_succ (c : Nat → Nat) (n k : Nat) :
    share c n (k + 1) = share c n k + c k * onePixel c n := by
  rw [share, sum_range_succ, add_div, mul_onePixel]
  rfl

theorem moment_succ (c : Nat → Nat) (n k : Nat) :
    moment c n (k + 1) = moment c n k + k * (c k * onePixel c n) := by
  rw [moment, sum_range_succ, add_div, mul_onePixel, mul_div_assoc]
  rfl

theorem share_nonneg (c : Nat → Nat) (n k : Nat) : 0 ≤ share c n k :=
  div_nonneg (sum_nonneg fun _ _ => Nat.cast_nonneg _) (sum_nonneg fun _ _ => Nat.cast_nonneg _)

theorem share_le_succ (c : Nat → Nat) (n k : Nat) : share c n k ≤ share c n (k + 1) := by
  rw [share_succ]
  have positive : (0 : Rat) ≤ c k * onePixel c n :=
    mul_nonneg (Nat.cast_nonneg _)
      (one_div_nonneg.mpr (sum_nonneg fun _ _ => Nat.cast_nonneg _))
  exact le_add_of_nonneg_right positive

theorem share_mono (c : Nat → Nat) (n : Nat) : Monotone (share c n) :=
  monotone_nat_of_le_succ (share_le_succ c n)

section Enough

variable {i : Nat} (some : 0 < ∑ i ∈ range n, c i) (enough : ∑ i ∈ range n, c i ≤ 2 ^ 23 * c i)

include some enough

theorem leastWeight_le_part : leastWeight ≤ c i * onePixel c n := by
  have total : (0 : Rat) < ∑ i ∈ range n, (c i : Rat) := by exact_mod_cast some
  have many : ∑ i ∈ range n, (c i : Rat) ≤ 2 ^ 23 * c i := by exact_mod_cast enough
  rw [mul_onePixel, le_div_iff₀ total, leastWeight_eq]
  linarith

theorem leastWeight_le_share (darker : i < k) : leastWeight ≤ share c n k := by
  have part := leastWeight_le_part some enough
  have next := share_succ c n i
  have least := share_nonneg c n i
  have rest := share_mono c n (Nat.succ_le_of_lt darker)
  linarith

theorem share_le_of_enough (inside : i < n) (lighter : k ≤ i) :
    share c n k ≤ 1 - leastWeight := by
  have whole : share c n n = 1 := by
    refine div_self fun none => some.ne' ?_
    exact_mod_cast none
  have part := leastWeight_le_part some enough
  have next := share_succ c n i
  have before := share_mono c n lighter
  have rest := share_mono c n (Nat.succ_le_of_lt inside)
  linarith

end Enough

theorem moment_of_share (none : share c n k = 0) : moment c n k = 0 := by
  rcases div_eq_zero_iff.mp none with empty | empty
  · have each := (sum_eq_zero_iff_of_nonneg fun i _ => Nat.cast_nonneg _).mp empty
    rw [moment, sum_eq_zero, zero_div]
    intro i member
    rw [each i member, mul_zero]
  · rw [moment, empty, div_zero]

namespace Separates

theorem dark_pos (h : Separates c n k) : 0 < share c n (k + 1) := leastWeight_pos.trans_le h.dark

theorem light_pos (h : Separates c n k) : 0 < 1 - share c n (k + 1) := by
  have room := h.light
  have positive := leastWeight_pos
  linarith

theorem total_pos (h : Separates c n k) : 0 < ∑ i ∈ range n, (c i : Rat) := by
  refine lt_of_le_of_ne (sum_nonneg fun _ _ => Nat.cast_nonneg _) fun none => ?_
  have dark := h.dark_pos
  rw [share, ← none, div_zero] at dark
  exact lt_irrefl _ dark

theorem light_eq (h : Separates c n k) : 1 - share c n (k + 1) =
    (∑ i ∈ Ico (k + 1) n, (c i : Rat)) / ∑ i ∈ range n, (c i : Rat) := by
  rw [sub_eq_iff_eq_add, share, ← add_div, add_comm, sum_range_add_sum_Ico _ h.inside,
    div_self h.total_pos.ne']

theorem exists_dark (h : Separates c n k) : ∃ i ≤ k, 0 < c i := by
  by_contra none
  push Not at none
  refine h.dark_pos.ne' ?_
  rw [share, sum_eq_zero, zero_div]
  intro i member
  have empty := none i (by simpa [Nat.lt_succ_iff] using member)
  exact_mod_cast Nat.le_zero.mp empty

theorem exists_light (h : Separates c n k) : ∃ i, k < i ∧ i < n ∧ 0 < c i := by
  by_contra none
  push Not at none
  refine h.light_pos.ne' ?_
  rw [h.light_eq, sum_eq_zero, zero_div]
  intro i member
  have inside := mem_Ico.mp member
  have empty := none i inside.1 inside.2
  exact_mod_cast Nat.le_zero.mp empty

/-- The mean of the darker class is at most the level, that of the lighter class is above it. -/
theorem between_pos (h : Separates c n k) : 0 < between c n k := by
  have dark := h.dark_pos
  have light := h.light_pos
  have total := h.total_pos
  have below : moment c n (k + 1) / share c n (k + 1) ≤ k := by
    rw [div_le_iff₀ dark, moment, share, ← mul_div_assoc, mul_sum]
    gcongr with i member
    exact Nat.lt_succ_iff.mp (mem_range.mp member)
  have above : (k + 1 : Rat) ≤ (moment c n n - moment c n (k + 1)) / (1 - share c n (k + 1)) := by
    have rest : moment c n n - moment c n (k + 1) =
        (∑ i ∈ Ico (k + 1) n, (i : Rat) * c i) / ∑ i ∈ range n, (c i : Rat) := by
      rw [moment, moment, ← sub_div, ← sum_range_add_sum_Ico _ h.inside, add_sub_cancel_left]
    rw [le_div_iff₀ light, rest, h.light_eq, ← mul_div_assoc, mul_sum]
    gcongr with i member
    exact_mod_cast (mem_Ico.mp member).1
  have apart : moment c n (k + 1) / share c n (k + 1) -
      (moment c n n - moment c n (k + 1)) / (1 - share c n (k + 1)) ≠ 0 := by
    intro same
    linarith
  exact mul_pos (mul_pos dark light) (by positivity)

end Separates

end Classes

/-! ### The search, level by level -/

section Search

variable {c : Nat → Nat} {n k : Nat}

def before (c : Nat → Nat) (n : Nat) : Nat → SplitSearch Rat
  | 0 => ⟨0, 0, 0, 0⟩
  | k + 1 => (before c n k).step (onePixel c n) (moment c n n) k (c k)

theorem zipIdx_map_range (c : Nat → Nat) (n : Nat) :
    ((List.range n).map c).zipIdx = (List.range n).map fun i => (c i, i) := by
  induction n with
  | zero => rfl
  | succ n ih => simp [List.range_succ, List.zipIdx_append, ih]

theorem run_eq_before (c : Nat → Nat) (n : Nat) :
    run ((List.range n).map c) = before c n n := by
  have scale : (Scalar.ofInt 1 : Rat) / Scalar.ofNat (((List.range n).map c).foldl (· + ·) 0) =
      onePixel c n := by
    have count : ((List.range n).map c).foldl (· + ·) 0 = ∑ i ∈ range n, c i :=
      List.sum_eq_foldl.symm
    rw [count, scalarOfNat_eq, Nat.cast_sum]
    rfl
  have total : (Scalar.sum (((List.range n).map c).zipIdx.map fun e => Scalar.ofNat (e.2 * e.1))) *
      onePixel c n = moment c n n := by
    have levels : ((List.range n).map fun i => (Scalar.ofNat (i * c i) : Rat)).sum =
        ∑ i ∈ range n, (i : Rat) * c i := by
      change ∑ i ∈ range n, (Scalar.ofNat (i * c i) : Rat) = _
      exact sum_congr rfl fun i _ => (scalarOfNat_eq _).trans (Nat.cast_mul i (c i))
    rw [scalarSum_eq, zipIdx_map_range, List.map_map, mul_onePixel]
    exact congrArg (· / _) levels
  have steps : ∀ k, ((List.range k).map c).zipIdx.foldl (fun s e =>
      s.step (onePixel c n) (moment c n n) e.2 e.1) ⟨0, 0, 0, 0⟩ =
        before c n k := by
    intro k
    induction k with
    | zero => rfl
    | succ k ih =>
        rw [zipIdx_map_range] at ih ⊢
        rw [List.range_succ, List.map_append, List.foldl_append, ih]
        rfl
  rw [run, scale, total]
  exact steps n

theorem passedOver_iff (inside : k < n) : (Scalar.min (share c n (k + 1)) (1 - share c n (k + 1)) <
      leastWeight ∨ 1 - leastWeight < Scalar.max (share c n (k + 1)) (1 - share c n (k + 1))) ↔
    ¬ Separates c n k := by
  rw [scalarMin_eq, scalarMax_eq, min_lt_iff, lt_max_iff]
  constructor
  · intro passed separates
    have dark := separates.dark
    have light := separates.light
    rcases passed with (h | h) | (h | h) <;> linarith
  · intro not
    by_contra kept
    push Not at kept
    exact not ⟨inside, kept.1.1, kept.2.1⟩

theorem weight_step {s : SplitSearch Rat} (weight : s.weight = share c n k) :
    s.weight + Scalar.ofNat (c k) * onePixel c n = share c n (k + 1) := by
  rw [weight, scalarOfNat_eq, share_succ]

theorem step_of_not {s : SplitSearch Rat} (weight : s.weight = share c n k) (inside : k < n)
    (not : ¬ Separates c n k) :
    s.step (onePixel c n) (moment c n n) k (c k) =
      { s with weight := share c n (k + 1), mean := s.mean * s.weight } := by
  rw [step, weight_step weight]
  exact if_pos ((passedOver_iff inside).mpr not)

theorem step_of_separates {s : SplitSearch Rat} (weight : s.weight = share c n k)
    (separates : Separates c n k) :
    s.step (onePixel c n) (moment c n n) k (c k) =
      let dark := share c n (k + 1)
      let mean := (s.mean * s.weight + k * (c k * onePixel c n)) / dark
      let variance := dark * (1 - dark) *
        (mean - (moment c n n - dark * mean) / (1 - dark)) ^ 2
      if s.variance < variance then ⟨dark, mean, k, variance⟩
      else { s with weight := dark, mean } := by
  have kept := (passedOver_iff separates.inside).not.mpr (not_not.mpr separates)
  rw [step, weight_step weight]
  simp only [scalarOfNat_eq]
  refine (if_neg kept).trans ?_
  simp only [pow_two, ← mul_assoc]
  rfl

theorem step_of_exact {s : SplitSearch Rat} (weight : s.weight = share c n k)
    (separates : Separates c n k) (same : s.mean * s.weight = moment c n k) :
    s.step (onePixel c n) (moment c n n) k (c k) =
      if s.variance < between c n k then
        ⟨share c n (k + 1), moment c n (k + 1) / share c n (k + 1), k, between c n k⟩
      else { s with
        weight := share c n (k + 1), mean := moment c n (k + 1) / share c n (k + 1) } := by
  rw [step_of_separates weight separates, same, ← moment_succ]
  simp only [mul_div_cancel₀ _ separates.dark_pos.ne']
  rfl

/-! What a step keeps, and with it the whole search. -/

structure Placed (c : Nat → Nat) (n k : Nat) (s : SplitSearch Rat) : Prop where
  weight : s.weight = share c n k
  best : s.best = 0 ∨ Separates c n s.best

theorem Placed.step {s : SplitSearch Rat} (placed : Placed c n k s) (inside : k < n) :
    Placed c n (k + 1) (s.step (onePixel c n) (moment c n n) k (c k)) := by
  by_cases separates : Separates c n k
  · rw [step_of_separates placed.weight separates]
    dsimp only
    split
    · exact ⟨rfl, Or.inr separates⟩
    · exact ⟨rfl, placed.best⟩
  · rw [step_of_not placed.weight inside separates]
    exact ⟨rfl, placed.best⟩

theorem placed_before (c : Nat → Nat) (n : Nat) {k : Nat} (inside : k ≤ n) :
    Placed c n k (before c n k) := by
  induction k with
  | zero => exact ⟨by simp [before, share], Or.inl rfl⟩
  | succ k ih => exact (ih (by omega)).step inside

/-- Every darker class is empty or counts as a class. -/
def NoneThin (c : Nat → Nat) (n : Nat) : Prop :=
  ∀ k ≤ n, share c n k = 0 ∨ leastWeight ≤ share c n k

inductive BestSplit (c : Nat → Nat) (n k : Nat) (s : SplitSearch Rat) : Prop where
  | none (best : s.best = 0) (variance : s.variance = 0) (no : ∀ i < k, ¬ Separates c n i)
  | some (inside : s.best < k) (separates : Separates c n s.best)
      (variance : s.variance = between c n s.best)
      (greatest : ∀ i < k, Separates c n i → between c n i ≤ between c n s.best)
      (first : ∀ i < s.best, Separates c n i → between c n i < between c n s.best)

/-- The search follows the darker class exactly while the lighter one counts, and has the best
split so far. -/
structure Follows (c : Nat → Nat) (n k : Nat) (s : SplitSearch Rat) : Prop where
  weight : s.weight = share c n k
  summed : share c n k ≤ 1 - leastWeight → s.mean * s.weight = moment c n k
  best : BestSplit c n k s

theorem BestSplit.pass {s t : SplitSearch Rat} (split : BestSplit c n k s) (best : t.best = s.best)
    (variance : t.variance = s.variance)
    (low : Separates c n k → between c n k ≤ s.variance) : BestSplit c n (k + 1) t := by
  rcases split with ⟨zero, flat, no⟩ | ⟨inside, separates, same, greatest, first⟩
  · refine .none (best.trans zero) (variance.trans flat) fun i below separates => ?_
    rcases Nat.lt_succ_iff_lt_or_eq.mp below with earlier | rfl
    · exact no i earlier separates
    · exact absurd (low separates) (not_le.mpr (flat ▸ separates.between_pos))
  · rw [← best] at inside separates same greatest first
    refine .some (by omega) separates (variance.trans same) (fun i below apart => ?_) first
    rcases Nat.lt_succ_iff_lt_or_eq.mp below with earlier | rfl
    · exact greatest i earlier apart
    · exact same ▸ low apart

theorem BestSplit.take {s t : SplitSearch Rat} (split : BestSplit c n k s) (best : t.best = k)
    (variance : t.variance = between c n k) (separates : Separates c n k)
    (higher : s.variance < between c n k) : BestSplit c n (k + 1) t := by
  have lower : ∀ i < k, Separates c n i → between c n i < between c n k := by
    intro i below apart
    rcases split with ⟨-, -, no⟩ | ⟨-, -, same, greatest, -⟩
    · exact absurd apart (no i below)
    · exact (greatest i below apart).trans_lt (same ▸ higher)
  subst best
  refine .some (Nat.lt_succ_self _) separates variance (fun i below apart => ?_) lower
  rcases Nat.lt_succ_iff_lt_or_eq.mp below with earlier | rfl
  · exact (lower i earlier apart).le
  · exact le_rfl

theorem Follows.step {s : SplitSearch Rat} (follows : Follows c n k s) (thin : NoneThin c n)
    (inside : k < n) : Follows c n (k + 1)
      (s.step (onePixel c n) (moment c n n) k (c k)) := by
  by_cases separates : Separates c n k
  · have same := follows.summed ((share_le_succ c n k).trans separates.light)
    have mean : moment c n (k + 1) / share c n (k + 1) * share c n (k + 1) = moment c n (k + 1) :=
      div_mul_cancel₀ _ separates.dark_pos.ne'
    rw [step_of_exact follows.weight separates same]
    split
    · rename_i higher
      exact ⟨rfl, fun _ => mean, follows.best.take rfl rfl separates higher⟩
    · rename_i low
      exact ⟨rfl, fun _ => mean, follows.best.pass rfl rfl fun _ => not_lt.mp low⟩
  · rw [step_of_not follows.weight inside separates]
    refine ⟨rfl, fun light => ?_, follows.best.pass rfl rfl fun apart => absurd apart separates⟩
    -- The lighter class counts, so that the darker one is empty.
    have none : share c n (k + 1) = 0 :=
      (thin (k + 1) inside).resolve_right fun dark => separates ⟨inside, dark, light⟩
    change s.mean * s.weight * share c n (k + 1) = moment c n (k + 1)
    rw [none, mul_zero, moment_of_share none]

theorem follows_before (thin : NoneThin c n) (inside : k ≤ n) : Follows c n k (before c n k) := by
  -- On the levels gone through; the guard on the lighter class passes down, as shares only grow.
  induction k with
  | zero =>
      refine ⟨by simp [before, share], fun _ => by simp [before, moment], .none rfl rfl ?_⟩
      intro i below
      exact absurd below (Nat.not_lt_zero i)
  | succ k ih => exact (ih (by omega)).step thin inside

theorem best_run (c : Nat → Nat) (n : Nat) :
    (run ((List.range n).map c) : SplitSearch Rat).best = 0 ∨
      Separates c n (run ((List.range n).map c) : SplitSearch Rat).best := by
  rw [run_eq_before]
  exact (placed_before c n le_rfl).best

theorem bestSplit_run (thin : NoneThin c n) :
    BestSplit c n n (run ((List.range n).map c)) := by
  rw [run_eq_before]
  exact (follows_before thin le_rfl).best

end Search

end SplitSearch

/-! ### Pages -/

open SplitSearch

def levelCount (g : Grid UInt8) (i : Nat) : Nat := (g.cells.toList.map UInt8.toNat).count i

section Histogram

theorem getElem?_foldl_histogram (levels : List UInt8) (counts : Array Nat) (i : Nat) :
    (levels.foldl (fun counts level => counts.modify level.toNat (· + 1)) counts)[i]? =
      counts[i]?.map (· + (levels.map UInt8.toNat).count i) := by
  induction levels generalizing counts with
  | nil => simp
  | cons level rest ih =>
      rw [List.foldl_cons, ih, Array.getElem?_modify, List.map_cons, List.count_cons]
      by_cases here : level.toNat = i
      · simp [here, Function.comp_def, Nat.add_assoc, Nat.add_comm 1]
      · simp [here]

theorem histogram_eq (g : Grid UInt8) :
    (histogram g).toList = (List.range 256).map (levelCount g) := by
  refine List.ext_getElem? fun i => ?_
  rw [histogram, ← Array.foldl_toList, Array.getElem?_toList, getElem?_foldl_histogram]
  by_cases inside : i < 256
  · simp [inside, levelCount]
  · simp [inside]

theorem sum_levelCount (g : Grid UInt8) : ∑ i ∈ range 256, levelCount g i = g.cells.size := by
  have low : ∀ i ∈ (g.cells.toList.map UInt8.toNat : Multiset Nat), i ∈ range 256 := by
    intro i member
    obtain ⟨level, -, rfl⟩ := List.mem_map.mp member
    exact mem_range.mpr level.toNat_lt
  have counted := Multiset.sum_count_eq_card low
  simpa [levelCount] using counted

theorem levelCount_pos {g : Grid UInt8} {i : Nat} (positive : 0 < levelCount g i) :
    ∃ level ∈ g.cells, level.toNat = i := by
  obtain ⟨level, member, same⟩ := List.mem_map.mp (List.count_pos_iff.mp positive)
  exact ⟨level, Array.mem_toList_iff.mp member, same⟩

theorem levelCount_toNat (g : Grid UInt8) (level : UInt8) :
    levelCount g level.toNat = g.cells.count level := by
  rw [levelCount, List.count_map_of_injective _ _ fun _ _ => UInt8.toNat_inj.mp,
    Array.count_toList]

theorem sum_levelCount_le {g : Grid UInt8} {level : UInt8}
    (enough : g.height * g.width ≤ 2 ^ 23 * g.cells.count level) :
    ∑ i ∈ range 256, levelCount g i ≤ 2 ^ 23 * levelCount g level.toNat := by
  rw [sum_levelCount, levelCount_toNat, g.size_eq]
  exact enough

theorem bestThreshold_cases (g : Grid UInt8) : bestThreshold Rat g = 0 ∨
    Separates (levelCount g) 256 (bestThreshold Rat g) := by
  rw [bestThreshold, histogram_eq]
  exact best_run (levelCount g) 256

theorem bestThreshold_lt (g : Grid UInt8) : bestThreshold Rat g < 255 := by
  rcases bestThreshold_cases g with zero | separates
  · omega
  · obtain ⟨i, above, inside, -⟩ := separates.exists_light
    omega

end Histogram

/-- A gray page with pixels of two levels, enough of each to count as a class. -/
structure TwoLevels (g : Grid UInt8) (a b : UInt8) : Prop where
  order : a < b
  only : ∀ level ∈ g.cells, level = a ∨ level = b
  dark : a ∈ g.cells
  light : b ∈ g.cells
  darkShare : g.height * g.width ≤ 2 ^ 23 * g.cells.count a
  lightShare : g.height * g.width ≤ 2 ^ 23 * g.cells.count b

namespace TwoLevels

variable {g : Grid UInt8} {a b : UInt8}

theorem total_pos (h : TwoLevels g a b) : 0 < ∑ i ∈ range 256, levelCount g i := by
  rw [sum_levelCount]
  exact Array.size_pos_of_mem h.dark

theorem eq_or_eq (h : TwoLevels g a b) {i : Nat} (positive : 0 < levelCount g i) :
    i = a.toNat ∨ i = b.toNat := by
  obtain ⟨level, member, rfl⟩ := levelCount_pos positive
  exact (h.only level member).imp (congrArg UInt8.toNat) (congrArg UInt8.toNat)

theorem noneThin (h : TwoLevels g a b) : NoneThin (levelCount g) 256 := by
  intro k _
  by_cases above : a.toNat < k
  · exact Or.inr (leastWeight_le_share h.total_pos (sum_levelCount_le h.darkShare) above)
  · refine Or.inl ?_
    rw [share, sum_eq_zero, zero_div]
    intro i member
    have order : a.toNat < b.toNat := h.order
    have darker := mem_range.mp member
    by_contra present
    have positive : 0 < levelCount g i := Nat.pos_of_ne_zero fun none => present (by simp [none])
    rcases h.eq_or_eq positive with same | same <;> omega

theorem separates (h : TwoLevels g a b) : Separates (levelCount g) 256 a.toNat where
  inside := a.toNat_lt
  dark := leastWeight_le_share h.total_pos (sum_levelCount_le h.darkShare) (Nat.lt_succ_self _)
  light := share_le_of_enough h.total_pos (sum_levelCount_le h.lightShare) b.toNat_lt h.order

theorem bestThreshold_between (h : TwoLevels g a b) :
    a.toNat ≤ bestThreshold Rat g ∧ bestThreshold Rat g < b.toNat := by
  have order : a.toNat < b.toNat := h.order
  have separates : Separates (levelCount g) 256 (bestThreshold Rat g) := by
    rw [bestThreshold, histogram_eq]
    rcases bestSplit_run h.noneThin with ⟨-, -, no⟩ | ⟨-, separates, -⟩
    · exact absurd h.separates (no _ a.toNat_lt)
    · exact separates
  -- There is a pixel on each side, and only two levels that it can have.
  obtain ⟨i, below, dark⟩ := separates.exists_dark
  obtain ⟨j, above, -, light⟩ := separates.exists_light
  rcases h.eq_or_eq dark with same | same <;> rcases h.eq_or_eq light with same' | same' <;> omega

end TwoLevels

section Reading

theorem Grid.map_congr {α β : Type} {g : Grid α} {f f' : α → β}
    (same : ∀ cell ∈ g.cells, f cell = f' cell) : g.map f = g.map f' := by
  have cells : g.cells.map f = g.cells.map f' := Array.map_congr_left same
  simp only [Grid.map, cells]

theorem darkPixels_inkLevels (g : Grid Bool) {t : Nat} (low : t < 255) :
    darkPixels (Page.inkLevels g) t = g := by
  have back : ((fun level : UInt8 => decide ((level.toNat : Int) ≤ t)) ∘
      fun ink : Bool => if ink then 0 else 255) = id := by
    funext ink
    cases ink with
    | false =>
        have light : ¬ ((255 : UInt8).toNat : Int) ≤ t := by
          change ¬ (255 : Int) ≤ t
          omega
        exact decide_eq_false light
    | true => exact decide_eq_true (Int.natCast_nonneg t)
  simp only [darkPixels, Page.inkLevels, Grid.map, Array.map_map, back, Array.map_id]

theorem TwoLevels.darkPixels_eq {g : Grid UInt8} {a b : UInt8} (h : TwoLevels g a b) {t : Nat}
    (dark : a.toNat ≤ t) (light : t < b.toNat) : darkPixels g t = g.map (· == a) := by
  refine Grid.map_congr fun level member => ?_
  have order : a ≠ b := UInt8.ne_of_lt h.order
  rcases h.only level member with rfl | rfl
  · simpa using dark
  · rw [beq_eq_false_iff_ne.mpr order.symm]
    exact decide_eq_false (by omega)

theorem binarize_gray {source : Source} {g : Grid UInt8} (loaded : source.load = .ok (.gray g))
    {threshold : Int} (best : threshold ≤ 0) :
    source.binarize Rat threshold = .ok (darkPixels g (bestThreshold Rat g)) := by
  rw [Source.binarize, loaded]
  change Except.ok (darkPixels g (if 0 < threshold then threshold else bestThreshold Rat g)) = _
  rw [if_neg (not_lt.mpr best)]

/-- Ink is found again. A page of one bit per pixel comes back from the file that it is written to,
whatever of it is ink, and of a page with two levels exactly the darker one is ink. -/
theorem binarize_finds_ink {threshold : Int} (best : threshold ≤ 0) :
    (∀ (g : Grid Bool) (name : String),
      Document.formats.contains (Text.formatWord name).toLower = true →
      ∃ out levels, Document.write name (.bit g) = .ok out ∧
        (Source.picture (.ofPage out.page)).load = .ok (.gray levels) ∧
        ∀ source : Source, source.load = .ok (.gray levels) →
          source.binarize Rat threshold = .ok g) ∧
    (∀ (source : Source) (levels : Grid UInt8) (a b : UInt8),
      source.load = .ok (.gray levels) → TwoLevels levels a b →
      source.binarize Rat threshold = .ok (levels.map (· == a))) := by
  constructor
  · intro g name format
    refine ⟨⟨name, .gray (Page.inkLevels g)⟩, Page.inkLevels g, if_pos format, rfl, ?_⟩
    intro source loaded
    rw [binarize_gray loaded best, darkPixels_inkLevels g (bestThreshold_lt _)]
  · intro source levels a b loaded two
    obtain ⟨dark, light⟩ := two.bestThreshold_between
    rw [binarize_gray loaded best, two.darkPixels_eq dark light]

end Reading

def faded : Grid UInt8 := ⟨1, 4, #[20, 230, 230, 230], rfl⟩

theorem faded_twoLevels : TwoLevels faded 20 230 where
  order := by decide
  only := by simp [faded]
  dark := by simp [faded]
  light := by simp [faded]
  darkShare := by decide
  lightShare := by decide

theorem faded_found : ∃ out levels,
    Document.write "blank.png" (.bit (Grid.replicate 2 3 false)) = .ok out ∧
      (Source.picture (.ofPage out.page)).load = .ok (.gray levels) ∧
      (Source.picture (.ofPage out.page)).binarize Rat 0 = .ok (Grid.replicate 2 3 false) ∧
      (Source.page (.gray faded)).binarize Rat 0 =
        .ok ⟨1, 4, #[true, false, false, false], rfl⟩ := by
  have format : Document.formats.contains (Text.formatWord "blank.png").toLower = true := by
    rw [show "blank.png" = "blank" ++ ".png" by decide, Text.formatWord_append (by decide +kernel)]
    decide +kernel
  obtain ⟨written, two⟩ := binarize_finds_ink (show (0 : Int) ≤ 0 from le_rfl)
  obtain ⟨out, levels, file, read, back⟩ := written (Grid.replicate 2 3 false) "blank.png" format
  refine ⟨out, levels, file, read, back _ read, ?_⟩
  rw [two _ faded 20 230 rfl faded_twoLevels]
  simp [faded, Grid.map]

end PageFlattening
