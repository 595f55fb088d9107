import Mathlib
import PageFlattening.Layout.Columns
import PageFlattening.Proofs.Blocks
import PageFlattening.Proofs.FitPermutations

/-! Counting text columns is counting how often a profile can rise to one level with a fall below
another between. The scan takes every rise and every fall as soon as it can. To have fallen is never
worse than to be still up, and to be up costs at most one rise; so no other choice of places comes
to more (`scan_longest`). From there the count is the same from both ends of the profile, it does
not grow when the levels are moved apart, and a page with ink has a column. -/
namespace PageFlattening

namespace ColumnSettings

/-! ### Alternations -/

section Alternations

variable {K : Type} {high low : K → Bool} {values : List K} {m : Nat}

/-- Places in a list where it is high, and between any two of them one where it is low. -/
structure Alternates (high low : K → Bool) (values : List K) (m : Nat) (rise fall : Nat → Nat) :
    Prop where
  high : ∀ k < m, ∃ v, values[rise k]? = some v ∧ high v = true
  low : ∀ k, k + 1 < m → ∃ v, values[fall k]? = some v ∧ low v = true
  ordered : ∀ k, k + 1 < m → rise k < fall k ∧ fall k < rise (k + 1)

def after (first : Nat) (later : Nat → Nat) : Nat → Nat
  | 0 => first
  | k + 1 => later k + 1

inductive Climbs (high low : K → Bool) : Bool → List K → Nat → Prop
  | stop (inside : Bool) (values : List K) : Climbs high low inside values 0
  | pass {inside : Bool} {values : List K} {m : Nat} (v : K) :
      Climbs high low inside values m → Climbs high low inside (v :: values) m
  | rise {values : List K} {m : Nat} {v : K} : high v = true →
      Climbs high low true values m → Climbs high low false (v :: values) (m + 1)
  | fall {values : List K} {m : Nat} {v : K} : low v = true →
      Climbs high low false values m → Climbs high low true (v :: values) m

namespace Climbs

theorem outside (h : Climbs high low true values m) : Climbs high low false values m := by
  generalize up : true = inside at h
  induction h with
  | stop => exact .stop _ _
  | pass v _ ih => exact .pass v (ih up)
  | rise => cases up
  | fall _ rest => exact .pass _ rest

theorem inside (h : Climbs high low false values (m + 1)) : Climbs high low true values m := by
  generalize down : false = inside at h
  generalize count : m + 1 = n at h
  induction h with
  | stop => cases count
  | pass v _ ih => exact .pass v (ih down count)
  | rise _ rest =>
      obtain rfl := Nat.succ.inj count
      exact .pass _ rest
  | fall => cases down

theorem prepend {inside : Bool} (h : Climbs high low inside values m) (before : List K) :
    Climbs high low inside (before ++ values) m := by
  induction before with
  | nil => exact h
  | cons v _ ih => exact .pass v ih

theorem drop_of_le {inside : Bool} {i j : Nat} (h : Climbs high low inside (values.drop j) m)
    (le : i ≤ j) : Climbs high low inside (values.drop i) m := by
  have split := List.take_append_drop (j - i) (values.drop i)
  rw [List.drop_drop, Nat.add_sub_cancel' le] at split
  rw [← split]
  exact h.prepend _

/-- The places of the rises and falls. Inside a column there is a fall before the first rise. -/
theorem exists_alternates {inside : Bool} (h : Climbs high low inside values m) :
    ∃ rise fall, Alternates high low values m rise fall ∧
      (inside = true → 0 < m → ∃ j v, j < rise 0 ∧ values[j]? = some v ∧ low v = true) := by
  induction h with
  | stop => exact ⟨id, id, ⟨nofun, nofun, nofun⟩, nofun⟩
  | pass v _ ih =>
      obtain ⟨rise, fall, places, before⟩ := ih
      refine ⟨fun k => rise k + 1, fun k => fall k + 1,
        ⟨places.high, places.low, fun k more => ?_⟩, fun up some => ?_⟩
      · have := places.ordered k more
        omega
      · obtain ⟨j, w, first, there⟩ := before up some
        exact ⟨j + 1, w, Nat.succ_lt_succ first, there⟩
  | @rise rest m v up _ ih =>
      obtain ⟨rise, fall, places, before⟩ := ih
      -- The fall before the first of the later rises separates it from the new one.
      have between : ∃ j, 0 < m → j < rise 0 ∧ ∃ w, rest[j]? = some w ∧ low w = true := by
        rcases Nat.eq_zero_or_pos m with none | some
        · exact ⟨0, fun some => absurd some (by omega)⟩
        · obtain ⟨j, w, first, there⟩ := before rfl some
          exact ⟨j, fun _ => ⟨first, w, there⟩⟩
      obtain ⟨j, gap⟩ := between
      refine ⟨after 0 rise, after (j + 1) fall,
        ⟨fun k more => ?_, fun k more => ?_, fun k more => ?_⟩, nofun⟩
      · cases k with
        | zero => exact ⟨v, rfl, up⟩
        | succ k => exact places.high k (by omega)
      · cases k with
        | zero => exact (gap (by omega)).2
        | succ k => exact places.low k (by omega)
      · cases k with
        | zero => exact ⟨Nat.succ_pos j, Nat.succ_lt_succ (gap (by omega)).1⟩
        | succ k =>
            have order := places.ordered k (by omega)
            exact ⟨Nat.succ_lt_succ order.1, Nat.succ_lt_succ order.2⟩
  | @fall _ _ v down _ ih =>
      obtain ⟨rise, fall, places, -⟩ := ih
      refine ⟨fun k => rise k + 1, fun k => fall k + 1,
        ⟨places.high, places.low, fun k more => ?_⟩, fun _ _ => ⟨0, v, Nat.succ_pos _, rfl, down⟩⟩
      have := places.ordered k more
      omega

end Climbs

namespace Alternates

variable {rise fall : Nat → Nat}

theorem climbs (h : Alternates high low values m rise fall) :
    Climbs high low false values m := by
  have cell : ∀ {i : Nat} {v : K}, values[i]? = some v →
      values.drop i = v :: values.drop (i + 1) := by
    intro i v found
    obtain ⟨inside, rfl⟩ := List.getElem?_eq_some_iff.mp found
    exact List.drop_eq_getElem_cons inside
  -- From the rise with so many others after it on.
  have from_rise : ∀ after k, k + (after + 1) = m →
      Climbs high low false (values.drop (rise k)) (after + 1) := by
    intro after
    induction after with
    | zero =>
        intro k last
        obtain ⟨v, found, up⟩ := h.high k (by omega)
        rw [cell found]
        exact .rise up (.stop _ _)
    | succ after ih =>
        intro k more
        obtain ⟨v, found, up⟩ := h.high k (by omega)
        obtain ⟨w, found', down⟩ := h.low k (by omega)
        have order := h.ordered k (by omega)
        have later := (ih (k + 1) (by omega)).drop_of_le (show fall k + 1 ≤ _ from order.2)
        have falling : Climbs high low true (values.drop (fall k)) (after + 1) := by
          rw [cell found']
          exact .fall down later
        rw [cell found]
        exact .rise up (falling.drop_of_le order.1)
  cases m with
  | zero => exact .stop _ _
  | succ m => simpa using (from_rise m 0 (by omega)).drop_of_le (Nat.zero_le _)

theorem mono {high' low' : K → Bool} (h : Alternates high low values m rise fall)
    (higher : ∀ v ∈ values, high v = true → high' v = true)
    (lower : ∀ v ∈ values, low v = true → low' v = true) :
    Alternates high' low' values m rise fall where
  high k more := by
    obtain ⟨v, found, up⟩ := h.high k more
    exact ⟨v, found, higher v (List.mem_of_getElem? found) up⟩
  low k more := by
    obtain ⟨v, found, down⟩ := h.low k more
    exact ⟨v, found, lower v (List.mem_of_getElem? found) down⟩
  ordered := h.ordered

theorem reverse (h : Alternates high low values m rise fall) :
    Alternates high low values.reverse m (fun k => values.length - 1 - rise (m - 1 - k))
      fun k => values.length - 1 - fall (m - 2 - k) := by
  have seen : ∀ {i : Nat} {v : K}, values[i]? = some v →
      i < values.length ∧ values.reverse[values.length - 1 - i]? = some v := by
    intro i v found
    have inside := (List.getElem?_eq_some_iff.mp found).1
    refine ⟨inside, ?_⟩
    rw [List.getElem?_reverse (by omega), ← found]
    congr 1
    omega
  refine ⟨fun k more => ?_, fun k more => ?_, fun k more => ?_⟩
  · obtain ⟨v, found, up⟩ := h.high (m - 1 - k) (by omega)
    exact ⟨v, (seen found).2, up⟩
  · obtain ⟨v, found, down⟩ := h.low (m - 2 - k) (by omega)
    exact ⟨v, (seen found).2, down⟩
  · obtain ⟨v, found, -⟩ := h.high (m - 1 - k) (by omega)
    have order := h.ordered (m - 2 - k) (by omega)
    have next : m - 2 - k + 1 = m - 1 - k := by omega
    have previous : m - 1 - (k + 1) = m - 2 - k := by omega
    have inside := (seen found).1
    rw [next] at order
    rw [previous]
    omega

end Alternates

theorem exists_alternates_iff : (∃ rise fall, Alternates high low values m rise fall) ↔
    Climbs high low false values m := by
  constructor
  · rintro ⟨rise, fall, places⟩
    exact places.climbs
  · intro climbs
    obtain ⟨rise, fall, places, -⟩ := climbs.exists_alternates
    exact ⟨rise, fall, places⟩

theorem exists_alternates_reverse_iff :
    (∃ rise fall, Alternates high low values.reverse m rise fall) ↔
      ∃ rise fall, Alternates high low values m rise fall := by
  constructor
  · rintro ⟨rise, fall, places⟩
    have back := places.reverse
    rw [List.reverse_reverse] at back
    exact ⟨_, _, back⟩
  · rintro ⟨rise, fall, places⟩
    exact ⟨_, _, places.reverse⟩

/-! ### The scan -/

/-- One step of the scan: what it counts and the rises that can be had after it are together the
rises that could be had before it. -/
theorem step_longest (s : Scan) (v : K) {rest : List K} {n : Nat}
    (h : IsGreatest {m | Climbs high low (scanStep high low s v).inside rest m} n) :
    ∃ gained, (scanStep high low s v).count = s.count + gained ∧
      IsGreatest {m | Climbs high low s.inside (v :: rest) m} (gained + n) := by
  obtain ⟨inside, count⟩ := s
  cases inside with
  | false =>
      by_cases up : high v = true
      · have step : scanStep high low ⟨false, count⟩ v = ⟨true, count + 1⟩ := by
          simp [scanStep, up]
        rw [step] at h ⊢
        refine ⟨1, rfl, ?_, fun m other => ?_⟩
        · rw [Nat.add_comm]
          exact .rise up h.1
        · cases other with
          | stop => omega
          | pass _ other =>
              cases m with
              | zero => omega
              | succ m =>
                  have := h.2 other.inside
                  omega
          | rise _ other =>
              have := h.2 other
              omega
      · have step : scanStep high low ⟨false, count⟩ v = ⟨false, count⟩ := by
          simp [scanStep, up]
        rw [step] at h ⊢
        refine ⟨0, rfl, ?_, fun m other => ?_⟩
        · rw [Nat.zero_add]
          exact .pass v h.1
        · rw [Nat.zero_add]
          cases other with
          | stop => omega
          | pass _ other => exact h.2 other
          | rise up' => exact absurd up' up
  | true =>
      by_cases down : low v = true
      · have step : scanStep high low ⟨true, count⟩ v = ⟨false, count⟩ := by
          simp [scanStep, down]
        rw [step] at h ⊢
        refine ⟨0, rfl, ?_, fun m other => ?_⟩
        · rw [Nat.zero_add]
          exact .fall down h.1
        · rw [Nat.zero_add]
          cases other with
          | stop => omega
          | pass _ other => exact h.2 other.outside
          | fall _ other => exact h.2 other
      · have step : scanStep high low ⟨true, count⟩ v = ⟨true, count⟩ := by
          simp [scanStep, down]
        rw [step] at h ⊢
        refine ⟨0, rfl, ?_, fun m other => ?_⟩
        · rw [Nat.zero_add]
          exact .pass v h.1
        · rw [Nat.zero_add]
          cases other with
          | stop => omega
          | pass _ other => exact h.2 other
          | fall down' => exact absurd down' down

theorem scan_longest (high low : K → Bool) (values : List K) (s : Scan) :
    ∃ n, (values.foldl (scanStep high low) s).count = s.count + n ∧
      IsGreatest {m | Climbs high low s.inside values m} n := by
  induction values generalizing s with
  | nil =>
      obtain ⟨inside, count⟩ := s
      refine ⟨0, rfl, .stop _ _, fun m climbs => ?_⟩
      cases climbs
      exact le_rfl
  | cons v rest ih =>
      obtain ⟨n, counted, longest⟩ := ih (scanStep high low s v)
      obtain ⟨gained, counts, longest⟩ := step_longest s v longest
      exact ⟨gained + n, by rw [List.foldl_cons, counted, counts, Nat.add_assoc], longest⟩

end Alternations

section Runs

variable {K : Type} [Scalar K]

def isHigh (s : ColumnSettings K) (top v : K) : Bool := decide (s.peak * top ≤ v)

def isLow (s : ColumnSettings K) (top v : K) : Bool := decide (v < s.gap * top)

variable {s : ColumnSettings K} {values : List K} {top : K}

theorem countRuns_isGreatest (greatest : greatest? values = some top)
    (positive : Scalar.ofInt 0 < top) :
    IsGreatest {m | ∃ rise fall, Alternates (s.isHigh top) (s.isLow top) values m rise fall}
      (s.countRuns values) := by
  obtain ⟨n, counted, longest⟩ :=
    scan_longest (s.isHigh top) (s.isLow top) values ⟨false, 0⟩
  have scanned : s.countRuns values = n := by
    rw [countRuns, greatest]
    simp only [if_pos positive]
    exact counted.trans (Nat.zero_add n)
  rw [scanned]
  simpa only [exists_alternates_iff] using longest

theorem countRuns_of_not_pos (greatest : greatest? values = some top)
    (low : ¬ Scalar.ofInt 0 < top) : s.countRuns values = 0 := by
  rw [countRuns, greatest]
  exact if_neg low

end Runs

/-! ### Exact profiles -/

section Exact

variable {s t : ColumnSettings Rat} {values : List Rat} {top : Rat}

theorem countRuns_reverse (s : ColumnSettings Rat) (values : List Rat) :
    s.countRuns values.reverse = s.countRuns values := by
  have same : greatest? values.reverse = greatest? values := greatest?_perm values.reverse_perm
  cases greatest : greatest? values with
  | none => rw [countRuns, countRuns, same, greatest]
  | some top =>
      rw [greatest] at same
      by_cases positive : (Scalar.ofInt 0 : Rat) < top
      · have ahead := countRuns_isGreatest (s := s) greatest positive
        have back := countRuns_isGreatest (s := s) same positive
        simp only [exists_alternates_reverse_iff] at back
        exact back.unique ahead
      · rw [countRuns_of_not_pos same positive, countRuns_of_not_pos greatest positive]

theorem countRuns_le (peak : s.peak ≤ t.peak) (gap : t.gap ≤ s.gap) (values : List Rat) :
    t.countRuns values ≤ s.countRuns values := by
  cases greatest : greatest? values with
  | none => rw [countRuns, countRuns, greatest]
  | some top =>
      by_cases positive : (Scalar.ofInt 0 : Rat) < top
      · have above : (0 : Rat) ≤ top := le_of_lt positive
        obtain ⟨⟨rise, fall, places⟩, -⟩ := countRuns_isGreatest (s := t) greatest positive
        refine (countRuns_isGreatest (s := s) greatest positive).2 ⟨rise, fall, places.mono ?_ ?_⟩
        · intro v _ reaches
          exact decide_eq_true ((mul_le_mul_of_nonneg_right peak above).trans
            (of_decide_eq_true reaches))
        · intro v _ below
          exact decide_eq_true ((of_decide_eq_true below).trans_le
            (mul_le_mul_of_nonneg_right gap above))
      · rw [countRuns_of_not_pos greatest positive, countRuns_of_not_pos greatest positive]

theorem one_le_countRuns (peak : s.peak ≤ 1) {v : Rat} (member : v ∈ values) (positive : 0 < v) :
    1 ≤ s.countRuns values := by
  cases greatest : greatest? values with
  | none =>
      rw [greatest?_eq_max?, List.max?_eq_none_iff] at greatest
      rw [greatest] at member
      cases member
  | some top =>
      have extreme := greatest
      rw [greatest?_eq_max?, List.max?_eq_some_iff] at extreme
      have above : 0 < top := positive.trans_le (extreme.2 v member)
      obtain ⟨i, found⟩ := List.mem_iff_getElem?.mp extreme.1
      refine (countRuns_isGreatest (s := s) greatest above).2 ⟨fun _ => i, id, ?_, ?_, ?_⟩
      · refine fun _ _ => ⟨top, found, decide_eq_true ?_⟩
        exact mul_le_of_le_one_left above.le peak
      · intro k more
        omega
      · intro k more
        omega

end Exact

/-! ### Profiles of pages -/

theorem closing_inked {k : Window} (rows : k.height % 2 = 1) (columns : k.width % 2 = 1)
    {g : Grid Bool} {p : Nat × Nat} (inked : g.Inked p) : (k.closing g).Inked p := by
  refine Window.erode_inked_iff.mpr ⟨inked.inside, fun q row column reached => ?_⟩
  refine Window.dilate_inked_iff.mpr ⟨⟨row, column⟩, p, ?_, inked⟩
  simp only [Window.Reaches] at reached ⊢
  omega

theorem fold_count_pos (set : Nat → Bool) {height y : Nat} (row : y < height)
    (found : set y = true) :
    0 < Nat.fold height (fun y _ count => if set y then count + 1 else count) 0 := by
  induction height with
  | zero => omega
  | succ height ih =>
      rw [Nat.fold_succ]
      split
      · omega
      · rename_i last
        have before : y ≠ height := fun same => last (same ▸ found)
        exact ih (by omega)

theorem profile_pos {g : Grid Bool} {p : Nat × Nat} (inked : g.Inked p) :
    ∃ n, (profile g)[p.2]? = some n ∧ 0 < n := by
  refine ⟨_, ?_, fold_count_pos (fun y => g.get false y p.2) inked.inside.1 inked⟩
  rw [profile, List.getElem?_map, List.getElem?_range inked.inside.2]
  rfl

theorem smooth_pos {values : List Rat} (nonneg : ∀ v ∈ values, 0 ≤ v) {window : Nat}
    (filled : 0 < window) {i : Nat} {v : Rat} (found : values[i]? = some v) (positive : 0 < v) :
    ∃ w ∈ smooth values window, 0 < w := by
  have inside : i < values.length := (List.getElem?_eq_some_iff.mp found).1
  have weight : (0 : Rat) < Scalar.ofInt 1 / Scalar.ofNat window := by
    change (0 : Rat) < ((1 : Int) : Rat) / ((window : Int) : Rat)
    have wide : (0 : Rat) < ((window : Int) : Rat) := by exact_mod_cast filled
    positivity
  have entry : ∀ j, (0 : Rat) ≤ values.toArray.getD j (Scalar.ofInt 0) := by
    intro j
    rw [Array.getD_eq_getD_getElem?, List.getElem?_toArray]
    cases there : values[j]? with
    | none => exact le_rfl
    | some u => exact nonneg u (List.mem_of_getElem? there)
  -- At its own place a value is in the window, by half the window from its start.
  refine ⟨_, List.mem_map_of_mem (List.mem_range.mpr (show i < _ from ?_)), ?_⟩
  · rw [List.size_toArray]
    omega
  · rw [scalarSum_eq]
    refine lt_of_lt_of_le (mul_pos positive weight) (List.single_le_sum ?_ _ ?_)
    · intro term listed
      obtain ⟨j, -, rfl⟩ := List.mem_map.mp listed
      split
      · exact mul_nonneg (entry _) weight.le
      · exact le_rfl
    · refine List.mem_map.mpr ⟨(min values.toArray.size window - 1) / 2,
        List.mem_range.mpr (by omega), ?_⟩
      rw [if_pos (by omega), Nat.add_sub_cancel, Array.getD_eq_getD_getElem?,
        List.getElem?_toArray, found]
      rfl

theorem smoothedProfile_pos {part : Grid Bool} {p : Nat × Nat} (inked : part.Inked p) :
    ∃ w ∈ (smoothedProfile part : List Rat), 0 < w := by
  obtain ⟨n, found, positive⟩ := profile_pos
    (closing_inked (k := ⟨21, 9⟩) (by decide) (by decide) inked)
  refine smooth_pos (fun v member => ?_) (by omega) (i := p.2) (v := (n : Rat)) ?_
    (by exact_mod_cast positive)
  · obtain ⟨k, -, rfl⟩ := List.mem_map.mp member
    exact Nat.cast_nonneg k
  · rw [List.getElem?_map, found]
    rfl

def part (s : ColumnSettings Rat) (ink : Grid Bool) : Grid Bool :=
  clipped ink (Scalar.trunc (s.clip * ink.height)) (Scalar.trunc (s.clip * ink.width))

theorem count_eq (s : ColumnSettings Rat) (ink : Grid Bool) : s.count ink =
    .ok (if (s.part ink).isEmpty then 0 else s.countRuns (smoothedProfile (s.part ink))) := by
  change (if (s.part ink).isEmpty then Except.ok 0
    else Except.ok (s.countRuns (smoothedProfile (s.part ink)))) = _
  split <;> rfl

theorem isEmpty_of_inked {g : Grid Bool} {p : Nat × Nat} (inked : g.Inked p) :
    g.isEmpty = false := by
  obtain ⟨row, column⟩ := inked.inside
  rw [Grid.isEmpty, Bool.or_eq_false_iff]
  exact ⟨beq_false_of_ne (by omega), beq_false_of_ne (by omega)⟩

/-- The number of text columns is the length of the longest alternation: the greatest number of
places where a profile is high such that between any two of them it is low once. This holds for
every profile with a peak and all levels, whatever the numbers are. So a profile has as many columns
from its other end, a page with ink in the part that is not clipped has at least one unless the
level of columns is above the peak, and levels that are farther apart never give more. -/
theorem countRuns_longest :
    (∀ (K : Type) [Scalar K] (s : ColumnSettings K) (values : List K) (top : K),
      greatest? values = some top → Scalar.ofInt 0 < top →
      IsGreatest {m | ∃ rise fall, Alternates (fun v => decide (s.peak * top ≤ v))
        (fun v => decide (v < s.gap * top)) values m rise fall} (s.countRuns values)) ∧
    (∀ (s : ColumnSettings Rat) (values : List Rat),
      s.countRuns values.reverse = s.countRuns values) ∧
    (∀ (s : ColumnSettings Rat) (ink : Grid Bool), s.peak ≤ 1 → (∃ p, (s.part ink).Inked p) →
      ∃ n, s.count ink = .ok n ∧ 1 ≤ n) ∧
    (∀ (s t : ColumnSettings Rat), s.peak ≤ t.peak → t.gap ≤ s.gap →
      (∀ values, t.countRuns values ≤ s.countRuns values) ∧
      (t.clip = s.clip → ∀ ink, ∃ m n, t.count ink = .ok m ∧ s.count ink = .ok n ∧ m ≤ n)) := by
  refine ⟨fun K _ s values top => countRuns_isGreatest, countRuns_reverse, ?_, ?_⟩
  · rintro s ink peak ⟨p, inked⟩
    obtain ⟨w, member, positive⟩ := smoothedProfile_pos inked
    refine ⟨_, s.count_eq ink, ?_⟩
    rw [isEmpty_of_inked inked, if_neg Bool.false_ne_true]
    exact one_le_countRuns peak member positive
  · intro s t peak gap
    refine ⟨countRuns_le peak gap, fun clip ink => ⟨_, _, t.count_eq ink, s.count_eq ink, ?_⟩⟩
    have same : t.part ink = s.part ink := by rw [part, part, clip]
    rw [same]
    split
    · exact le_rfl
    · exact countRuns_le peak gap _

/-! A profile that hovers between its levels after the first rise, and a page full of ink. -/

def hovering : List Rat := [0, 3, 1, 3, 0, 2]

theorem hovering_longest :
    greatest? hovering = some 3 ∧
    IsGreatest {m | ∃ rise fall, Alternates (fun v => decide (1 / 2 * 3 ≤ v))
      (fun v => decide (v < 3 / 10 * 3)) hovering m rise fall} 2 ∧
    (standard : ColumnSettings Rat).countRuns hovering.reverse = 2 ∧
    (((standard : ColumnSettings Rat).part (Grid.replicate 10 10 true)).Inked (0, 0) ∧
      ∃ n, (standard : ColumnSettings Rat).count (Grid.replicate 10 10 true) = .ok n ∧ 1 ≤ n) ∧
    (⟨1 / 4, 3 / 4, 1 / 10⟩ : ColumnSettings Rat).countRuns hovering ≤ 2 := by
  have peak : greatest? hovering = some 3 := by decide +kernel
  have two : (standard : ColumnSettings Rat).countRuns hovering = 2 := by decide +kernel
  have inked : ((standard : ColumnSettings Rat).part (Grid.replicate 10 10 true)).Inked (0, 0) := by
    rw [Grid.Inked]
    decide +kernel
  obtain ⟨longest, reversed, filled, apart⟩ := countRuns_longest
  have alternation := longest Rat standard hovering 3 peak (by decide +kernel)
  rw [two] at alternation
  refine ⟨peak, ?_, (reversed standard hovering).trans two,
    ⟨inked, filled standard _ (by decide +kernel) ⟨(0, 0), inked⟩⟩, ?_⟩
  · exact alternation
  · rw [← two]
    exact (apart standard ⟨1 / 4, 3 / 4, 1 / 10⟩ (by decide +kernel) (by decide +kernel)).1 hovering

end ColumnSettings

end PageFlattening
