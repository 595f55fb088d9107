import Mathlib
import PageFlattening.Proofs.Components
import PageFlattening.Proofs.Evaluation

/-! The lines that are found on a page. There is one for each component of the joined page that is
large enough. It has a point in every column of the box of its component, because touching pixels
are never more than a column apart, and the height of the point is the mean of the rows there. -/
namespace PageFlattening

namespace Component

structure Bounds (c : Finset Pixel) (b : Box) : Prop where
  inside : ∀ p ∈ c, b.top ≤ p.1 ∧ p.1 ≤ b.bottom ∧ b.left ≤ p.2 ∧ p.2 ≤ b.right
  top : ∃ p ∈ c, p.1 = b.top
  left : ∃ p ∈ c, p.2 = b.left
  bottom : ∃ p ∈ c, p.1 = b.bottom
  right : ∃ p ∈ c, p.2 = b.right

variable {c : Finset Pixel} {b : Box}

theorem Bounds.unique (h : Bounds c b) {b' : Box} (h' : Bounds c b') : b = b' := by
  obtain ⟨t, inT, top⟩ := h.top
  obtain ⟨t', inT', top'⟩ := h'.top
  obtain ⟨l, inL, left⟩ := h.left
  obtain ⟨l', inL', left'⟩ := h'.left
  obtain ⟨d, inD, bottom⟩ := h.bottom
  obtain ⟨d', inD', bottom'⟩ := h'.bottom
  obtain ⟨r, inR, right⟩ := h.right
  obtain ⟨r', inR', right'⟩ := h'.right
  have := h.inside t' inT'
  have := h.inside l' inL'
  have := h.inside d' inD'
  have := h.inside r' inR'
  have := h'.inside t inT
  have := h'.inside l inL
  have := h'.inside d inD
  have := h'.inside r inR
  cases b
  cases b'
  simp only [Box.mk.injEq]
  dsimp only at *
  omega

theorem Bounds.single (p : Pixel) : Bounds {p} ⟨p.1, p.2, p.1, p.2⟩ := by
  have here : p ∈ ({p} : Finset Pixel) := Finset.mem_singleton_self p
  refine ⟨fun q member => ?_, ⟨p, here, rfl⟩, ⟨p, here, rfl⟩, ⟨p, here, rfl⟩, ⟨p, here, rfl⟩⟩
  obtain rfl := Finset.mem_singleton.mp member
  exact ⟨le_rfl, le_rfl, le_rfl, le_rfl⟩

theorem Bounds.include (h : Bounds c b) (p : Pixel) : Bounds (insert p c) (b.include p) := by
  have side : ∀ {coordinate : Pixel → Nat} {old new : Nat},
      (∃ q ∈ c, coordinate q = old) → new = old ∨ new = coordinate p →
      ∃ q ∈ insert p c, coordinate q = new := by
    rintro coordinate old new ⟨q, member, rfl⟩ (rfl | rfl)
    · exact ⟨q, Finset.mem_insert_of_mem member, rfl⟩
    · exact ⟨p, Finset.mem_insert_self p c, rfl⟩
  refine ⟨fun q member => ?_, side h.top (min_choice _ _), side h.left (min_choice _ _),
    side h.bottom (max_choice _ _), side h.right (max_choice _ _)⟩
  simp only [Box.include]
  rcases Finset.mem_insert.mp member with rfl | member
  · omega
  · have := h.inside q member
    omega

theorem bounds_box {c : Component} (filled : c ≠ []) : Bounds c.toFinset c.box := by
  have folded : ∀ (rest : List Pixel) {d : Finset Pixel} {b : Box}, Bounds d b →
      Bounds (d ∪ rest.toFinset) (rest.foldl Box.include b) := by
    intro rest
    induction rest with
    | nil =>
        intro d b h
        simpa using h
    | cons q rest ih =>
        intro d b h
        have grown := ih (h.include q)
        rwa [Finset.insert_union, ← Finset.union_insert, ← List.toFinset_cons] at grown
  cases c with
  | nil => exact absurd rfl filled
  | cons p rest =>
      have all := folded rest (Bounds.single p)
      rwa [← Finset.insert_eq, ← List.toFinset_cons] at all

def column (c : Finset Pixel) (x : Nat) : Finset Pixel := c.filter fun p => p.2 = x

/-- A path of touching pixels crosses every column between its ends. -/
theorem exists_joined_column {g : Grid Bool} {p q : Pixel} (path : g.Joined p q) {x : Nat}
    (start : p.2 ≤ x) (stop : x ≤ q.2) : ∃ r, g.Joined p r ∧ r.2 = x := by
  induction path with
  | refl => exact ⟨p, .refl, by omega⟩
  | @tail r s path last ih =>
      by_cases before : x ≤ r.2
      · exact ih before
      · have close := last.2.2.2.2.2
        exact ⟨s, path.tail last, by omega⟩

theorem column_nonempty {g : Grid Bool} (component : g.IsComponent c) (bounds : Bounds c b)
    {x : Nat} (left : b.left ≤ x) (right : x ≤ b.right) : (column c x).Nonempty := by
  obtain ⟨p, inP, atLeft⟩ := bounds.left
  obtain ⟨q, inQ, atRight⟩ := bounds.right
  obtain ⟨r, joined, here⟩ := exists_joined_column ((component.mem_iff inP q).mp inQ)
    (atLeft.trans_le left) (atRight ▸ right)
  exact ⟨r, Finset.mem_filter.mpr ⟨(component.mem_iff inP r).mpr joined, here⟩⟩

section Mean

variable {K : Type} [Scalar K]

def meanRow (c : Finset Pixel) (x : Nat) : K :=
  Scalar.ofNat (∑ p ∈ column c x, p.1) / Scalar.ofNat (column c x).card

end Mean

theorem meanRow_between (bounds : Bounds c b) {x : Nat} (filled : (column c x).Nonempty) :
    (b.top : Rat) ≤ meanRow c x ∧ meanRow c x ≤ (b.bottom : Rat) := by
  have inside : ∀ p ∈ column c x, b.top ≤ p.1 ∧ p.1 ≤ b.bottom := fun p member =>
    have sides := bounds.inside p (Finset.mem_filter.mp member).1
    ⟨sides.1, sides.2.1⟩
  have low := Finset.card_nsmul_le_sum (column c x) (fun p => p.1) b.top fun p member =>
    (inside p member).1
  have high := Finset.sum_le_card_nsmul (column c x) (fun p => p.1) b.bottom fun p member =>
    (inside p member).2
  have positive : (0 : Rat) < (column c x).card := by exact_mod_cast filled.card_pos
  have mean : (meanRow c x : Rat) = ((∑ p ∈ column c x, p.1 : Nat) : Rat) / (column c x).card := rfl
  rw [smul_eq_mul] at low high
  rw [mean, le_div_iff₀ positive, div_le_iff₀ positive]
  constructor
  · exact_mod_cast (Nat.mul_comm _ _).trans_le low
  · exact_mod_cast high.trans_eq (Nat.mul_comm _ _)

end Component

namespace TextLine

open Component

theorem getElem?_foldl_modify (c : Component) (left j : Nat) (table : List (Nat × Nat)) :
    (c.foldl (fun table p => table.modify (p.2 - left) fun e => (e.1 + 1, e.2 + p.1))
      table)[j]? = table[j]?.map fun e =>
        (e.1 + (c.filter fun p => p.2 - left = j).length,
          e.2 + ((c.filter fun p => p.2 - left = j).map (·.1)).sum) := by
  induction c generalizing table with
  | nil => simp
  | cons p rest ih =>
      rw [List.foldl_cons, ih, List.getElem?_modify, List.filter_cons]
      by_cases here : p.2 - left = j
      · simp [here, Function.comp_def, Nat.add_assoc, Nat.add_comm 1]
      · simp [here]

theorem columnTable_eq {c : Component} (nodup : c.Nodup) {left : Nat}
    (right : ∀ p ∈ c, left ≤ p.2) (width : Nat) :
    columnTable c left width = (List.range width).map fun j =>
      ((column c.toFinset (left + j)).card, ∑ p ∈ column c.toFinset (left + j), p.1) := by
  have same : ∀ j, (c.filter fun p => p.2 - left = j) = c.filter fun p => p.2 = left + j := by
    intro j
    refine List.filter_congr fun p member => ?_
    have := right p member
    rw [decide_eq_decide]
    omega
  refine List.ext_getElem? fun j => ?_
  rw [columnTable, getElem?_foldl_modify, same, List.getElem?_replicate, List.getElem?_map]
  by_cases inside : j < width
  · have kept := nodup.filter fun p => decide (p.2 = left + j)
    have listed : column c.toFinset (left + j) =
        (c.filter fun p => decide (p.2 = left + j)).toFinset := by
      rw [List.toFinset_filter, column]
      simp
    rw [if_pos inside, List.getElem?_range inside, Option.map_some, Option.map_some, listed,
      List.toFinset_card_of_nodup kept, List.sum_toFinset _ kept, Nat.zero_add, Nat.zero_add]
  · simp [inside]

variable {K : Type} [Scalar K]

/-- A line goes through a component: it has a point in every column of the box, at the mean row. -/
structure Traces (c : Finset Pixel) (b : Box) (l : TextLine K) : Prop where
  bounds : Bounds c b
  filled : ∀ x, b.left ≤ x → x ≤ b.right → (column c x).Nonempty
  points : l = (List.range b.width).map fun j => (Scalar.ofNat (b.left + j), meanRow c (b.left + j))

theorem ofComponent_traces {g : Grid Bool} {c : Component} (nodup : c.Nodup)
    (component : g.IsComponent c.toFinset) :
    Traces c.toFinset c.box (ofComponent c : TextLine K) := by
  have bounds : Bounds c.toFinset c.box :=
    bounds_box fun none => by simpa [none] using component.nonempty
  have filled : ∀ x, c.box.left ≤ x → x ≤ c.box.right → (column c.toFinset x).Nonempty :=
    fun _ => column_nonempty component bounds
  have counted : ∀ j < c.box.width, (column c.toFinset (c.box.left + j)).card ≠ 0 := by
    intro j inside
    rw [Box.width] at inside
    exact (filled _ (by omega) (by omega)).card_ne_zero
  have zipped : ∀ (n : Nat) (f : Nat → Nat × Nat),
      ((List.range n).map f).zipIdx = (List.range n).map fun j => (f j, j) := by
    intro n f
    refine List.ext_getElem (by simp) fun j _ _ => ?_
    simp
  refine ⟨bounds, filled, ?_⟩
  rw [ofComponent_eq]
  dsimp only
  rw [columnTable_eq nodup fun p member => (bounds.inside p (List.mem_toFinset.mpr member)).2.2.1,
    zipped, List.filterMap_map, ← List.filterMap_eq_map]
  refine List.filterMap_congr fun j inside => ?_
  exact if_neg (counted j (List.mem_range.mp inside))

def IsLarge (s : DetectionSettings) (c : Finset Pixel) : Prop :=
  ∃ b, Bounds c b ∧ s.minWidth ≤ b.width ∧ s.minHeight ≤ b.height

theorem largeEnough_iff (s : DetectionSettings) {c : Component} (filled : c ≠ []) :
    largeEnough s c = true ↔ IsLarge s c.toFinset := by
  have bounds := bounds_box filled
  rw [largeEnough, Bool.and_eq_true, decide_eq_true_iff, decide_eq_true_iff]
  refine ⟨fun large => ⟨_, bounds, large⟩, ?_⟩
  rintro ⟨b, bounds', large⟩
  rwa [bounds'.unique bounds] at large

theorem detect_traces (s : DetectionSettings) (ink : Grid Bool) :
    ∃ components : List (Finset Pixel), components.Nodup ∧
      (∀ c, c ∈ components ↔ (joined s ink).IsComponent c ∧ IsLarge s c) ∧
      ∀ (K : Type) [Scalar K],
        List.Forall₂ (fun c l => ∃ b, Traces c b l) components
          (detect s ink : List (TextLine K)) := by
  have found : ∀ {c : Component}, c ∈ all (joined s ink) → c ≠ [] := fun member none => by
    simpa [none] using (isComponent_of_mem_all member).nonempty
  refine ⟨((all (joined s ink)).filter (largeEnough s)).map List.toFinset, ?_, ?_, ?_⟩
  · exact (nodup_map_toFinset_all (joined s ink)).sublist (List.filter_sublist.map _)
  · intro c
    rw [← mem_map_toFinset_all, List.mem_map, List.mem_map]
    constructor
    · rintro ⟨d, member, rfl⟩
      rw [List.mem_filter] at member
      exact ⟨⟨d, member.1, rfl⟩, (largeEnough_iff s (found member.1)).mp member.2⟩
    · rintro ⟨⟨d, member, rfl⟩, large⟩
      exact ⟨d, List.mem_filter.mpr ⟨member, (largeEnough_iff s (found member)).mpr large⟩, rfl⟩
  · intro K _
    rw [detect, List.forall₂_map_left_iff, List.forall₂_map_right_iff, List.forall₂_same]
    intro c member
    have inAll := (List.mem_filter.mp member).1
    exact ⟨_, ofComponent_traces (nodup_of_mem_all inAll) (isComponent_of_mem_all inAll)⟩

theorem Traces.between {c : Finset Pixel} {b : Box} {l : TextLine Rat} (h : Traces c b l) :
    ∀ q ∈ l, (b.top : Rat) ≤ q.2 ∧ q.2 ≤ (b.bottom : Rat) := by
  intro q member
  rw [h.points, List.mem_map] at member
  obtain ⟨j, inside, rfl⟩ := member
  rw [List.mem_range, Box.width] at inside
  exact meanRow_between h.bounds (h.filled _ (by omega) (by omega))

/-- Line detection gives one line for each component of the joined page whose box is wide and high
enough. The line has a point in every column of the box and in no other, at the mean of the rows of
the component there; with exact numbers that lies between its top and its bottom. -/
theorem detect_component_by_component (s : DetectionSettings) (ink : Grid Bool) :
    ∃ components : List (Finset Pixel), components.Nodup ∧
      (∀ c, c ∈ components ↔ (joined s ink).IsComponent c ∧
        ∃ b, Bounds c b ∧ s.minWidth ≤ b.width ∧ s.minHeight ≤ b.height) ∧
      (∀ (K : Type) [Scalar K],
        List.Forall₂ (fun c l => ∃ b, Traces c b l) components (detect s ink : List (TextLine K))) ∧
      List.Forall₂ (fun c l => ∃ b, Traces c b l ∧
        ∀ q ∈ l, (b.top : Rat) ≤ q.2 ∧ q.2 ≤ (b.bottom : Rat)) components
        (detect s ink : List (TextLine Rat)) := by
  obtain ⟨components, nodup, mem_iff, traces⟩ := detect_traces s ink
  refine ⟨components, nodup, mem_iff, traces, (traces Rat).imp fun c l => ?_⟩
  rintro ⟨b, trace⟩
  exact ⟨b, trace, trace.between⟩

end TextLine

end PageFlattening
