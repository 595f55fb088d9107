import Mathlib
import PageFlattening.Image.Component

/-! The search for components finds what touching joins. A fill takes up the set pixels that can be
reached from where it starts and leaves none of them behind; its steps suffice, because every pixel
is taken up once. The search keeps what it has not reached closed under touching, so that each fill
takes up a whole component, and it passes every place of the page. -/
namespace PageFlattening

/-- Pixels that are the same or next to each other, also at a corner. -/
def Touch (p q : Pixel) : Prop :=
  p.1 ≤ q.1 + 1 ∧ q.1 ≤ p.1 + 1 ∧ p.2 ≤ q.2 + 1 ∧ q.2 ≤ p.2 + 1

theorem Touch.symm {p q : Pixel} (h : Touch p q) : Touch q p := ⟨h.2.1, h.1, h.2.2.2, h.2.2.1⟩

namespace Grid

variable {g : Grid Bool}

def Inked (g : Grid Bool) (p : Pixel) : Prop := g.get false p.1 p.2 = true

def Adjoins (g : Grid Bool) (p q : Pixel) : Prop := g.Inked p ∧ g.Inked q ∧ Touch p q

def Joined (g : Grid Bool) : Pixel → Pixel → Prop := Relation.ReflTransGen g.Adjoins

/-- All set pixels that are joined to one of them. -/
def IsComponent (g : Grid Bool) (c : Finset Pixel) : Prop :=
  ∃ p, g.Inked p ∧ ∀ q, q ∈ c ↔ g.Joined p q

theorem Inked.inside {p : Pixel} (h : g.Inked p) : p.1 < g.height ∧ p.2 < g.width := by
  by_contra away
  rw [Inked, get_outside (by omega)] at h
  cases h

theorem Adjoins.symm {p q : Pixel} (h : g.Adjoins p q) : g.Adjoins q p :=
  ⟨h.2.1, h.1, h.2.2.symm⟩

theorem Joined.symm {p q : Pixel} (h : g.Joined p q) : g.Joined q p := by
  induction h with
  | refl => exact .refl
  | tail _ last back => exact .head last.symm back

theorem Joined.inked {p q : Pixel} (h : g.Joined p q) (start : g.Inked p) : g.Inked q := by
  induction h with
  | refl => exact start
  | tail _ last => exact last.2.1

theorem IsComponent.inked {c : Finset Pixel} (h : g.IsComponent c) {p : Pixel} (member : p ∈ c) :
    g.Inked p := by
  obtain ⟨start, inked, all⟩ := h
  exact ((all p).mp member).inked inked

theorem IsComponent.mem_iff {c : Finset Pixel} (h : g.IsComponent c) {p : Pixel} (member : p ∈ c)
    (q : Pixel) : q ∈ c ↔ g.Joined p q := by
  obtain ⟨start, -, all⟩ := h
  have back := ((all p).mp member).symm
  rw [all]
  exact ⟨fun joined => back.trans joined, fun joined => back.symm.trans joined⟩

theorem IsComponent.nonempty {c : Finset Pixel} (h : g.IsComponent c) : c.Nonempty := by
  obtain ⟨start, -, all⟩ := h
  exact ⟨start, (all start).mpr .refl⟩

theorem IsComponent.eq_of_mem {c d : Finset Pixel} (hc : g.IsComponent c) (hd : g.IsComponent d)
    {p : Pixel} (inC : p ∈ c) (inD : p ∈ d) : c = d := by
  ext q
  rw [hc.mem_iff inC, hd.mem_iff inD]

theorem position_inj {p q : Pixel} (left : p.2 < g.width) (right : q.2 < g.width) :
    p.1 * g.width + p.2 = q.1 * g.width + q.2 ↔ p = q := by
  refine ⟨fun same => ?_, fun same => same ▸ rfl⟩
  have column : p.2 = q.2 := by
    have rests := congrArg (· % g.width) same
    simpa [Nat.mod_eq_of_lt left, Nat.mod_eq_of_lt right] using rests
  have row : p.1 = q.1 := by
    have positive : 0 < g.width := by omega
    exact Nat.eq_of_mul_eq_mul_right positive (by omega)
  exact Prod.ext row column

end Grid

namespace Component

theorem mem_around (p q : Pixel) : q ∈ around p ↔ Touch p q := by
  obtain ⟨y, x⟩ := p
  obtain ⟨v, u⟩ := q
  simp only [around, Touch, List.mem_cons, List.not_mem_nil, or_false, Prod.mk.injEq]
  omega

variable {g : Grid Bool}

theorem isNew_iff {seen : Array Bool} {p : Pixel} : isNew g seen p = true ↔
    g.Inked p ∧ seen.getD (p.1 * g.width + p.2) true = false := by
  rw [isNew, Bool.and_eq_true, Bool.not_eq_true', Grid.Inked]

def unreached (g : Grid Bool) (seen : Array Bool) : Finset Pixel :=
  (Finset.range g.height ×ˢ Finset.range g.width).filter fun p => isNew g seen p = true

theorem mem_unreached {seen : Array Bool} {p : Pixel} :
    p ∈ unreached g seen ↔ isNew g seen p = true := by
  rw [unreached, Finset.mem_filter, Finset.mem_product, Finset.mem_range, Finset.mem_range]
  exact ⟨And.right, fun new => ⟨(isNew_iff.mp new).1.inside, new⟩⟩

theorem inked_of_unreached {seen : Array Bool} {p : Pixel} (h : p ∈ unreached g seen) :
    g.Inked p := (isNew_iff.mp (mem_unreached.mp h)).1

theorem card_unreached_le (g : Grid Bool) (seen : Array Bool) :
    (unreached g seen).card ≤ g.height * g.width := by
  have most := Finset.card_filter_le (Finset.range g.height ×ˢ Finset.range g.width)
    fun p => isNew g seen p = true
  rwa [Finset.card_product, Finset.card_range, Finset.card_range] at most

theorem unreached_start : unreached g (Array.replicate (g.height * g.width) false) =
    (Finset.range g.height ×ˢ Finset.range g.width).filter fun p => g.get false p.1 p.2 = true := by
  refine Finset.filter_congr fun p member => ?_
  rw [Finset.mem_product, Finset.mem_range, Finset.mem_range] at member
  have inside := Grid.position_lt member.1 member.2
  simp [isNew_iff, Grid.Inked, Array.getD, inside]

theorem unreached_set {seen : Array Bool} {p : Pixel} (new : p ∈ unreached g seen) :
    unreached g (seen.setIfInBounds (p.1 * g.width + p.2) true) = (unreached g seen).erase p := by
  have free := (isNew_iff.mp (mem_unreached.mp new)).2
  have inside : p.1 * g.width + p.2 < seen.size := by
    by_contra beyond
    simp [Array.getD, beyond] at free
  ext q
  rw [Finset.mem_erase, mem_unreached, mem_unreached, isNew_iff, isNew_iff]
  by_cases inked : g.Inked q
  · have apart := Grid.position_inj (inked_of_unreached new).inside.2 inked.inside.2
    by_cases same : p = q
    · subst same
      simp [Array.getD, inside]
    · have other : p.1 * g.width + p.2 ≠ q.1 * g.width + q.2 := mt apart.mp same
      simp [Array.getD_eq_getD_getElem?, other, inked, Ne.symm same]
  · simp [inked]

/-- What a fill from a list of places takes up: it is joined to one of the places, and neither a
place nor anything that touches what was taken up is left. -/
structure Takes (g : Grid Bool) (before after : Finset Pixel) (places taken : List Pixel) :
    Prop where
  nodup : taken.Nodup
  mem_iff : ∀ q, q ∈ taken ↔ q ∈ before ∧ q ∉ after
  after_subset : after ⊆ before
  joined : ∀ q ∈ taken, ∃ p ∈ places, g.Inked p ∧ g.Joined p q
  places_gone : ∀ p ∈ places, p ∉ after
  around_gone : ∀ q ∈ taken, ∀ r, Touch q r → r ∉ after

theorem Takes.nil (free : Finset Pixel) : Takes g free free [] [] where
  nodup := List.nodup_nil
  mem_iff q := by simp
  after_subset := Finset.Subset.refl free
  joined := by simp
  places_gone := by simp
  around_gone := by simp

theorem Takes.skip {before after : Finset Pixel} {places taken : List Pixel} {p : Pixel}
    (old : p ∉ before) (h : Takes g before after places taken) :
    Takes g before after (p :: places) taken where
  nodup := h.nodup
  mem_iff := h.mem_iff
  after_subset := h.after_subset
  joined q member := by
    obtain ⟨r, place, joined⟩ := h.joined q member
    exact ⟨r, List.mem_cons_of_mem p place, joined⟩
  places_gone := by
    intro r member
    rcases List.mem_cons.mp member with rfl | member
    · exact fun left => old (h.after_subset left)
    · exact h.places_gone r member
  around_gone := h.around_gone

theorem Takes.take {before after : Finset Pixel} {places taken : List Pixel} {p : Pixel}
    (inked : g.Inked p) (free : p ∈ before)
    (h : Takes g (before.erase p) after (around p ++ places) taken) :
    Takes g before after (p :: places) (taken ++ [p]) := by
  have gone : p ∉ after := fun left => Finset.notMem_erase p before (h.after_subset left)
  have fresh : p ∉ taken := fun member =>
    Finset.notMem_erase p before ((h.mem_iff p).mp member).1
  have swept : ∀ r, Touch p r → r ∉ after := fun r touch =>
    h.places_gone r (List.mem_append_left places ((mem_around p r).mpr touch))
  exact {
    nodup := List.nodup_append_comm.mp (List.nodup_cons.mpr ⟨fresh, h.nodup⟩)
    mem_iff := by
      intro q
      rw [List.mem_append, List.mem_singleton, h.mem_iff, Finset.mem_erase]
      constructor
      · rintro (⟨⟨-, within⟩, away⟩ | rfl)
        · exact ⟨within, away⟩
        · exact ⟨free, gone⟩
      · rintro ⟨within, away⟩
        by_cases same : q = p
        · exact .inr same
        · exact .inl ⟨⟨same, within⟩, away⟩
    after_subset := h.after_subset.trans (Finset.erase_subset p before)
    joined := by
      intro q member
      rcases List.mem_append.mp member with member | last
      · obtain ⟨s, place, set, path⟩ := h.joined q member
        rcases List.mem_append.mp place with near | place
        · exact ⟨p, List.mem_cons_self, inked,
            .head ⟨inked, set, (mem_around p s).mp near⟩ path⟩
        · exact ⟨s, List.mem_cons_of_mem p place, set, path⟩
      · obtain rfl := List.mem_singleton.mp last
        exact ⟨q, List.mem_cons_self, inked, .refl⟩
    places_gone := by
      intro r member
      rcases List.mem_cons.mp member with rfl | member
      · exact gone
      · exact h.places_gone r (List.mem_append_right _ member)
    around_gone := by
      intro q member
      rcases List.mem_append.mp member with member | last
      · exact h.around_gone q member
      · obtain rfl := List.mem_singleton.mp last
        exact swept }

theorem spread_takes (steps : Nat) (seen : Array Bool) (found : Component) (places : List Pixel)
    (enough : places.length + 9 * (unreached g seen).card ≤ steps) :
    ∃ taken, (spread g steps ⟨seen, found⟩ places).found = taken ++ found ∧
      Takes g (unreached g seen) (unreached g (spread g steps ⟨seen, found⟩ places).seen) places
        taken := by
  induction steps generalizing seen found places with
  | zero =>
      obtain rfl : places = [] := List.length_eq_zero_iff.mp (by omega)
      exact ⟨[], rfl, .nil _⟩
  | succ steps ih =>
      cases places with
      | nil => exact ⟨[], rfl, .nil _⟩
      | cons p rest =>
          rw [List.length_cons] at enough
          rw [spread]
          by_cases new : isNew g seen p = true
          · have free := mem_unreached.mpr new
            have fewer := Finset.card_erase_add_one free
            have room : (around p ++ rest).length + 9 * ((unreached g seen).erase p).card ≤
                steps := by
              rw [List.length_append, show (around p).length = 9 from rfl]
              omega
            rw [← unreached_set free] at room
            obtain ⟨taken, eq, takes⟩ := ih _ (p :: found) _ room
            rw [unreached_set free] at takes
            rw [if_pos new]
            refine ⟨taken ++ [p], ?_, takes.take (inked_of_unreached free) free⟩
            rw [eq, List.append_assoc, List.singleton_append]
          · obtain ⟨taken, eq, takes⟩ := ih seen found rest (by omega)
            rw [if_neg new]
            exact ⟨taken, eq, takes.skip (mt mem_unreached.mp new)⟩

def Whole (g : Grid Bool) (free : Finset Pixel) : Prop :=
  ∀ p ∈ free, ∀ q, g.Adjoins p q → q ∈ free

theorem Takes.isComponent {before after : Finset Pixel} (whole : Whole g before) {p : Pixel}
    (inked : g.Inked p) (free : p ∈ before) {taken : List Pixel}
    (h : Takes g before after [p] taken) : g.IsComponent taken.toFinset := by
  refine ⟨p, inked, fun q => ?_⟩
  rw [List.mem_toFinset]
  constructor
  · intro member
    obtain ⟨start, place, -, joined⟩ := h.joined q member
    obtain rfl := List.mem_singleton.mp place
    exact joined
  · intro joined
    induction joined with
    | refl => exact (h.mem_iff p).mpr ⟨free, h.places_gone p List.mem_cons_self⟩
    | tail _ last member =>
        have within := whole _ ((h.mem_iff _).mp member).1 _ last
        exact (h.mem_iff _).mpr ⟨within, h.around_gone _ member _ last.2.2⟩

theorem Takes.whole {before after : Finset Pixel} (whole : Whole g before)
    {places taken : List Pixel} (h : Takes g before after places taken) : Whole g after := by
  intro p left q adjoins
  have within := whole p (h.after_subset left) q adjoins
  by_contra gone
  exact h.around_gone q ((h.mem_iff q).mpr ⟨within, gone⟩) p adjoins.2.2.symm left

/-- The search has passed some places: each set pixel is free or in one of the components that have
been found, which are apart. -/
structure Searched (g : Grid Bool) (count : Nat) (s : Search) : Prop where
  whole : Whole g (unreached g s.seen)
  nodup : ∀ c ∈ s.components, c.Nodup
  isComponent : ∀ c ∈ s.components, g.IsComponent c.toFinset
  reached : ∀ p, g.Inked p → (p ∉ unreached g s.seen ↔ ∃ c ∈ s.components, p ∈ c)
  apart : s.components.Pairwise List.Disjoint
  passed : ∀ p ∈ unreached g s.seen, count ≤ p.1 * g.width + p.2

theorem searched_start : Searched g 0 ⟨Array.replicate (g.height * g.width) false, []⟩ := by
  have all : ∀ p, g.Inked p →
      p ∈ unreached g (Array.replicate (g.height * g.width) false) := by
    intro p inked
    rw [unreached_start, Finset.mem_filter, Finset.mem_product, Finset.mem_range, Finset.mem_range]
    exact ⟨inked.inside, inked⟩
  exact {
    whole := fun _ _ q adjoins => all q adjoins.2.1
    nodup := by simp
    isComponent := by simp
    reached := fun p inked => by simp [all p inked]
    apart := .nil
    passed := fun _ _ => Nat.zero_le _ }

theorem Searched.add {count : Nat} {s : Search} (h : Searched g count s) {p : Pixel}
    (free : p ∈ unreached g s.seen) {seen : Array Bool} {taken : Component}
    (takes : Takes g (unreached g s.seen) (unreached g seen) [p] taken) :
    Searched g count ⟨seen, taken :: s.components⟩ := by
  have component := takes.isComponent h.whole (inked_of_unreached free) free
  exact {
    whole := takes.whole h.whole
    nodup := List.forall_mem_cons.mpr ⟨takes.nodup, h.nodup⟩
    isComponent := List.forall_mem_cons.mpr ⟨component, h.isComponent⟩
    reached := by
      intro q inked
      have smaller : q ∈ unreached g seen → q ∈ unreached g s.seen := fun left =>
        takes.after_subset left
      simp only [List.mem_cons, exists_eq_or_imp]
      rw [takes.mem_iff, ← h.reached q inked]
      tauto
    apart := by
      refine List.pairwise_cons.mpr ⟨fun c member q inTaken inC => ?_, h.apart⟩
      have inked := component.inked (List.mem_toFinset.mpr inTaken)
      exact (h.reached q inked).mpr ⟨c, member, inC⟩ ((takes.mem_iff q).mp inTaken).1
    passed := fun q left => h.passed q (takes.after_subset left) }

theorem Searched.pass {count : Nat} {s : Search} (h : Searched g count s)
    (gone : (count / g.width, count % g.width) ∉ unreached g s.seen) :
    Searched g (count + 1) s := by
  refine { h with passed := fun p free => ?_ }
  have column := (inked_of_unreached free).inside.2
  have other : p.1 * g.width + p.2 ≠ count := by
    intro same
    rw [← Nat.div_add_mod' count g.width] at same
    obtain rfl := (Grid.position_inj (q := (count / g.width, count % g.width)) column
      (Nat.mod_lt _ (Nat.lt_of_le_of_lt (Nat.zero_le _) column))).mp same
    exact gone free
  have passed := h.passed p free
  omega

theorem Searched.look {count : Nat} {s : Search} (h : Searched g count s) :
    Searched g (count + 1) (look g s count) := by
  rw [Component.look]
  dsimp only
  split
  · rename_i new
    have few := card_unreached_le g s.seen
    obtain ⟨taken, found, takes⟩ := spread_takes (g := g) (9 * (g.height * g.width) + 1) s.seen []
      [(count / g.width, count % g.width)] (by rw [List.length_singleton]; omega)
    rw [found, List.append_nil]
    exact (h.add (mem_unreached.mpr new) takes).pass (takes.places_gone _ List.mem_cons_self)
  · rename_i old
    exact h.pass (mt mem_unreached.mp old)

theorem searched_fold (count : Nat) :
    Searched g count (Nat.fold count (fun position _ s => look g s position)
      ⟨Array.replicate (g.height * g.width) false, []⟩) := by
  induction count with
  | zero => exact searched_start
  | succ count ih =>
      rw [Nat.fold_succ]
      exact ih.look

theorem searched_all (g : Grid Bool) : ∃ seen, unreached g seen = ∅ ∧
    Searched g (g.height * g.width) ⟨seen, (all g).reverse⟩ := by
  have searched := searched_fold (g := g) (g.height * g.width)
  refine ⟨_, ?_, by rw [all, List.reverse_reverse]; exact searched⟩
  refine Finset.eq_empty_of_forall_notMem fun p free => ?_
  have passed := searched.passed p free
  have inside := (inked_of_unreached free).inside
  have before := Grid.position_lt inside.1 inside.2
  omega

theorem nodup_of_mem_all {c : Component} (member : c ∈ all g) : c.Nodup := by
  obtain ⟨seen, -, searched⟩ := searched_all g
  exact searched.nodup c (List.mem_reverse.mpr member)

theorem isComponent_of_mem_all {c : Component} (member : c ∈ all g) :
    g.IsComponent c.toFinset := by
  obtain ⟨seen, -, searched⟩ := searched_all g
  exact searched.isComponent c (List.mem_reverse.mpr member)

theorem mem_map_toFinset_all (c : Finset Pixel) :
    c ∈ (all g).map List.toFinset ↔ g.IsComponent c := by
  rw [List.mem_map]
  constructor
  · rintro ⟨d, member, rfl⟩
    exact isComponent_of_mem_all member
  · intro component
    obtain ⟨p, inC⟩ := component.nonempty
    obtain ⟨seen, none, searched⟩ := searched_all g
    obtain ⟨d, member, inD⟩ := (searched.reached p (component.inked inC)).mp (by simp [none])
    rw [List.mem_reverse] at member
    exact ⟨d, member, (isComponent_of_mem_all member).eq_of_mem component
      (List.mem_toFinset.mpr inD) inC⟩

theorem nodup_map_toFinset_all (g : Grid Bool) : ((all g).map List.toFinset).Nodup := by
  obtain ⟨seen, -, searched⟩ := searched_all g
  have apart : (all g).Pairwise List.Disjoint :=
    (List.pairwise_reverse.mp searched.apart).imp List.Disjoint.symm
  refine List.pairwise_map.mpr (apart.imp_of_mem fun {c d} inC _ disjoint same => ?_)
  obtain ⟨p, member⟩ := (isComponent_of_mem_all inC).nonempty
  exact disjoint (List.mem_toFinset.mp member) (List.mem_toFinset.mp (same ▸ member))

end Component

end PageFlattening
