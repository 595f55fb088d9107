import Mathlib
import PageFlattening.Proofs.Continuation
import PageFlattening.Proofs.EdgeFits

/-! Straight edges of the text. The edges of a page are straightened to the outermost place of each:
the rightmost on an odd page, the leftmost on an even one. Along a sampled row the displacement is
the affine function that takes these two places back to the edges in that row, so that what is shown
at the straightened edges comes from the edges themselves. -/
namespace PageFlattening

/-! ### Affine displacements -/

namespace Line

theorem eval_eq (d : Line Rat) (x : Rat) : d.eval x = d.c1 * x + d.c0 := rfl

def through (a u b v : Rat) : Line Rat :=
  { c1 := (v - u) / (b - a), c0 := u - (v - u) / (b - a) * a }

theorem eval_through (a u b v x : Rat) :
    (through a u b v).eval x = u + (v - u) / (b - a) * (x - a) := by
  rw [eval_eq, through]
  ring

theorem eval_through_left (a u b v : Rat) : (through a u b v).eval a = u := by
  rw [eval_through]
  ring

theorem eval_through_right {a b : Rat} (apart : a ≠ b) (u v : Rat) :
    (through a u b v).eval b = v := by
  rw [eval_through, div_mul_cancel₀ _ (sub_ne_zero.mpr apart.symm)]
  ring

def source (d : Line Rat) (x : Rat) : Rat := x - d.eval x

end Line

def Page.sourceAcross (h : Grid Rat) (y x : Nat) : Rat × Rat := ((x : Rat) - h.value y x, (y : Rat))

namespace Field

theorem edgeTolerance_eq : (edgeTolerance : Rat) = 1 / 1000000000 := by
  change ((1 : Int) : Rat) / ((1000000000 : Int) : Rat) = _
  norm_num

theorem profileAt_eq {profile : List Rat} {i : Nat} (inside : i < profile.length) :
    profileAt profile i = profile.getD i 0 := by
  rw [profileAt]
  split
  · rename_i single
    obtain rfl : i = 0 := by omega
    rfl
  · rfl

def edgeRise (leftEdge rightEdge u v : Rat) : Rat :=
  if |rightEdge - leftEdge| < 1 / 1000000000 then 0 else (v - u) / (rightEdge - leftEdge)

theorem edgeSamples_eq (leftEdge rightEdge : Rat) {left right : List Rat}
    (same : left.length = right.length) (unit : Rat) (columns : Nat) :
    edgeSamples leftEdge rightEdge left right unit columns =
      .ok (Grid.ofFn left.length columns fun i j => left.getD i 0 +
        edgeRise leftEdge rightEdge (left.getD i 0) (right.getD i 0) * (j * unit - leftEdge)) := by
  have start : ∀ i < left.length,
      left.toArray.getD (if left.toArray.size = 1 then 0 else i) (Scalar.ofInt 0) =
        left.getD i (0 : Rat) := by
    intro i row
    rw [← profileAt_eq row, profileAt, List.size_toArray]
    simp
  -- Whether or not the edges coincide there is a row for each entry of the profiles.
  have grid : ∀ rise : Nat → Rat,
      (∀ i < left.length,
        rise i = edgeRise leftEdge rightEdge (left.getD i 0) (right.getD i 0)) →
        Grid.ofFn left.length columns (fun i j =>
          left.toArray.getD (if left.toArray.size = 1 then 0 else i) (Scalar.ofInt 0) +
            ((List.range left.length).map rise).toArray.getD i (Scalar.ofInt 0) *
              (Scalar.ofNat j * unit - leftEdge)) =
        Grid.ofFn left.length columns fun i j => left.getD i 0 +
          edgeRise leftEdge rightEdge (left.getD i 0) (right.getD i 0) * (j * unit - leftEdge) := by
    intro rise known
    refine Grid.ofFn_congr fun i row j _ => ?_
    have entry : ((List.range left.length).map rise).toArray.getD i (Scalar.ofInt 0) = rise i := by
      simp [row]
    rw [start i row, entry, known i row]
    rfl
  rw [edgeSamples, commonLength, if_pos same]
  split
  · rename_i close
    rw [scalarAbs_eq, edgeTolerance_eq] at close
    exact congrArg Except.ok (grid _ fun i _ => (if_pos close).symm)
  · rename_i apart
    rw [scalarAbs_eq, edgeTolerance_eq] at apart
    refine congrArg Except.ok (grid _ fun i row => ?_)
    rw [edgeRise, if_neg apart, profileAt_eq row, profileAt_eq (same ▸ row)]

end Field

namespace EdgeFit

/-- The entry of an edge that lies farthest from the gutter: the greatest on an odd page, the least
on an even one. -/
structure Outermost (odd : Bool) (edge : List Rat) (x : Rat) : Prop where
  member : x ∈ edge
  beyond : ∀ y ∈ edge, if odd then y ≤ x else x ≤ y

theorem outermost {odd : Bool} {edge : List Rat} {x : Rat}
    (h : (if odd then greatest? edge else least? edge) = some x) : Outermost odd edge x := by
  cases odd with
  | true =>
      rw [if_pos rfl, greatest?_eq_max?] at h
      obtain ⟨member, greatest⟩ := List.max?_eq_some_iff.mp h
      exact ⟨member, greatest⟩
  | false =>
      rw [if_neg Bool.false_ne_true, least?_eq_min?] at h
      obtain ⟨member, least⟩ := List.min?_eq_some_iff.mp h
      exact ⟨member, least⟩

theorem Outermost.outward {odd : Bool} {edge : List Rat} {x : Rat} (outer : Outermost odd edge x)
    {i : Nat} (inside : i < edge.length) :
    if odd then 0 ≤ x - edge.getD i 0 else x - edge.getD i 0 ≤ 0 := by
  have beyond := outer.beyond _ (List.getElem_mem inside)
  rw [List.getD_eq_getElem _ _ inside]
  cases odd with
  | true => exact sub_nonneg.mpr beyond
  | false => exact sub_nonpos.mpr beyond

theorem Outermost.rests {odd : Bool} {edge : List Rat} {x : Rat} (outer : Outermost odd edge x) :
    ∃ i < edge.length, x - edge.getD i 0 = 0 := by
  obtain ⟨i, inside, rfl⟩ := List.getElem_of_mem outer.member
  exact ⟨i, inside, by rw [List.getD_eq_getElem _ _ inside, sub_self]⟩

theorem outermost_references {left right : List Rat} {odd : Bool} {toLeft toRight : Rat}
    (h : references left right odd = .ok (toLeft, toRight)) :
    Outermost odd left toLeft ∧ Outermost odd right toRight := by
  rw [references] at h
  dsimp only at h
  split at h
  · rename_i l r atLeft atRight
    cases h
    exact ⟨outermost atLeft, outermost atRight⟩
  · cases h

theorem field_eq (direction : Direction) {left right : List Rat}
    (same : left.length = right.length) (filled : 0 < left.length) {odd : Bool}
    {toLeft toRight : Rat} (referred : references left right odd = .ok (toLeft, toRight))
    {columns stride : Nat} (wide : 0 < columns) (positive : 0 < stride) :
    ∃ f, field direction left right odd columns stride = .ok f ∧ f.direction = direction ∧
      f.rows = left.length ∧ f.columns = columns ∧ f.stride = stride ∧
      ∀ i < left.length, ∀ j < columns, f.sample i j = toLeft - left.getD i 0 +
        Field.edgeRise toLeft toRight (toLeft - left.getD i 0) (toRight - right.getD i 0) *
          ((j * stride : Nat) - toLeft) := by
  have lengths : (left.map (toLeft - ·)).length = (right.map (toRight - ·)).length := by
    rw [List.length_map, List.length_map, same]
  have sampled := Field.edgeSamples_eq toLeft toRight lengths stride columns
  rw [List.length_map] at sampled
  have bound : ∀ g, Field.edgeSamples toLeft toRight (left.map (toLeft - ·))
      (right.map (toRight - ·)) (stride : Rat) columns = .ok g →
        field direction left right odd columns stride =
          Field.make (.ok direction) (.ofGrid g) (.int stride) := by
    intro g sampled
    rw [field, referred]
    change (Field.edgeSamples toLeft toRight _ _ (stride : Rat) (columns : Int).toNat >>=
      fun grid => Field.make (.ok direction) (.ofGrid grid) (.int stride)) = _
    rw [Int.toNat_natCast, sampled]
    rfl
  refine ⟨_, (bound _ sampled).trans (Field.make_int direction filled wide positive), rfl, rfl, rfl,
    rfl, fun i row j column => ?_⟩
  have row' : i < right.length := same ▸ row
  refine (Grid.get_ofFn _ _ row column).trans ?_
  simp [row, row']

/-- A field that straightens the edges of the text: along each sampled row it is an affine
displacement under which the straightened edges show the edges of that row. All edges are moved the
same way, away from the gutter, and each somewhere not at all. A page that is moved by the whole
field is read, in the sampled rows, where the displacement says. -/
structure Aligns (f : Field Rat) (odd : Bool) (left right : List Rat) (toLeft toRight : Rat)
    (d : Nat → Line Rat) : Prop where
  samples : ∀ i < f.rows, ∀ j < f.columns, f.sample i j = (d i).eval (j * f.stride : Nat)
  atLeft : ∀ i < f.rows, left[i]? = some ((d i).source toLeft)
  atRight : ∀ i < f.rows, right[i]? = some ((d i).source toRight)
  outward : ∀ i < f.rows, ∀ edge ∈ [toLeft, toRight],
    if odd then 0 ≤ (d i).eval edge else (d i).eval edge ≤ 0
  restsLeft : ∃ i < f.rows, (d i).eval toLeft = 0
  restsRight : ∃ i < f.rows, (d i).eval toRight = 0
  shown : 2 ≤ f.columns → ∀ p : Page, ∃ h,
    f.expand f.stride (some p.width) (some p.height) 1 none = .ok h ∧
    p.moveHorizontally h = p.remap (Page.sourceAcross h) ∧
    ∀ i < f.rows, f.stride * i < p.height → ∀ x < p.width,
      Page.sourceAcross h (f.stride * i) x = ((d i).source x, ((f.stride * i : Nat) : Rat))

theorem shown_of_samples {f : Field Rat} {d : Nat → Line Rat}
    (samples : ∀ i < f.rows, ∀ j < f.columns, f.sample i j = (d i).eval (j * f.stride : Nat))
    (several : 2 ≤ f.columns) (p : Page) :
    ∃ h, f.expand f.stride (some p.width) (some p.height) 1 none = .ok h ∧
      p.moveHorizontally h = p.remap (Page.sourceAcross h) ∧
      ∀ i < f.rows, f.stride * i < p.height → ∀ x < p.width,
        Page.sourceAcross h (f.stride * i) x = ((d i).source x, ((f.stride * i : Nat) : Rat)) := by
  have positive := f.stride_pos
  refine ⟨_, f.expand_alone positive p.width p.height 1, rfl, fun i row below x beside => ?_⟩
  have affine : Axis.reading f.columns f.stride (f.sample i) x = (d i).eval x := by
    rw [Line.eval_eq, add_comm]
    refine Axis.reading_affine positive several (fun j column => ?_) x
    rw [samples i row j column, Line.eval_eq, add_comm, Nat.mul_comm]
  rw [Page.sourceAcross, Grid.value_ofFn _ below beside, one_mul, Field.surface_eq_reading,
    Axis.reading_sample positive _ row, affine, Line.source]

/-- The field of two edges straightens both of them, unless they are straightened to one place: then
it moves each sampled row as a whole, by the distance of the left edge. -/
theorem field_aligns (direction : Direction) (left right : List Rat)
    (same : left.length = right.length) (filled : 0 < left.length) (odd : Bool)
    (columns stride : Nat) (wide : 0 < columns) (positive : 0 < stride) :
    ∃ toLeft toRight f, references left right odd = .ok (toLeft, toRight) ∧
      field direction left right odd columns stride = .ok f ∧
      f.direction = direction ∧ f.rows = left.length ∧ f.columns = columns ∧ f.stride = stride ∧
      (1 / 1000000000 ≤ |toRight - toLeft| → ∃ d, Aligns f odd left right toLeft toRight d) ∧
      (|toRight - toLeft| < 1 / 1000000000 →
        ∀ i < f.rows, ∀ j < f.columns, f.sample i j = toLeft - left.getD i 0) := by
  have filled' : 0 < right.length := same ▸ filled
  obtain ⟨⟨toLeft, toRight⟩, referred⟩ := references_eq_ok (List.length_pos_iff.mp filled)
    (List.length_pos_iff.mp filled') odd
  obtain ⟨outerLeft, outerRight⟩ := outermost_references referred
  obtain ⟨f, made, direction, rows, columns', stride', samples⟩ :=
    field_eq direction same filled referred wide positive
  refine ⟨toLeft, toRight, f, referred, made, direction, rows, columns', stride',
    fun apart => ?_, fun close i row j column => ?_⟩
  · have different : toLeft ≠ toRight := by
      rintro rfl
      rw [sub_self, abs_zero] at apart
      norm_num at apart
    -- The displacement is fixed at the straightened edges, not at the edges of the row.
    let d := fun i =>
      Line.through toLeft (toLeft - left.getD i 0) toRight (toRight - right.getD i 0)
    have onLeft : ∀ i, (d i).eval toLeft = toLeft - left.getD i 0 :=
      fun i => Line.eval_through_left _ _ _ _
    have onRight : ∀ i, (d i).eval toRight = toRight - right.getD i 0 :=
      fun i => Line.eval_through_right different _ _
    have affine : ∀ i < f.rows, ∀ j < f.columns,
        f.sample i j = (d i).eval (j * f.stride : Nat) := by
      intro i row j column
      rw [samples i (rows ▸ row) j (columns' ▸ column), Field.edgeRise, if_neg apart.not_gt,
        Line.eval_through, stride']
    refine ⟨d, affine, fun i row => ?_, fun i row => ?_, fun i row => ?_, ?_, ?_,
      shown_of_samples affine⟩
    · rw [rows] at row
      simp [Line.source, onLeft, row]
    · rw [rows, same] at row
      simp [Line.source, onRight, row]
    · rw [rows] at row
      simp only [List.forall_mem_cons, List.not_mem_nil, onLeft, onRight]
      exact ⟨outerLeft.outward row, outerRight.outward (same ▸ row), nofun⟩
    · simpa only [onLeft, rows] using outerLeft.rests
    · simpa only [onRight, rows, same] using outerRight.rests
  · rw [samples i (rows ▸ row) j (columns' ▸ column), Field.edgeRise, if_pos close]
    ring

theorem leaning_aligns : ∃ (f : Field Rat) (d : Nat → Line Rat),
    field .horizontal [10, 14, 12] [500, 496, 505] true 3 250 = .ok f ∧
      f.sample 0 1 = (d 0).eval 250 ∧ (d 0).source 14 = 10 ∧ (d 0).source 505 = 500 ∧
      (d 1).eval 14 = 0 ∧ 0 ≤ (d 1).eval 505 := by
  obtain ⟨toLeft, toRight, f, referred, made, -, rows, columns, stride, apart, -⟩ :=
    field_aligns .horizontal [10, 14, 12] [500, 496, 505] rfl (by decide) true 3 250 (by decide)
      (by decide)
  have places : references [10, 14, 12] [500, 496, 505] true = .ok ((14 : Rat), (505 : Rat)) := by
    decide +kernel
  rw [places] at referred
  cases referred
  obtain ⟨d, aligned⟩ := apart (by norm_num [abs_of_pos])
  have inside : ∀ i < 3, i < f.rows := fun i row => rows ▸ row
  have moved := aligned.samples 0 (inside 0 (by decide)) 1 (columns ▸ by decide)
  have left := aligned.atLeft 0 (inside 0 (by decide))
  have right := aligned.atRight 0 (inside 0 (by decide))
  have still : (14 : Rat) = 14 - (d 1).eval 14 := by
    simpa [Line.source] using aligned.atLeft 1 (inside 1 (by decide))
  have outward := aligned.outward 1 (inside 1 (by decide)) 505 (by simp)
  refine ⟨f, d, made, ?_, ?_, ?_, ?_, outward⟩
  · simpa [stride] using moved
  · simpa using left.symm
  · simpa using right.symm
  · linarith

end EdgeFit

end PageFlattening
