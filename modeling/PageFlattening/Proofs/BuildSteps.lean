import PageFlattening.Proofs.Building

/-! The steps of building a page, each under its own name. A model starts blank, is given the
statistics and the field of the lines, and then what the edges of the text add; of its page number
only the parity matters, for the edges. With points enough a fit stops only where it is singular. -/
namespace PageFlattening

section Fits

variable {K : Type} [Scalar K]

namespace Points

theorem support_cons_ne_none (first : K × K) (rest : Points K) :
    support (first :: rest) ≠ .none := by
  intro none
  rw [support] at none
  split at none
  · cases none
  · split at none <;> cases none

theorem fitParabola_fault {points : Points K} (filled : points ≠ []) {fault : Fault}
    (h : points.fitParabola = .error fault) : fault = .misuse .singularFit := by
  cases points with
  | nil => exact absurd rfl filled
  | cons first rest =>
      rw [fitParabola] at h
      split at h
      · cases h
      · cases h
      · split at h
        · cases h
          rfl
        · cases h
      · rename_i none
        exact absurd none (support_cons_ne_none first rest)

theorem fitLine_fault {points : Points K} (filled : points ≠ []) {fault : Fault}
    (h : points.fitLine = .error fault) : fault = .misuse .singularFit := by
  cases points with
  | nil => exact absurd rfl filled
  | cons first rest =>
      rw [fitLine] at h
      split at h
      · cases h
      · cases h
      · split at h
        · cases h
          rfl
        · cases h
      · rename_i none
        exact absurd none (support_cons_ne_none first rest)

end Points

variable {α : Type} {items : List α}

theorem fitQuadratic_map (enough : 3 ≤ items.length) (f g : α → K) :
    fitQuadratic (items.map f) (items.map g) =
      Points.fitParabola (items.map fun a => (f a, g a)) := by
  have size : ¬ (items.map f).length < 3 := by
    rw [List.length_map]
    omega
  rw [fitQuadratic, if_neg size, pairUp, List.length_map, List.length_map, if_pos rfl,
    List.zip_map']
  rfl

theorem fitLinear_map (enough : 2 ≤ items.length) (f g : α → K) :
    fitLinear (items.map f) (items.map g) =
      Points.fitLine (items.map fun a => (f a, g a)) := by
  have size : ¬ (items.map f).length < 2 := by
    rw [List.length_map]
    omega
  rw [fitLinear, if_neg size, pairUp, List.length_map, List.length_map, if_pos rfl,
    List.zip_map']
  rfl

theorem fitQuadratic_fault (enough : 3 ≤ items.length) (f g : α → K) {fault : Fault}
    (h : fitQuadratic (items.map f) (items.map g) = .error fault) :
    fault = .misuse .singularFit := by
  rw [fitQuadratic_map enough] at h
  refine Points.fitParabola_fault (List.ne_nil_of_length_pos ?_) h
  rw [List.length_map]
  omega

theorem fitLinear_fault (enough : 2 ≤ items.length) (f g : α → K) {fault : Fault}
    (h : fitLinear (items.map f) (items.map g) = .error fault) :
    fault = .misuse .singularFit := by
  rw [fitLinear_map enough] at h
  refine Points.fitLine_fault (List.ne_nil_of_length_pos ?_) h
  rw [List.length_map]
  omega

theorem LineFit.ofLine_fault {l : TextLine K} (enough : 3 ≤ l.length) {fault : Fault}
    (h : LineFit.ofLine l = .error fault) : fault = .misuse .singularFit := by
  cases fitted : fitQuadratic (l.map (·.1)) (l.map (·.2)) with
  | error other =>
      simp only [LineFit.ofLine, fitted] at h
      cases h
      exact fitQuadratic_fault enough _ _ fitted
  | ok curve =>
      simp only [LineFit.ofLine, fitted] at h
      cases h

end Fits

namespace TextLine

theorem three_le_of_mem {K : Type} {detected : List (TextLine K)} {l : TextLine K}
    (member : l ∈ detected.filter fun l => decide (3 ≤ l.length)) :
    l ∈ detected ∧ 3 ≤ l.length := by
  rwa [List.mem_filter, decide_eq_true_iff] at member

variable {K : Type} [Scalar K]

theorem length_leftEnds (lines : List (TextLine K)) : (leftEnds lines).length = lines.length := by
  rw [leftEnds, topToBottom, List.length_mergeSort, List.length_map]

theorem length_rightEnds (lines : List (TextLine K)) :
    (rightEnds lines).length = lines.length := by
  rw [rightEnds, topToBottom, List.length_mergeSort, List.length_map]

end TextLine

namespace VerticalFit

variable {K : Type} [Scalar K]

def ofKept (kept : List (LineFit K)) (columns stride : Nat) :
    Except Fault (Option (VerticalFit K)) :=
  match least? (kept.map (·.curvature)), greatest? (kept.map (·.curvature)) with
  | some low, some high => do
      if kept.length < 3 then return none
      let minCurvature ← toMicro low
      let maxCurvature ← toMicro high
      return some
        { lines := (kept.map (LineFit.sampled columns stride)).mergeSort
            fun a b => decide (a.middle ≤ b.middle)
          curvatures := ascending (kept.map (·.curvature))
          minCurvature
          maxCurvature }
  | _, _ => .ok none

theorem ofLines_eq (lines : List (TextLine K)) (columns stride : Nat) :
    ofLines lines columns stride = lines.mapM LineFit.ofLine >>= fun fits =>
      ofKept (LineFit.consistent fits) columns stride := rfl

theorem ofKept_of_lt {kept : List (LineFit K)} (few : kept.length < 3) (columns stride : Nat) :
    ofKept kept columns stride = .ok none := by
  rw [ofKept]
  split
  · rw [if_pos few]
    rfl
  · rfl

theorem ofKept_of_le {kept : List (LineFit K)} (enough : 3 ≤ kept.length) (columns stride : Nat) :
    ∃ low high, least? (kept.map (·.curvature)) = some low ∧
      greatest? (kept.map (·.curvature)) = some high ∧
      ofKept kept columns stride = toMicro low >>= fun minCurvature =>
        toMicro high >>= fun maxCurvature => .ok (some
          { lines := (kept.map (LineFit.sampled columns stride)).mergeSort
              fun a b => decide (a.middle ≤ b.middle)
            curvatures := ascending (kept.map (·.curvature))
            minCurvature
            maxCurvature }) := by
  cases kept with
  | nil => exact absurd enough (by simp)
  | cons f rest =>
      refine ⟨_, _, rfl, rfl, ?_⟩
      simp only [ofKept, List.map_cons, least?, greatest?, if_neg (Nat.not_lt.mpr enough)]
      rfl

theorem displacements_column (v : VerticalFit K) {columns x : Nat} (column : x < columns) :
    ((List.range (v.displacements columns).height).map fun y =>
      (v.displacements columns).get (Scalar.ofInt 0) y x) =
        v.lines.map fun l => l.level - l.heights.getD x (Scalar.ofInt 0) := by
  have height : (v.displacements columns).height = v.lines.length := by
    simp only [displacements, Grid.height_ofFn, List.size_toArray, List.length_map]
  refine List.ext_getElem (by simp [height]) fun y inside _ => ?_
  have row : y < v.lines.length := by simpa [height] using inside
  have entry : ((v.lines.map fun l => (l.level, l.heights.toArray)).toArray)[y]? =
      some (v.lines[y].level, v.lines[y].heights.toArray) := by
    simp [row]
  rw [List.getElem_map, List.getElem_range, List.getElem_map, displacements,
    Grid.get_ofFn _ _ (by simpa using row) column]
  simp only [entry]
  simp

theorem lineFits_eq (v : VerticalFit K) (columns : Nat) :
    Field.lineFits v.levels (.ofGrid (v.displacements columns)) =
      if v.lines.length < 3 then .error (.argument (.columnFitLines v.lines.length))
      else (List.range columns).mapM fun x => Points.fitParabola (v.lines.map fun l =>
        (l.level, l.level - l.heights.getD x (Scalar.ofInt 0))) := by
  have levels : v.levels.length = v.lines.length := List.length_map _
  have height : (v.displacements columns).height = v.lines.length := by
    simp only [displacements, Grid.height_ofFn, List.size_toArray, List.length_map]
  have width : (v.displacements columns).width = columns := rfl
  rw [Field.lineFits, Shaped.grid?_ofGrid]
  simp only [height, levels, ne_eq, not_true, if_false]
  split
  · rfl
  · change Field.columnFits _ _ = _
    rw [Field.columnFits, width]
    refine mapM_congr fun x column => ?_
    rw [displacements_column v (List.mem_range.mp column), VerticalFit.levels, List.zip_map']

end VerticalFit

theorem map_bind_eq {ε α β γ : Type} (x : Except ε α) (f : α → Except ε β) (g : β → γ) :
    (x >>= f).map g = x >>= fun a => (f a).map g := by
  cases x <;> rfl

namespace PageModel

variable {K : Type}

theorem setField_result {m : PageModel K} (built : m.redirect = none) (f : Field K) :
    (m.setField f).result =
      if (f.stride : Int) = m.stride then .ok (m.setTrack f.direction (.held .pending f))
      else .error (.argument (.fieldStrideMismatch f.stride m.stride)) := by
  have kind : m.isRedirect = false := by
    rw [isRedirect, built]
    rfl
  simp only [setField, kind, Bool.false_eq_true, if_false, ne_eq, ite_not]
  split <;> rfl

def withLines (m : PageModel K) (lines : VerticalFit K) : PageModel K :=
  { m with
    statistics := { m.statistics with
      minCurvature := lines.minCurvature
      maxCurvature := lines.maxCurvature }
    middles := lines.lines.map fun l => l.middle
    curvatures := lines.curvatures }

def withEdges (m : PageModel K) (edges : EdgeFit K) : PageModel K :=
  { m with
    statistics := { m.statistics with
      leftSlope := edges.leftSlope
      rightSlope := edges.rightSlope
      leftCurvature := edges.leftCurvature
      rightCurvature := edges.rightCurvature } }

def addSlope (m : PageModel K) : Option (Field K) → Except Fault (PageModel K)
  | some slope => (m.setField slope).result
  | none => .ok (m.markFailed [.slope])

def addFields (m : PageModel K) (edges : EdgeFit K) : Except Fault (PageModel K) := do
  let straight ← ((m.withEdges edges).setField edges.horizontal).result
  straight.addSlope edges.slope

end PageModel

namespace BuildReport

open PageModel

variable {K : Type}

def start (b : BuildSettings) (ink : Grid Bool) (page lineCount : Nat) : PageModel K :=
  let m : PageModel K := blank page ink.width ink.height b.stride b.reduction
  { m with statistics := { m.statistics with lineCount } }

theorem rows_start (b : BuildSettings) {ink : Grid Bool} (tall : 0 < ink.height)
    (page lineCount : Nat) : (start b ink page lineCount : PageModel K).rows =
      sampleCount ink.height b.stride :=
  if_neg (by simpa [start, blank] using Nat.ne_of_gt tall)

theorem columns_start (b : BuildSettings) {ink : Grid Bool} (wide : 0 < ink.width)
    (page lineCount : Nat) : (start b ink page lineCount : PageModel K).columns =
      sampleCount ink.width b.stride :=
  if_neg (by simpa [start, blank] using Nat.ne_of_gt wide)

variable [Scalar K]

def alone (m : PageModel K) (lines : List (TextLine K)) (vertical : VerticalFit K)
    (flushEnds : Option (List (Point K) × List (Point K))) : BuildReport K :=
  { model := m.markFailed [.horizontal, .slope], lines, vertical := some vertical, flushEnds }

theorem addEdges_eq (m : PageModel K) (lines : List (TextLine K)) (vertical : VerticalFit K)
    (columns rows stride : Nat) : addEdges m lines vertical columns rows stride =
      (let left := TextLine.leftEnds lines
      let right := TextLine.rightEnds lines
      if left.length < EdgeFit.minPoints then .ok (alone m lines vertical none)
      else do
        let leftFlush ← EdgeFit.flush .left left (EdgeFit.tolerance m.width)
        let rightFlush ← EdgeFit.flush .right right (EdgeFit.tolerance m.width)
        if !(EdgeFit.usable leftFlush (EdgeFit.span left) &&
            EdgeFit.usable rightFlush (EdgeFit.span left)) then
          .ok (alone m lines vertical (some (leftFlush, rightFlush)))
        else do
          let edges ← EdgeFit.ofFlush leftFlush rightFlush
            (decide (left.length ≤ leftFlush.length) && decide (right.length ≤ rightFlush.length))
            m.height (m.page % 2 == 1) columns rows stride
          (m.addFields edges).map fun model =>
            { model, lines, vertical := some vertical,
              flushEnds := some (leftFlush, rightFlush) }) := by
  rw [addEdges]
  dsimp only
  split
  · rfl
  · refine bind_congr fun leftFlush => bind_congr fun rightFlush => ?_
    split
    · rfl
    · refine bind_congr fun edges => ?_
      rw [addFields, map_bind_eq]
      refine bind_congr fun straight => ?_
      cases edges.slope with
      | none => rfl
      | some slope => cases (straight.setField slope).result <;> rfl

theorem ofLines_eq (b : BuildSettings) (ink : Grid Bool) (page : Nat) (minLines : Value K)
    (detected : List (TextLine K)) : ofLines b ink page minLines detected =
      (let lines := detected.filter fun l => decide (3 ≤ l.length)
      let m : PageModel K := start b ink page lines.length
      do
        if ← minLines.greaterThan lines.length then return failed m lines
        let coverage ← TextLine.coverage lines ink.height
        if !coverage.enough then return failed m lines
        match ← VerticalFit.ofLines lines m.columns.toNat b.stride with
        | none => return failed m lines
        | some vertical =>
            let field ← vertical.field m.columns.toNat m.rows.toNat b.stride
            let flat ← ((m.withLines vertical).setField field).result
            addEdges flat lines vertical m.columns.toNat m.rows.toNat b.stride) := by
  rw [ofLines]
  refine bind_congr fun few => ?_
  cases few with
  | true => rfl
  | false =>
      refine bind_congr fun coverage => ?_
      split
      · rfl
      · refine bind_congr fun fit => ?_
        cases fit with
        | none => rfl
        | some vertical => rfl

end BuildReport

end PageFlattening
