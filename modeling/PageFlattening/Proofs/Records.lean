import Mathlib.Data.List.Basic
import Mathlib.Tactic.Common
import PageFlattening.Proofs.ModelStatus

/-! Fields and models are read back as they were stored. A field must stand in the track of its own
direction and have the stride of its model, and the horizontal field must not be valid by itself;
the first two hold of every model that can be made, the third is the law of `ModelStatus`. -/
namespace PageFlattening

namespace Grid

variable {α : Type}

theorem row_eq (g : Grid α) (y : Nat) :
    g.row y = (g.cells.toList.drop (y * g.width)).take g.width := by
  have width : (y + 1) * g.width - y * g.width = g.width := by
    rw [Nat.add_mul, Nat.one_mul]
    omega
  rw [row, Array.toList_extract, List.extract_eq_take_drop, width]

theorem length_row {g : Grid α} {y : Nat} (h : y < g.height) : (g.row y).length = g.width := by
  have step : (y + 1) * g.width ≤ g.height * g.width := Nat.mul_le_mul_right _ h
  rw [Nat.add_mul, Nat.one_mul] at step
  rw [row_eq, List.length_take, List.length_drop, Array.length_toList, g.size_eq]
  omega

theorem flatten_rows (g : Grid α) : g.rows.flatten = g.cells.toList := by
  have first : ∀ n, ((List.range n).map g.row).flatten = g.cells.toList.take (n * g.width) := by
    intro n
    induction n with
    | zero => simp
    | succ n ih =>
        rw [List.range_succ, List.map_append, List.flatten_append, ih, Nat.add_mul, Nat.one_mul,
          List.take_add]
        simp [row_eq]
  rw [rows, first, ← g.size_eq, ← Array.length_toList, List.take_length]

end Grid

namespace Shaped

variable {K : Type}

theorem stack_singles (xs : List K) :
    stack (xs.map single) = .ok (ofList xs) := by
  have entries : ∀ ys : List K, ((ys.map single).map (·.entries)).flatten = ys := by
    intro ys
    induction ys with
    | nil => rfl
    | cons y rest ih => simpa [single] using ih
  cases xs with
  | nil => rfl
  | cons x rest =>
      rw [List.map_cons, stack, if_pos (by simp [single]), entries]
      simp [single, ofList]

theorem stack_rows {rows : List (List K)} {width : Nat} (filled : rows ≠ [])
    (h : ∀ xs ∈ rows, xs.length = width) :
    stack (rows.map ofList) = .ok ⟨[rows.length, width], rows.flatten⟩ := by
  cases rows with
  | nil => exact absurd rfl filled
  | cons first rest =>
      have same : (rest.map ofList).all (fun s => s.dims == (ofList first).dims) =
          true := by
        rw [List.all_map, List.all_eq_true]
        intro xs member
        simp [ofList, h xs (by simp [member]), h first (by simp)]
      rw [List.map_cons, stack, if_pos same]
      have entries : (rest.map ofList).map (·.entries) = rest := by
        rw [List.map_map]
        exact List.map_id rest
      rw [entries]
      simp [ofList, h first (by simp)]

theorem grid?_ofGrid (g : Grid K) : (ofGrid g).grid? = some g := by
  have fits : g.cells.toList.length = g.height * g.width := by
    rw [Array.length_toList, g.size_eq]
  simp [grid?, ofGrid, Grid.ofList?, fits]

end Shaped

namespace Value

variable {K : Type} [Scalar K]

theorem shapedItems_reals (xs : List K) :
    shapedItems (xs.map Value.real) = .ok (xs.map Shaped.single) := by
  induction xs with
  | nil => rfl
  | cons x rest ih => simp [shapedItems, shaped, ih]

theorem shaped_ofNumbers (xs : List K) : (ofNumbers xs).shaped = .ok (Shaped.ofList xs) := by
  rw [ofNumbers, shaped, shapedItems_reals]
  exact Shaped.stack_singles xs

theorem shapedItems_ofNumbers (rows : List (List K)) :
    shapedItems (rows.map ofNumbers) = .ok (rows.map Shaped.ofList) := by
  induction rows with
  | nil => rfl
  | cons xs rest ih => simp [shapedItems, shaped_ofNumbers, ih]

theorem shaped_ofGrid {g : Grid K} (h : 0 < g.height) :
    (ofGrid g).shaped = .ok (Shaped.ofGrid g) := by
  have filled : g.rows ≠ [] := by
    intro none
    have length : g.rows.length = g.height := by simp [Grid.rows]
    rw [none, List.length_nil] at length
    omega
  have widths : ∀ xs ∈ g.rows, xs.length = g.width := by
    intro xs member
    obtain ⟨y, inside, rfl⟩ := List.mem_map.mp member
    exact Grid.length_row (List.mem_range.mp inside)
  have stacked := Shaped.stack_rows filled widths
  rw [Grid.flatten_rows] at stacked
  rw [ofGrid, shaped, shapedItems_ofNumbers]
  simpa [Grid.rows, Shaped.ofGrid] using stacked

end Value

namespace Field

variable {K : Type} [Scalar K]

theorem ofRecord_record (f : Field K) : ofRecord f.record = .ok f := by
  have samples := Value.shaped_ofGrid f.rows_pos
  have filled : f.samples.isEmpty = false := by
    have := f.rows_pos
    have := f.columns_pos
    simp only [Grid.isEmpty, Bool.or_eq_false_iff, beq_eq_false_iff_ne]
    omega
  have direction : Direction.ofValue (.text f.direction.name : Value K) = .ok f.direction := by
    rw [Direction.ofValue, Direction.ofName?_name]
  have stride : checkStride (.int f.stride : Value K) = .ok ⟨f.stride, f.stride_pos⟩ := by
    have := f.stride_pos
    have enough : ¬ (f.stride : Int) < 1 := by omega
    simp [checkStride, Value.lessThan, Value.toInt, enough, bind, Except.bind, pure, Except.pure,
      f.stride_pos]
  have kind : f.record.field "kind" = .ok (.text f.direction.name) := rfl
  have sampled : f.record.field "sampled" = .ok (.ofGrid f.samples) := rfl
  have sampling : f.record.field "sampling" = .ok (.int f.stride) := rfl
  simp only [ofRecord, kind, sampled, sampling, bind, Except.bind, direction, samples, make,
    Shaped.grid?_ofGrid, filled, stride]
  simp [ofGrid, f.rows_pos, f.columns_pos]

end Field

namespace Track

variable {K : Type}

def unjudged (t : Track K) : Track K :=
  match t.field? with
  | some f => .held .pending f
  | none => .notAttempted

theorem unjudged_field? (t : Track K) : t.unjudged.field? = t.field? := by
  cases t <;> rfl

theorem field?_judge (t : Track K) (ok : Bool) : (t.judge ok).field? = t.field? := by
  cases t <;> rfl

end Track

namespace PageModel

variable {K : Type}

def WellFormed (m : PageModel K) : Prop :=
  ∀ d f, (m.track d).field? = some f → f.direction = d ∧ (f.stride : Int) = m.stride

/-- A model has a stride, or it has no size: anything else cannot be made. -/
def Sized (m : PageModel K) : Prop := m.stride = 0 → m.width = 0 ∧ m.height = 0

def copied (m : PageModel K) : PageModel K := { m with tag := none, attached := false }

theorem storedTrack_unjudged (page : Nat) (t : Track K) :
    storedTrack page t.status t.unjudged = .ok t := by
  rw [storedTrack, Track.unjudged_field?, Track.ofStored?_status]

theorem storedTrack_field? {page : Nat} {status : Status} {t stored : Track K}
    (h : storedTrack page status t = .ok stored) : stored.field? = t.field? := by
  rw [storedTrack] at h
  cases status <;> cases found : t.field? <;> simp [Track.ofStored?, found] at h <;> subst h <;> rfl

theorem fieldEntries_eq (m : PageModel K) :
    m.fieldEntries = (m.vertical.field?.map fun f => (f.direction.name, f.record)).toList ++
      ((m.horizontal.field?.map fun f => (f.direction.name, f.record)).toList ++
        (m.slope.field?.map fun f => (f.direction.name, f.record)).toList) := by
  simp [fieldEntries, List.filterMap_eq_flatMap_toList]

section Stored

variable [Scalar K]

theorem attachFields_append {m next : PageModel K} {xs : List (String × Value K)}
    (h : m.attachFields xs = .ok next) (ys : List (String × Value K)) :
    m.attachFields (xs ++ ys) = next.attachFields ys := by
  induction xs generalizing m with
  | nil =>
      cases h
      rfl
  | cons x rest ih =>
      rw [attachFields] at h
      obtain ⟨f, read, h⟩ := exists_of_bind_eq_ok h
      obtain ⟨first, taken, h⟩ := exists_of_bind_eq_ok h
      rw [List.cons_append, attachFields, read]
      change ((m.setField f).result >>= fun next => next.attachFields (rest ++ ys)) = _
      rw [taken]
      exact ih h

theorem attachFields_track {m : PageModel K} (built : m.isRedirect = false) {d : Direction}
    {t : Track K} (absent : m.track d = .notAttempted)
    (h : ∀ f, t.field? = some f → f.direction = d ∧ (f.stride : Int) = m.stride) :
    m.attachFields (t.field?.map fun f => (f.direction.name, f.record)).toList =
      .ok (m.setTrack d t.unjudged) := by
  cases found : t.field? with
  | none =>
      have same : m.setTrack d .notAttempted = m := by
        cases d <;> simp_all [setTrack, track] <;> rw [← absent]
      rw [Track.unjudged, found, same]
      rfl
  | some f =>
      obtain ⟨direction, stride⟩ := h f found
      have taken : m.setField f = .done (m.setTrack d (.held .pending f)) := by
        simp [setField, built, stride, direction]
      rw [Track.unjudged, found, Option.map_some, Option.toList_some, attachFields,
        Field.ofRecord_record]
      change ((m.setField f).result >>= fun next => next.attachFields []) = _
      rw [taken]
      rfl

theorem attachFields_fieldEntries {m : PageModel K} (h : m.WellFormed) {page : Nat}
    {width height reduction : Int} :
    (blank page width height m.stride reduction).attachFields m.fieldEntries =
      .ok { (blank page width height m.stride reduction : PageModel K) with
        vertical := m.vertical.unjudged
        horizontal := m.horizontal.unjudged
        slope := m.slope.unjudged } := by
  have vertical := attachFields_track (m := blank page width height m.stride reduction) rfl rfl
    (h .vertical)
  have horizontal := attachFields_track (m := { (blank page width height m.stride reduction :
    PageModel K) with vertical := m.vertical.unjudged }) rfl rfl (h .horizontal)
  have slope := attachFields_track (m := { (blank page width height m.stride reduction :
    PageModel K) with vertical := m.vertical.unjudged, horizontal := m.horizontal.unjudged })
    rfl rfl (h .slope)
  rw [fieldEntries_eq]
  exact (attachFields_append vertical _).trans ((attachFields_append horizontal _).trans slope)

theorem make_ints {width height stride : Int} (h : stride = 0 → width = 0 ∧ height = 0)
    (page : Nat) (reduction : Int) :
    make (.int page) (.int width) (.int height) (.int stride) (.int reduction) =
      .ok (blank page width height stride reduction : PageModel K) := by
  have page' : ¬ (page : Int) < 0 := by omega
  have sized : ¬ (stride = 0 ∧ (width ≠ 0 ∨ height ≠ 0)) := by omega
  simp [make, Value.lessThan, Value.toInt, page', sized, bind, Except.bind, pure, Except.pure]

theorem storedNumbers_ofNumbers (xs : List K) : storedNumbers (.ofNumbers xs) = .ok xs := by
  rw [storedNumbers, Value.shaped_ofNumbers]
  rfl

theorem storedStatistics_record (m : PageModel K) :
    storedStatistics m.record = .ok m.statistics := rfl

theorem ofValue_name (s : Status) : Status.ofValue (.text s.name : Value K) = .ok s := by
  rw [Status.ofValue, Status.ofName?_name]

theorem ofRecord_record {m : PageModel K} (built : m.isRedirect = false) (formed : m.WellFormed)
    (lawful : m.Lawful) (sized : m.Sized) : ofRecord m.record = .ok m.copied := by
  have redirect : m.redirect = none := by
    rw [isRedirect] at built
    exact Option.isSome_eq_false_iff.mp built |> Option.isNone_iff_eq_none.mp
  have refpage : m.record.field "refpage" = .ok (.int (-1)) := by
    have stored : m.record.field "refpage" =
        .ok (.int (m.redirect.elim (-1) fun target => (target : Int))) := rfl
    rw [stored, redirect]
    rfl
  have together : (m.horizontal.accepted && !m.vertical.accepted) = false := by
    rw [lawful_iff] at lawful
    cases accepted : m.horizontal.accepted with
    | false => rfl
    | true => simp [lawful accepted]
  have pageno : m.record.field "pageno" = .ok (.int m.page) := rfl
  have w : m.record.field "w" = .ok (.int m.width) := rfl
  have h : m.record.field "h" = .ok (.int m.height) := rfl
  have sampling : m.record.field "sampling" = .ok (.int m.stride) := rfl
  have redfactor : m.record.field "redfactor" = .ok (.int m.reduction) := rfl
  have vstatus : m.record.field "vstatus" = .ok (.text m.vertical.status.name) := rfl
  have hstatus : m.record.field "hstatus" = .ok (.text m.horizontal.status.name) := rfl
  have ystatus : m.record.field "ystatus" = .ok (.text m.slope.status.name) := rfl
  have fields : m.record.field "fields" = .ok (.table m.fieldEntries) := rfl
  have midys : m.record.field "midys" = .ok (.ofNumbers m.middles) := rfl
  have curvatures : m.record.field "curvatures" = .ok (.ofNumbers m.curvatures) := rfl
  have start := make_ints (K := K) sized m.page m.reduction
  simp only [ofRecord, refpage, ofBuiltRecord, pageno, w, h, sampling, redfactor, vstatus, hstatus,
    ystatus, fields, midys, curvatures, bind, Except.bind, Value.atLeast, start,
    attachFields_fieldEntries formed, ofValue_name, storedTrack_unjudged, together,
    storedNumbers_ofNumbers, storedStatistics_record]
  simp [copied, blank, redirect, pure, Except.pure]

end Stored

/-! Fields stand where they belong. -/

theorem WellFormed.congr {m other : PageModel K} (h : m.WellFormed)
    (stride : other.stride = m.stride)
    (fields : ∀ d, (other.track d).field? = (m.track d).field?) : other.WellFormed := by
  intro d f held
  rw [fields] at held
  rw [stride]
  exact h d f held

theorem WellFormed.judged {m : PageModel K} (h : m.WellFormed) (t : Thresholds)
    (untested : Bool) : (m.judged t untested).WellFormed := by
  have sheet := judged_sameSheet m t untested
  refine h.congr (judged_stride m t untested) fun d => ?_
  cases d with
  | vertical => exact sheet.vertical
  | horizontal => exact sheet.horizontal
  | slope => exact congrArg (fun other => other.slope.field?) sheet.rest

theorem blank_wellFormed (page : Nat) (width height stride reduction : Int) :
    (blank page width height stride reduction : PageModel K).WellFormed := by
  intro d f held
  cases d <;> cases held

theorem WellFormed.edited {m : PageModel K} (h : m.WellFormed) (e : Edit K) :
    (e.run m).state.WellFormed := by
  have stride : (e.run m).state.stride = m.stride := congrArg (·.stride) (run_frame m e)
  intro d f held
  rw [stride]
  rcases run_track m e d with same | ⟨_, ok, same⟩ | same | ⟨g, taken, direction, same⟩
  · rw [same] at held
    exact h d f held
  · rw [same, Track.field?_judge] at held
    exact h d f held
  · rw [same] at held
    cases held
  · rw [same] at held
    cases held
    exact ⟨direction, taken.2⟩

theorem WellFormed.afterEdits {m : PageModel K} (h : m.WellFormed) (edits : List (Edit K)) :
    (m.afterEdits edits).WellFormed := by
  induction edits generalizing m with
  | nil => exact h
  | cons e rest ih => exact ih (h.edited e)

section Sources

variable [Scalar K]

theorem makeReference_wellFormed {page target stride reduction : Value K} {m : PageModel K}
    (h : makeReference page target stride reduction = .ok m) : m.WellFormed := by
  obtain ⟨p, _, s, r, rfl⟩ := makeReference_eq_reference h
  exact (blank_wellFormed p 0 0 s r).congr rfl fun d => rfl

theorem attachFields_eq_afterEdits {m base : PageModel K} {stored : List (String × Value K)}
    (h : m.attachFields stored = .ok base) : ∃ edits, base = m.afterEdits edits := by
  induction stored generalizing m with
  | nil =>
      cases h
      exact ⟨[], rfl⟩
  | cons entry rest ih =>
      rw [attachFields] at h
      obtain ⟨f, _, h⟩ := exists_of_bind_eq_ok h
      obtain ⟨next, taken, h⟩ := exists_of_bind_eq_ok h
      obtain ⟨edits, rfl⟩ := ih h
      have first : (Edit.run m (.setField f)).state = next := by
        rw [Edit.run, Outcome.result_eq_ok_iff.mp taken, Outcome.done_state]
      refine ⟨.setField f :: edits, ?_⟩
      rw [← first]
      rfl

theorem ofBuiltRecord_wellFormed {v : Value K} {m : PageModel K} (h : ofBuiltRecord v = .ok m) :
    m.WellFormed := by
  obtain ⟨_, _, _, _, _, start, stored, base, made, attached, vertical, horizontal, slope, _, _,
    same⟩ := ofBuiltRecord_eq h
  obtain ⟨p, w, ht, s, r, rfl⟩ := make_eq_blank made
  obtain ⟨edits, rfl⟩ := attachFields_eq_afterEdits attached
  have formed := (blank_wellFormed p w ht s r).afterEdits edits
  rw [same]
  refine formed.congr rfl fun d => ?_
  cases d with
  | vertical => exact storedTrack_field? vertical
  | horizontal => exact storedTrack_field? horizontal
  | slope => exact storedTrack_field? slope

theorem Fresh.wellFormed {m : PageModel K} (h : Fresh m) : m.WellFormed := by
  cases h with
  | made h =>
      obtain ⟨p, w, ht, s, r, rfl⟩ := make_eq_blank h
      exact blank_wellFormed p w ht s r
  | pointing h => exact makeReference_wellFormed h
  | loaded h =>
      rcases ofRecord_eq h with built | ⟨_, _, _, _, _, _, pointing⟩
      · exact ofBuiltRecord_wellFormed built
      · exact makeReference_wellFormed pointing

/-- The models that there can be: a fresh one after any edits, with any measurements, and in
whatever hands. -/
inductive Made : PageModel K → Prop
  | fresh {m : PageModel K} (h : Fresh m) : Made m
  | edited {m : PageModel K} (before : Made m) (e : Edit K) : Made (e.run m).state
  | measured {m : PageModel K} (before : Made m) (middles curvatures : List K)
      (statistics : LineStatistics) : Made { m with middles, curvatures, statistics }
  | handed {m : PageModel K} (before : Made m) (tag : Option Nat) (attached : Bool) :
      Made { m with tag, attached }

theorem Made.wellFormed {m : PageModel K} (h : Made m) : m.WellFormed := by
  induction h with
  | fresh h => exact h.wellFormed
  | edited _ e ih => exact ih.edited e
  | measured _ _ _ _ ih => exact ih.congr rfl fun _ => rfl
  | handed _ _ _ ih => exact ih.congr rfl fun _ => rfl

end Sources

end PageModel

end PageFlattening
