import PageFlattening.Proofs.FieldPresence

/-!
The record of a page model, both ways. A built model comes back as it was but for the collection
that held it, and a redirect comes back as a redirect between the same pages. Whatever record is
accepted gives a model that its own record gives again: reading twice is reading once.
-/
namespace PageFlattening

namespace Value

variable {K : Type}

def whole? : Value K → Option Int
  | .bool b => some (if b then 1 else 0)
  | .int n => some n
  | _ => none

variable [Scalar K]

theorem toInt_of_whole {v : Value K} {n : Int} (h : v.whole? = some n) : v.toInt = .ok n := by
  cases v <;> cases h <;> rfl

theorem lessThan_of_whole {v : Value K} {n : Int} (h : v.whole? = some n) (bound : Int) :
    v.lessThan bound = .ok (decide (n < bound)) := by
  cases v <;> cases h <;> rfl

theorem sameNumber_of_whole {v w : Value K} {a b : Int} (left : v.whole? = some a)
    (right : w.whole? = some b) : v.sameNumber w = (a == b) := by
  cases v <;> cases left <;> cases w <;> cases right <;> rfl

end Value

namespace PageModel

variable {K : Type}

/-! What edits leave alone. -/

theorem SameFrame.sized {m other : PageModel K} (frame : m.SameFrame other) (h : m.Sized) :
    other.Sized := by
  have stride : other.stride = m.stride := congrArg (·.stride) frame
  have width : other.width = m.width := congrArg (·.width) frame
  have height : other.height = m.height := congrArg (·.height) frame
  rw [Sized, stride, width, height]
  exact h

theorem elsewhere_afterEdits {m : PageModel K} (h : ∀ t, m.redirect = some t → t ≠ m.page)
    (edits : List (Edit K)) :
    ∀ t, (m.afterEdits edits).redirect = some t → t ≠ (m.afterEdits edits).page := by
  have frame := afterEdits_frame m edits
  have redirect : (m.afterEdits edits).redirect = m.redirect := congrArg (·.redirect) frame
  have page : (m.afterEdits edits).page = m.page := congrArg (·.page) frame
  rw [redirect, page]
  exact h

/-! Redirects. -/

variable [Scalar K]

def Origin.Numbered : Origin K → Prop
  | .sheet page _ _ _ _ => page.whole?.isSome
  | .pointer page target _ _ => page.whole?.isSome ∧ target.whole?.isSome
  | .record v => ∃ page target, v.field "pageno" = .ok page ∧ v.field "refpage" = .ok target ∧
      page.whole?.isSome ∧ target.whole?.isSome

theorem makeReference_elsewhere {page target stride reduction : Value K} {m : PageModel K}
    (isPage : page.whole?.isSome) (isTarget : target.whole?.isSome)
    (h : makeReference page target stride reduction = .ok m) :
    ∃ p t s r, t ≠ p ∧ m = reference p t s r := by
  obtain ⟨p, pageIs⟩ := Option.isSome_iff_exists.mp isPage
  obtain ⟨t, targetIs⟩ := Option.isSome_iff_exists.mp isTarget
  obtain ⟨p', t', s, r, page0, target0, apart, isPage', isTarget', rfl⟩ := makeReference_eq h
  cases (Value.toInt_of_whole pageIs).symm.trans isPage'
  cases (Value.toInt_of_whole targetIs).symm.trans isTarget'
  rw [Value.lessThan_of_whole pageIs] at page0
  rw [Value.lessThan_of_whole targetIs] at target0
  rw [Value.sameNumber_of_whole targetIs pageIs, beq_eq_false_iff_ne] at apart
  simp only [Except.ok.injEq, decide_eq_false_iff_not] at page0 target0
  exact ⟨p.toNat, t.toNat, s, r, by omega, rfl⟩

theorem makeReference_ints {page target : Nat} (h : target ≠ page) (stride reduction : Int) :
    makeReference (.int page) (.int target) (.int stride) (.int reduction) =
      .ok (reference page target stride reduction : PageModel K) := by
  have reached : ¬ (target : Int) < 0 := by omega
  have apart : ¬ (target : Int) = page := by omega
  have start : make (.int page) (.int 0) (.int 0) (.int stride) (.int reduction) =
      .ok (blank page 0 0 stride reduction : PageModel K) :=
    make_ints (fun _ => ⟨rfl, rfl⟩) page reduction
  simp [makeReference, Value.lessThan, Value.sameNumber, Value.equalsInt, Value.toInt, reached,
    apart, start, bind, Except.bind, pure, Except.pure, reference]

theorem ofRecord_record_redirect {m : PageModel K} {t : Nat} (pointing : m.redirect = some t)
    (elsewhere : t ≠ m.page) :
    ofRecord m.record = .ok (reference m.page t m.stride m.reduction) := by
  have refpage : m.record.field "refpage" = .ok (.int t) := by
    have stored : m.record.field "refpage" =
        .ok (.int (m.redirect.elim (-1) fun target => (target : Int))) := rfl
    rw [stored, pointing]
    rfl
  have pageno : m.record.field "pageno" = .ok (.int m.page) := rfl
  have sampling : m.record.field "sampling" = .ok (.int m.stride) := rfl
  have redfactor : m.record.field "redfactor" = .ok (.int m.reduction) := rfl
  simp [ofRecord, refpage, pageno, sampling, redfactor, Value.atLeast, bind, Except.bind,
    makeReference_ints elsewhere]

/-! Models that can be made. -/

theorem Fresh.sized {m : PageModel K} (h : Fresh m) : m.Sized := by
  have still : ∀ p t s r, (reference p t s r : PageModel K).Sized := fun _ _ _ _ _ => ⟨rfl, rfl⟩
  cases h with
  | made h =>
      obtain ⟨_, _, _, _, _, _, _, _, _, sized, rfl⟩ := make_eq h
      exact sized
  | pointing h =>
      obtain ⟨p, t, s, r, rfl⟩ := makeReference_eq_reference h
      exact still p t s r
  | loaded h =>
      rcases ofRecord_eq h with built | ⟨_, _, _, _, _, _, pointing⟩
      · obtain ⟨_, _, _, _, _, sized, same⟩ := ofBuiltRecord_frame built
        rw [same]
        exact sized
      · obtain ⟨p, t, s, r, rfl⟩ := makeReference_eq_reference pointing
        exact still p t s r

theorem Made.sized {m : PageModel K} (h : Made m) : m.Sized := by
  induction h with
  | fresh h => exact h.sized
  | edited _ e ih => exact (run_frame _ e).sized ih
  | measured _ _ _ _ ih => exact ih
  | handed _ _ _ ih => exact ih

theorem Origin.elsewhere {o : Origin K} {m : PageModel K} (numbered : o.Numbered)
    (made : o.model = .ok m) : ∀ t, m.redirect = some t → t ≠ m.page := by
  have apart : ∀ page target stride reduction, page.whole?.isSome → target.whole?.isSome →
      makeReference page target stride reduction = .ok m →
      ∀ t, m.redirect = some t → t ≠ m.page := by
    intro page target stride reduction isPage isTarget pointing t found
    obtain ⟨p, t', s, r, apart, rfl⟩ := makeReference_elsewhere isPage isTarget pointing
    cases found
    exact apart
  intro t found
  cases o with
  | sheet page width height stride reduction =>
      obtain ⟨_, _, _, _, _, rfl⟩ := make_eq_blank made
      cases found
  | pointer page target stride reduction =>
      exact apart page target stride reduction numbered.1 numbered.2 made t found
  | record v =>
      rcases ofRecord_eq made with built | ⟨page, target, stride, reduction, isPage, isTarget, made⟩
      · have no := ofBuiltRecord_isRedirect built
        rw [isRedirect, found] at no
        cases no
      · obtain ⟨page', target', isPage', isTarget', wholePage, wholeTarget⟩ := numbered
        cases isPage.symm.trans isPage'
        cases isTarget.symm.trans isTarget'
        exact apart page target stride reduction wholePage wholeTarget made t found

theorem ofRecord_record_of_ofRecord {v : Value K} {m : PageModel K}
    (numbered : (Origin.record v).Numbered) (h : ofRecord v = .ok m) :
    ofRecord m.record = .ok m := by
  rcases ofRecord_eq h with built | ⟨page, target, stride, reduction, isPage, isTarget, made⟩
  · have again := ofRecord_record (ofBuiltRecord_isRedirect built) (ofBuiltRecord_wellFormed built)
      (ofBuiltRecord_lawful built) (Fresh.loaded h).sized
    -- A model that has just been read is held by nobody.
    obtain ⟨_, _, _, _, _, _, same⟩ := ofBuiltRecord_frame built
    have unheld : m.copied = m := by
      rw [same]
      rfl
    rw [again, unheld]
  · have elsewhere := Origin.elsewhere numbered h
    obtain ⟨p, t, s, r, rfl⟩ := makeReference_eq_reference made
    exact ofRecord_record_redirect rfl (elsewhere t rfl)

/-- Models and their records: what is written is read back, and what is read is a sound model that
its own record gives again. -/
theorem page_records_round_trip :
    (∀ m : PageModel K, m.redirect = none → m.WellFormed → m.Sized → m.Lawful →
      ofRecord m.record = .ok m.copied) ∧
    (∀ (m : PageModel K) (t : Nat), m.redirect = some t → t ≠ m.page →
      ofRecord m.record = .ok (reference m.page t m.stride m.reduction)) ∧
    (∀ m : PageModel K, Made m → m.WellFormed ∧ m.Sized) ∧
    (∀ (o : Origin K) (m : PageModel K), o.Numbered → o.model = .ok m →
      ∀ edits t, (m.afterEdits edits).redirect = some t → t ≠ (m.afterEdits edits).page) ∧
    (∀ (v : Value K) (m : PageModel K), (Origin.record v).Numbered → ofRecord v = .ok m →
      Matched (.record v) m ∧ m.Lawful ∧ ofRecord m.record = .ok m) := by
  refine ⟨?_, ?_, ?_, ?_, ?_⟩
  · intro m built formed sized lawful
    exact ofRecord_record (by rw [isRedirect, built]; rfl) formed lawful sized
  · intro m t pointing elsewhere
    exact ofRecord_record_redirect pointing elsewhere
  · intro m made
    exact ⟨made.wellFormed, made.sized⟩
  · intro o m numbered made edits
    exact elsewhere_afterEdits (Origin.elsewhere numbered made) edits
  · intro v m numbered read
    exact ⟨Origin.matched (o := .record v) read, (Fresh.loaded read).lawful,
      ofRecord_record_of_ofRecord numbered read⟩

def measuredSheet : PageModel Rat :=
  { bareSheet.afterEdits (checkedBoth ++ [.markFailed [.slope]]) with
    middles := [1/2, 3], curvatures := [-4], statistics := ⟨2, -4, 7, 1, -1, 3, 0⟩ }

theorem measuredSheet_made : Made measuredSheet :=
  have built : Made (bareSheet.afterEdits (checkedBoth ++ [.markFailed [.slope]])) :=
    .edited (.edited (.edited (.edited (.fresh bareSheet_fresh) _) _) _) _
  .measured built [1/2, 3] [-4] ⟨2, -4, 7, 1, -1, 3, 0⟩

theorem measuredSheet_round_trip :
    ofRecord measuredSheet.record = .ok measuredSheet ∧
    ofRecord ((reference 3 1 30 2 : PageModel Rat).markFailed []).record =
      .ok (reference 3 1 30 2) ∧
    Matched (.record measuredSheet.record) measuredSheet := by
  obtain ⟨built, pointing, made, elsewhere, read⟩ := page_records_round_trip (K := Rat)
  have again : ofRecord measuredSheet.record = .ok measuredSheet :=
    built measuredSheet rfl (made measuredSheet measuredSheet_made).1
      (made measuredSheet measuredSheet_made).2 (by decide)
  have failed := elsewhere (.pointer (.int 3) (.int 1) (.int 30) (.int 2)) (reference 3 1 30 2)
    ⟨rfl, rfl⟩ rfl [.markFailed []] 1 rfl
  exact ⟨again, pointing _ 1 rfl failed,
    (read measuredSheet.record measuredSheet ⟨.int 0, .int (-1), rfl, rfl, rfl, rfl⟩ again).1⟩

end PageModel

end PageFlattening
