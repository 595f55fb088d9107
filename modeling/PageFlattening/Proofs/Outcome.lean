import Mathlib.Data.List.Forall2
import Mathlib.Data.List.Induction
import Mathlib.Tactic.Common
import PageFlattening.Fault

/-! Taking runs apart: a chain that succeeds has succeeded in every link, and what each step of a
repetition keeps the whole of it keeps, stopped or not. What some steps spoil and others settle
holds in the end exactly if nothing stays spoiled. -/
namespace PageFlattening

theorem exists_of_bind_eq_ok {ε α β : Type} {x : Except ε α} {f : α → Except ε β} {b : β}
    (h : (x >>= f) = .ok b) : ∃ a, x = .ok a ∧ f a = .ok b := by
  cases x with
  | error fault => cases h
  | ok a => exact ⟨a, rfl, h⟩

theorem exists_of_map_eq_ok {ε α β : Type} {x : Except ε α} {f : α → β} {b : β}
    (h : x.map f = .ok b) : ∃ a, x = .ok a ∧ f a = b := by
  cases x with
  | error fault => cases h
  | ok a => exact ⟨a, rfl, Except.ok.inj h⟩

theorem map_injective {ε α β : Type} {f : α → β} (h : Function.Injective f) :
    Function.Injective (Except.map (ε := ε) f) := by
  intro x y same
  cases x with
  | error fault => cases y <;> cases same; rfl
  | ok a =>
      cases y with
      | error fault => cases same
      | ok b => exact congrArg Except.ok (h (Except.ok.inj same))

theorem eq_error_of_bind {ε α β : Type} {x : Except ε α} {f : α → Except ε β} {fault : ε}
    (h : (x >>= f) = .error fault) : x = .error fault ∨ ∃ a, x = .ok a ∧ f a = .error fault := by
  cases x with
  | error _ => exact .inl (congrArg Except.error (Except.error.inj h))
  | ok a => exact .inr ⟨a, rfl, h⟩

theorem toOption_eq_some_iff {ε α : Type} {x : Except ε α} {a : α} :
    x.toOption = some a ↔ x = .ok a := by
  cases x <;> simp [Except.toOption]

theorem mapM_eq_ok_iff {ε α β : Type} {f : α → Except ε β} {xs : List α} {ys : List β} :
    xs.mapM f = .ok ys ↔ List.Forall₂ (fun x y => f x = .ok y) xs ys := by
  induction xs generalizing ys with
  | nil =>
      rw [List.mapM_nil, List.forall₂_nil_left_iff]
      constructor
      · rintro ⟨⟩
        rfl
      · rintro rfl
        rfl
  | cons x rest ih =>
      rw [List.mapM_cons, List.forall₂_cons_left_iff]
      constructor
      · intro done
        obtain ⟨y, first, done⟩ := exists_of_bind_eq_ok done
        obtain ⟨zs, others, same⟩ := exists_of_bind_eq_ok done
        cases same
        exact ⟨y, zs, first, ih.mp others, rfl⟩
      · rintro ⟨y, zs, first, others, rfl⟩
        rw [first, ih.mpr others]
        rfl

theorem mapM_congr {ε α β : Type} {f g : α → Except ε β} {xs : List α}
    (h : ∀ x ∈ xs, f x = g x) : xs.mapM f = xs.mapM g := by
  induction xs with
  | nil => rfl
  | cons x rest ih =>
      rw [List.mapM_cons, List.mapM_cons, h x (by simp), ih fun y member => h y (by simp [member])]

theorem exists_of_mapM_eq_ok {ε α β : Type} {f : α → Except ε β} {xs : List α} {ys : List β}
    (h : xs.mapM f = .ok ys) {x : α} (member : x ∈ xs) : ∃ y, f x = .ok y := by
  have each := (mapM_eq_ok_iff.mp h).imp (S := fun x y => (∃ z, f x = .ok z) ∧ f x = .ok y)
    fun x y done => ⟨⟨y, done⟩, done⟩
  exact ((List.forall₂_and_left xs ys).mp each).1 x member

theorem exists_mapM_eq_ok {ε α β : Type} {f : α → Except ε β} {xs : List α}
    (h : ∀ x ∈ xs, ∃ y, f x = .ok y) : ∃ ys, xs.mapM f = .ok ys := by
  induction xs with
  | nil => exact ⟨[], rfl⟩
  | cons x rest ih =>
      obtain ⟨y, first⟩ := h x (by simp)
      obtain ⟨ys, others⟩ := ih fun z member => h z (by simp [member])
      refine ⟨y :: ys, ?_⟩
      rw [List.mapM_cons, first, others]
      rfl

theorem snoc_eq_append_cons_iff {α : Type} {xs ys zs : List α} {x y : α} :
    xs ++ [x] = ys ++ y :: zs ↔
      (zs = [] ∧ y = x ∧ ys = xs) ∨ ∃ rest, zs = rest ++ [x] ∧ xs = ys ++ y :: rest := by
  constructor
  · intro cut
    rcases List.eq_nil_or_concat zs with rfl | ⟨rest, last, rfl⟩
    · obtain ⟨same, entry⟩ := List.append_inj' cut rfl
      exact Or.inl ⟨rfl, by simpa using entry.symm, same.symm⟩
    · rw [List.concat_eq_append, ← List.cons_append, ← List.append_assoc] at cut
      obtain ⟨same, entry⟩ := List.append_inj' cut rfl
      have equal : x = last := by simpa using entry
      subst equal
      exact Or.inr ⟨rest, by simp, same⟩
  · rintro (⟨rfl, rfl, rfl⟩ | ⟨rest, rfl, rfl⟩) <;> simp

/-- Where a step keeps or brings about `P` exactly if it does not spoil it, and `P` held already or
the step settles it: after any number of steps `P` holds exactly if every step that spoils it is
followed by one that settles it. -/
theorem foldl_iff_settled {σ α : Type} {step : σ → α → σ} {I P : σ → Prop}
    {Spoils Settles : σ → α → Prop} {xs : List α} {s : σ} (inv : I s) (start : P s)
    (keeps : ∀ t, ∀ a ∈ xs, I t → I (step t a))
    (law : ∀ t, ∀ a ∈ xs, I t → (P (step t a) ↔ ¬ Spoils t a ∧ (P t ∨ Settles t a))) :
    P (xs.foldl step s) ↔
      ∀ before a rest, xs = before ++ a :: rest → Spoils (before.foldl step s) a →
        ∃ mid b tail, rest = mid ++ b :: tail ∧ Settles ((before ++ a :: mid).foldl step s) b := by
  have both : I (xs.foldl step s) ∧ (P (xs.foldl step s) ↔
      ∀ before a rest, xs = before ++ a :: rest → Spoils (before.foldl step s) a →
        ∃ mid b tail, rest = mid ++ b :: tail ∧
          Settles ((before ++ a :: mid).foldl step s) b) := by
    induction xs using List.reverseRecOn with
    | nil => exact ⟨inv, by simpa using start⟩
    | append_singleton xs x ih =>
        obtain ⟨inv', ih⟩ := ih (fun t a member => keeps t a (by simp [member]))
          (fun t a member => law t a (by simp [member]))
        rw [List.foldl_append, List.foldl_cons, List.foldl_nil]
        refine ⟨keeps _ x (by simp) inv', ?_⟩
        rw [law _ x (by simp) inv', ih]
        constructor
        · rintro ⟨kept, earlier⟩ before a rest cut spoiled
          rcases snoc_eq_append_cons_iff.mp cut with ⟨rfl, rfl, rfl⟩ | ⟨mid, rfl, rfl⟩
          · exact absurd spoiled kept
          rcases earlier with earlier | settled
          · obtain ⟨mid', b, tail, rfl, settled⟩ := earlier before a mid rfl spoiled
            exact ⟨mid', b, tail ++ [x], by simp, settled⟩
          · exact ⟨mid, x, [], rfl, settled⟩
        · intro later
          constructor
          · intro spoiled
            obtain ⟨mid, b, tail, cut, _⟩ := later xs x [] rfl spoiled
            simp at cut
          by_cases settled : Settles (xs.foldl step s) x
          · exact Or.inr settled
          refine Or.inl fun before a rest cut spoiled => ?_
          obtain ⟨mid, b, tail, cut', now⟩ :=
            later before a (rest ++ [x]) (by simp [cut]) spoiled
          rcases snoc_eq_append_cons_iff.mp cut' with ⟨rfl, rfl, rfl⟩ | ⟨tail', rfl, rfl⟩
          · exact absurd (cut ▸ now) settled
          · exact ⟨mid, b, tail', rfl, now⟩
  exact both.2

namespace Outcome

variable {σ α : Type}

@[simp] theorem done_state (s : σ) : (done s).state = s := rfl

@[simp] theorem done_fault (s : σ) : (done s).fault = none := rfl

@[simp] theorem stopped_state (s : σ) (f : Fault) : (stopped s f).state = s := rfl

@[simp] theorem stopped_fault (s : σ) (f : Fault) : (stopped s f).fault = some f := rfl

theorem eq_done_of_fault {o : Outcome σ} (h : o.fault = none) : o = done o.state := by
  cases o
  simp_all [done]

theorem result_map {τ : Type} (f : σ → τ) (o : Outcome σ) : (o.map f).result = f <$> o.result := by
  obtain ⟨state, fault⟩ := o
  cases fault <;> rfl

theorem result_eq_ok_iff {o : Outcome σ} {s : σ} : o.result = .ok s ↔ o = done s := by
  obtain ⟨state, fault⟩ := o
  cases fault <;> simp [result, done]

@[simp] theorem done_andThen (s : σ) (next : σ → Outcome σ) : (done s).andThen next = next s := rfl

@[simp] theorem stopped_andThen (s : σ) (f : Fault) (next : σ → Outcome σ) :
    (stopped s f).andThen next = stopped s f := rfl

theorem andThen_of_fault {o : Outcome σ} (h : o.fault ≠ none) (next : σ → Outcome σ) :
    o.andThen next = o := by
  rw [andThen]
  split
  · rename_i none
    exact absurd none h
  · rfl

theorem andThen_of_stopped {o : Outcome σ} {next : σ → Outcome σ}
    (h : (o.andThen next).fault ≠ none) :
    o.andThen next = o ∨ (o.andThen next = next o.state ∧ (next o.state).fault ≠ none) := by
  cases first : o.fault with
  | some fault => exact .inl (andThen_of_fault (by simp [first]) next)
  | none =>
      have second : o.andThen next = next o.state := by rw [andThen, first]
      exact .inr ⟨second, second ▸ h⟩

theorem each_invariant {P : σ → Prop} {step : σ → α → Outcome σ}
    (keeps : ∀ s a, P s → P (step s a).state) (entries : List α) {s : σ} (h : P s) :
    P (each step s entries).state := by
  induction entries generalizing s with
  | nil => exact h
  | cons a rest ih =>
      rw [each, andThen]
      split
      · exact ih (keeps s a h)
      · exact keeps s a h

theorem each_cons_of_done {step : σ → α → Outcome σ} {s next : σ} {a : α}
    (h : step s a = done next) (rest : List α) :
    each step s (a :: rest) = each step next rest := by
  rw [each, h, done_andThen]

theorem fault_of_each_cons {step : σ → α → Outcome σ} {s : σ} {a : α} {rest : List α}
    (h : (each step s (a :: rest)).fault = none) : (step s a).fault = none := by
  by_contra stopped
  rw [each, andThen_of_fault stopped] at h
  exact stopped h

theorem each_fault {P : σ → Prop} {step : σ → α → Outcome σ}
    (keeps : ∀ s a, P s → P (step s a).state) (runs : ∀ s a, P s → (step s a).fault = none)
    (entries : List α) {s : σ} (h : P s) : (each step s entries).fault = none := by
  induction entries generalizing s with
  | nil => rfl
  | cons a rest ih =>
      rw [each_cons_of_done (eq_done_of_fault (runs s a h))]
      exact ih (keeps s a h)

end Outcome

end PageFlattening
