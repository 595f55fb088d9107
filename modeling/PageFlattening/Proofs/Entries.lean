import Mathlib.Data.List.Nodup
import Mathlib.Data.List.Perm.Basic
import Mathlib.Tactic.Common
import PageFlattening.Value.Basic

/-!
Named values by what is found under each name. Values stored one after the other are found as in a
list that is read from its end: under a name stands the last value that was given for it, or the one
from before. Where no name is given twice the order of a list makes no difference.
-/
namespace PageFlattening

namespace Value

variable {K : Type}

@[simp] theorem entry?_nil (name : String) :
    entry? ([] : List (String × Value K)) name = none := rfl

theorem entry?_cons (e : String × Value K) (entries : List (String × Value K)) (name : String) :
    entry? (e :: entries) name = if e.1 = name then some e.2 else entry? entries name := by
  by_cases here : e.1 = name <;> simp [Value.entry?, here]

theorem entry?_append (entries others : List (String × Value K)) (name : String) :
    entry? (entries ++ others) name =
      (Value.entry? entries name).or (Value.entry? others name) := by
  induction entries with
  | nil => rfl
  | cons e rest ih =>
      rw [List.cons_append, entry?_cons, entry?_cons, ih]
      split <;> rfl

theorem entry?_eq_none_iff {entries : List (String × Value K)} {name : String} :
    entry? entries name = none ↔ ∀ e ∈ entries, e.1 ≠ name := by
  simp [Value.entry?]

theorem mem_of_found {entries : List (String × Value K)} {name : String} {v : Value K}
    (h : entry? entries name = some v) : (name, v) ∈ entries := by
  induction entries with
  | nil => cases h
  | cons e rest ih =>
      rw [Value.entry?_cons] at h
      split at h
      · rename_i here
        cases h
        exact here ▸ List.mem_cons_self
      · exact List.mem_cons_of_mem e (ih h)

theorem any_name_iff {entries : List (String × Value K)} {p : String → Bool} :
    entries.any (fun e => p e.1) = true ↔
      ∃ name, p name = true ∧ (Value.entry? entries name).isSome := by
  rw [List.any_eq_true]
  constructor
  · rintro ⟨e, member, named⟩
    refine ⟨e.1, named, Option.isSome_iff_ne_none.mpr fun absent => ?_⟩
    exact entry?_eq_none_iff.mp absent e member rfl
  · rintro ⟨name, named, found⟩
    obtain ⟨v, found⟩ := Option.isSome_iff_exists.mp found
    exact ⟨(name, v), mem_of_found found, named⟩

theorem forall_name_congr {entries others : List (String × Value K)}
    (same : ∀ name, entry? entries name = entry? others name) {p : String → Prop} :
    (∀ e ∈ entries, p e.1) ↔ ∀ e ∈ others, p e.1 := by
  have found : ∀ list : List (String × Value K),
      (∀ e ∈ list, p e.1) ↔ ∀ name, entry? list name ≠ none → p name := by
    intro list
    constructor
    · intro all name present
      obtain ⟨v, held⟩ := Option.ne_none_iff_exists'.mp present
      exact all _ (mem_of_found held)
    · intro all e member
      exact all e.1 fun absent => entry?_eq_none_iff.mp absent e member rfl
  rw [found, found]
  simp only [same]

/-! Storing. -/

theorem entry?_replaced (entries : List (String × Value K)) (name other : String) (v : Value K) :
    entry? (entries.map fun e => if e.1 == name then (name, v) else e) other =
      (Value.entry? entries other).map fun old => if other = name then v else old := by
  induction entries with
  | nil => rfl
  | cons e rest ih =>
      rw [List.map_cons, entry?_cons, entry?_cons, ih]
      by_cases same : e.1 = name
      · by_cases here : name = other <;> simp [same, here, eq_comm]
      · by_cases here : e.1 = other
        · have away : other ≠ name := fun h => same (here.trans h)
          simp [here, away]
        · simp [same, here]

theorem entry?_setEntry (entries : List (String × Value K)) (name other : String) (v : Value K) :
    entry? (setEntry entries name v) other =
      if other = name then some v else entry? entries other := by
  rw [setEntry]
  split
  · rename_i present
    rw [Value.entry?_replaced]
    by_cases same : other = name
    · subst same
      obtain ⟨found, named, isSome⟩ := any_name_iff (p := (· == other)).mp present
      rw [beq_iff_eq] at named
      obtain ⟨old, held⟩ := Option.isSome_iff_exists.mp (named ▸ isSome)
      simp [held]
    · simp [same]
  · rename_i absent
    rw [Value.entry?_append, entry?_cons, entry?_nil]
    by_cases same : other = name
    · have missing : entry? entries name = none := by
        rw [Value.entry?_eq_none_iff]
        intro e member named
        exact absent (List.any_eq_true.mpr ⟨e, member, beq_iff_eq.mpr named⟩)
      simp [same, missing]
    · simp [same, Ne.symm same]

theorem entry?_foldl_setEntry (entries base : List (String × Value K)) (name : String) :
    entry? (entries.foldl (fun acc e => setEntry acc e.1 e.2) base) name =
      entry? (entries.reverse ++ base) name := by
  induction entries generalizing base with
  | nil => rfl
  | cons e rest ih =>
      rw [List.foldl_cons, ih, List.reverse_cons, entry?_append, entry?_setEntry, List.append_assoc,
        entry?_append, List.singleton_append, entry?_cons]
      simp only [eq_comm]

theorem nodup_setEntry {entries : List (String × Value K)} (distinct : (entries.map (·.1)).Nodup)
    (name : String) (v : Value K) : ((setEntry entries name v).map (·.1)).Nodup := by
  rw [setEntry]
  split
  · have names : (entries.map fun e => if e.1 == name then (name, v) else e).map (·.1) =
        entries.map (·.1) := by
      rw [List.map_map]
      refine List.map_congr_left fun e _ => ?_
      by_cases here : e.1 = name <;> simp [here]
    rw [names]
    exact distinct
  · rename_i absent
    rw [List.map_append, List.nodup_append]
    refine ⟨distinct, List.nodup_singleton name, ?_⟩
    intro other member new isNew same
    obtain ⟨e, stored, named⟩ := List.mem_map.mp member
    have here : e.1 = name := named.trans (same.trans (List.mem_singleton.mp isNew))
    exact absent (List.any_eq_true.mpr ⟨e, stored, beq_iff_eq.mpr here⟩)

theorem nodup_foldl_setEntry (entries : List (String × Value K)) {base : List (String × Value K)}
    (distinct : (base.map (·.1)).Nodup) :
    ((entries.foldl (fun acc e => setEntry acc e.1 e.2) base).map (·.1)).Nodup := by
  induction entries generalizing base with
  | nil => exact distinct
  | cons e rest ih => exact ih (nodup_setEntry distinct e.1 e.2)

theorem entry?_dropEntry (entries : List (String × Value K)) (name other : String) :
    entry? (dropEntry entries name) other =
      if other = name then none else entry? entries other := by
  induction entries with
  | nil => simp [dropEntry]
  | cons e rest ih =>
      rw [dropEntry, List.filter_cons, ← dropEntry, entry?_cons]
      by_cases dropped : e.1 = name
      · rw [if_neg (by simp [dropped]), ih]
        by_cases here : other = name
        · simp [here]
        · simp [here, dropped, Ne.symm here]
      · rw [if_pos (by simp [dropped]), entry?_cons, ih]
        by_cases here : e.1 = other
        · have away : other ≠ name := fun h => dropped (here.trans h)
          simp [here, away]
        · simp [here]

/-! Order. -/

def latest? (entries : List (String × Value K)) (name : String) : Option (Value K) :=
  entry? entries.reverse name

theorem entry?_eq_some_iff {entries : List (String × Value K)}
    (distinct : (entries.map (·.1)).Nodup) {name : String} {v : Value K} :
    entry? entries name = some v ↔ (name, v) ∈ entries := by
  refine ⟨mem_of_found, fun member => ?_⟩
  induction entries with
  | nil => cases member
  | cons e rest ih =>
      rw [List.map_cons, List.nodup_cons] at distinct
      rw [Value.entry?_cons]
      rcases List.mem_cons.mp member with rfl | later
      · rw [if_pos rfl]
      · have away : e.1 ≠ name := by
          rintro rfl
          exact distinct.1 (List.mem_map_of_mem (f := (·.1)) later)
        rw [if_neg away, ih distinct.2 later]

theorem entry?_perm {entries others : List (String × Value K)} (h : entries.Perm others)
    (distinct : (entries.map (·.1)).Nodup) (name : String) :
    entry? entries name = entry? others name := by
  have distinct' : (others.map (·.1)).Nodup := (h.map (·.1)).nodup_iff.mp distinct
  apply Option.ext
  intro v
  rw [Value.entry?_eq_some_iff distinct, entry?_eq_some_iff distinct', h.mem_iff]

theorem latest?_of_nodup {entries : List (String × Value K)}
    (distinct : (entries.map (·.1)).Nodup) (name : String) :
    latest? entries name = entry? entries name :=
  (Value.entry?_perm entries.reverse_perm.symm distinct name).symm

theorem latest?_dropEntry (entries : List (String × Value K)) (name other : String) :
    latest? (dropEntry entries name) other =
      if other = name then none else latest? entries other := by
  have turned : (dropEntry entries name).reverse = dropEntry entries.reverse name :=
    (List.filter_reverse ..).symm
  rw [latest?, turned, entry?_dropEntry]
  rfl

theorem entry?_map {α : Type} [DecidableEq α] (name : α → String) (v : α → Value K)
    {xs : List α} {y : α} (distinct : ∀ x ∈ xs, name x = name y → x = y) :
    entry? (xs.map fun x => (name x, v x)) (name y) = if y ∈ xs then some (v y) else none := by
  induction xs with
  | nil => rfl
  | cons x rest ih =>
      rw [List.forall_mem_cons] at distinct
      rw [List.map_cons, entry?_cons, ih distinct.2]
      by_cases here : x = y
      · simp [here]
      · have away : name x ≠ name y := fun same => here (distinct.1 same)
        simp [away, Ne.symm here]

theorem latest?_map {α : Type} [DecidableEq α] (name : α → String) (v : α → Value K)
    {xs : List α} {y : α} (distinct : ∀ x ∈ xs, name x = name y → x = y) :
    latest? (xs.map fun x => (name x, v x)) (name y) = if y ∈ xs then some (v y) else none := by
  rw [latest?, ← List.map_reverse,
    entry?_map name v fun x member => distinct x (List.mem_reverse.mp member)]
  simp only [List.mem_reverse]

def gathered (entries : List (String × Value K)) : List (String × Value K) :=
  entries.foldl (fun acc e => setEntry acc e.1 e.2) []

theorem gathered_nodup (entries : List (String × Value K)) :
    ((gathered entries).map (·.1)).Nodup :=
  nodup_foldl_setEntry entries List.nodup_nil

theorem entry?_gathered (entries : List (String × Value K)) (name : String) :
    entry? (gathered entries) name = latest? entries name := by
  rw [gathered, entry?_foldl_setEntry, List.append_nil]
  rfl

end Value

end PageFlattening
