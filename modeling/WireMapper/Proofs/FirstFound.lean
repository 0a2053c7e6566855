import Mathlib.Data.List.Sort
import Mathlib.Order.Defs.LinearOrder

/-!
What a search through a list finds. It stops at the first element at which there is anything to be
found; if the list is sorted by a key, that element has the least key of those.
-/

namespace WireMapper

/-- The first element of a list for which anything is found, with what is found there. -/
def FirstIn {α β : Type} (xs : List α) (Found : α → β → Prop) (b : β) : Prop :=
  ∃ before x after, xs = before ++ x :: after ∧ Found x b ∧ ∀ y ∈ before, ∀ c, ¬ Found y c

variable {α β γ : Type} {xs : List α} {b : β}

theorem FirstIn.congr {Found Other : α → β → Prop} (h : ∀ x ∈ xs, ∀ c, Found x c ↔ Other x c) :
    FirstIn xs Found b ↔ FirstIn xs Other b := by
  constructor
  · rintro ⟨before, x, after, rfl, hfound, hnone⟩
    refine ⟨before, x, after, rfl, (h x (by simp) b).mp hfound, fun y hy c hother => ?_⟩
    exact hnone y hy c ((h y (by simp [hy]) c).mpr hother)
  · rintro ⟨before, x, after, rfl, hother, hnone⟩
    refine ⟨before, x, after, rfl, (h x (by simp) b).mpr hother, fun y hy c hfound => ?_⟩
    exact hnone y hy c ((h y (by simp [hy]) c).mp hfound)

/-- A search with a function that says what is found at each element. -/
theorem findSome?_eq_some_iff_firstIn {f : α → Option β} {Found : α → β → Prop}
    (h : ∀ x ∈ xs, ∀ c, f x = some c ↔ Found x c) :
    xs.findSome? f = some b ↔ FirstIn xs Found b := by
  rw [List.findSome?_eq_some_iff, ← FirstIn.congr h, FirstIn]
  simp only [Option.eq_none_iff_forall_ne_some, ne_eq]

/-- A search is in vain if nothing is found at any element. -/
theorem findSome?_eq_none_iff_forall {f : α → Option β} {Found : α → β → Prop}
    (h : ∀ x ∈ xs, ∀ c, f x = some c ↔ Found x c) :
    xs.findSome? f = none ↔ ∀ x ∈ xs, ∀ c, ¬ Found x c := by
  rw [List.findSome?_eq_none_iff]
  refine forall₂_congr fun x hx => ?_
  rw [Option.eq_none_iff_forall_ne_some]
  exact forall_congr' fun c => not_congr (h x hx c)

theorem findSome?_congr {f g : α → Option β} (h : ∀ x ∈ xs, f x = g x) :
    xs.findSome? f = xs.findSome? g := by
  induction xs with
  | nil => rfl
  | cons x xs ih =>
      rw [List.findSome?_cons, List.findSome?_cons, h x List.mem_cons_self,
        ih fun y hy => h y (List.mem_cons_of_mem x hy)]

/-- In a sorted list, what is found first has the least key. -/
theorem least_of_findSome? [LinearOrder γ] {key : α → γ} {f : α → Option β}
    (hsorted : xs.Pairwise fun x y => key x ≤ key y) (h : xs.findSome? f = some b) :
    ∃ x ∈ xs, f x = some b ∧ ∀ y ∈ xs, f y ≠ none → key x ≤ key y := by
  obtain ⟨before, x, after, rfl, hx, hnone⟩ := List.findSome?_eq_some_iff.mp h
  refine ⟨x, by simp, hx, fun y hy hfound => ?_⟩
  rcases List.mem_append.mp hy with hbefore | hafter
  · exact absurd (hnone y hbefore) hfound
  · rcases List.mem_cons.mp hafter with rfl | hafter
    · exact le_refl _
    · exact List.rel_of_pairwise_cons (List.pairwise_append.mp hsorted).2.1 hafter

/-- Sorting by what comes before what leaves the keys in order. -/
theorem pairwise_mergeSort_key [LinearOrder γ] {key : α → γ} {before : α → α → Bool}
    (h : ∀ a b, before a b = true ↔ key a < key b) (xs : List α) :
    (xs.mergeSort fun a b => !before b a).Pairwise fun a b => key a ≤ key b := by
  have hle : ∀ a b, (!before b a) = true ↔ key a ≤ key b := by
    intro a b
    rw [Bool.not_eq_true', ← Bool.not_eq_true, h, not_lt]
  refine (List.pairwise_mergeSort ?_ ?_ xs).imp (fun hab => (hle _ _).mp hab)
  · intro a b c hab hbc
    exact (hle a c).mpr (le_trans ((hle a b).mp hab) ((hle b c).mp hbc))
  · intro a b
    rw [Bool.or_eq_true, hle, hle]
    exact le_total _ _

end WireMapper
