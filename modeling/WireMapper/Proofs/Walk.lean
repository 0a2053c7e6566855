import Mathlib.Logic.Relation
import WireMapper.Unvisited

/-!
Walks whose steps enter things. A walk that enters each thing once gets wherever a walk gets that
comes back to things it has entered, as long as the thing entered decides where the walk is: what
lies behind the last entry lies behind the first one too.
-/

namespace WireMapper

variable {α ι : Type} {leads : α → ι → α → Prop} {allowed : List ι} {x y z : α} {i : ι}

/-- A walk whose steps enter allowed things only. -/
def WalkInto (leads : α → ι → α → Prop) (allowed : List ι) : α → α → Prop :=
  Relation.ReflTransGen fun x y => ∃ i ∈ allowed, leads x i y

/-- Where a step ends is decided by the thing that it enters. -/
def EntryDecides (leads : α → ι → α → Prop) : Prop :=
  ∀ x y x' y' i, leads x i y → leads x' i y' → y = y'

theorem WalkInto.mono {more : List ι} (h : WalkInto leads allowed x z)
    (hsubset : ∀ i ∈ allowed, i ∈ more) : WalkInto leads more x z := by
  refine Relation.ReflTransGen.mono ?_ _ _ h
  rintro v w ⟨i, hi, hleads⟩
  exact ⟨i, hsubset i hi, hleads⟩

/-- Where everything may be entered, walks go wherever steps lead. -/
theorem walkInto_all_iff {step : α → α → Prop} (hallowed : ∀ i, i ∈ allowed)
    (hstep : ∀ x y, step x y ↔ ∃ i, leads x i y) :
    WalkInto leads allowed x z ↔ Relation.ReflTransGen step x z := by
  have hsame : (fun x y => ∃ i ∈ allowed, leads x i y) = step := by
    funext x y
    simp [hstep, hallowed]
  rw [WalkInto, hsame]

variable [DecidableEq ι]

/-- A walk enters a thing no more, or it ends where one ends that starts behind the thing and does
not. -/
theorem WalkInto.avoids (hdecides : EntryDecides leads) (hentry : leads x i y) {w : α}
    (h : WalkInto leads allowed w z) :
    WalkInto leads (unvisitedAfter i allowed) w z ∨
      WalkInto leads (unvisitedAfter i allowed) y z := by
  induction h using Relation.ReflTransGen.head_induction_on with
  | refl => exact Or.inl .refl
  | head hstep _ ih =>
      obtain ⟨j, hj, hleads⟩ := hstep
      rcases ih with hrest | hbehind
      · by_cases hsame : j = i
        -- The walk enters the thing again: what is left of it starts behind the thing.
        · subst hsame
          cases hdecides _ _ _ _ _ hleads hentry
          exact Or.inr hrest
        · exact Or.inl (.head ⟨j, mem_unvisitedAfter.mpr ⟨hj, hsame⟩, hleads⟩ hrest)
      · exact Or.inr hbehind

/-- Looking for a place by walks that enter each thing once: it is here, or behind one more entry.
-/
theorem exists_walkInto_iff (hdecides : EntryDecides leads) {Goal : α → Prop} :
    (∃ z, WalkInto leads allowed x z ∧ Goal z) ↔
      Goal x ∨ ∃ i ∈ allowed, ∃ y, leads x i y ∧
        ∃ z, WalkInto leads (unvisitedAfter i allowed) y z ∧ Goal z := by
  constructor
  · rintro ⟨z, hwalk, hgoal⟩
    rcases Relation.ReflTransGen.cases_head hwalk with rfl | ⟨y, ⟨i, hi, hentry⟩, hrest⟩
    · exact Or.inl hgoal
    · have hbehind : WalkInto leads (unvisitedAfter i allowed) y z :=
        (WalkInto.avoids hdecides hentry hrest).elim id id
      exact Or.inr ⟨i, hi, y, hentry, z, hbehind, hgoal⟩
  · rintro (hgoal | ⟨i, hi, y, hentry, z, hbehind, hgoal⟩)
    · exact ⟨x, .refl, hgoal⟩
    · have hrest : WalkInto leads allowed y z :=
        hbehind.mono fun j hj => (mem_unvisitedAfter.mp hj).1
      exact ⟨z, .head ⟨i, hi, hentry⟩ hrest, hgoal⟩

end WireMapper
