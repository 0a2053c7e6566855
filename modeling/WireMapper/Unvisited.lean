/-!
Bookkeeping for walks that may enter each of finitely many things once. What was not entered yet
gets less with every step, so such a walk ends.
-/

namespace WireMapper

def unvisitedAfter {α : Type} [DecidableEq α] (visited : α) (unvisited : List α) : List α :=
  unvisited.filter (· ≠ visited)

/-- Nothing but the visited thing is taken out. -/
theorem mem_unvisitedAfter {α : Type} [DecidableEq α] {visited x : α} {unvisited : List α} :
    x ∈ unvisitedAfter visited unvisited ↔ x ∈ unvisited ∧ x ≠ visited := by
  simp [unvisitedAfter]

/-- A visit to something that was still to be visited brings the walk nearer to its end. -/
theorem length_unvisitedAfter_lt {α : Type} [DecidableEq α] {visited : α} {unvisited : List α}
    (h : visited ∈ unvisited) : (unvisitedAfter visited unvisited).length < unvisited.length :=
  List.length_filter_lt_length_iff_exists.2 ⟨visited, h, by simp⟩

end WireMapper
