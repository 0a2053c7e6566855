/-!
Sets of characters given as ascending ranges of code points, the form in which the properties of
Unicode are tabulated.
-/

namespace WireMapper.Text

/-- The first and the last code point of a range; both belong to it. -/
abbrev CodeRange := Nat × Nat

def inRanges (ranges : List CodeRange) (c : Char) : Bool :=
  ranges.any fun range => range.1 ≤ c.toNat && c.toNat ≤ range.2

theorem inRanges_eq_true_iff {ranges : List CodeRange} {c : Char} :
    inRanges ranges c = true ↔ ∃ range ∈ ranges, range.1 ≤ c.toNat ∧ c.toNat ≤ range.2 := by
  simp [inRanges]

end WireMapper.Text
