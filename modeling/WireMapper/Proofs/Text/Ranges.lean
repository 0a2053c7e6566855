import WireMapper.Text.Alphabetic
import WireMapper.Text.WhiteSpace

/-!
Character classes that exclude each other. Two tables of ranges without a common code point say
nothing of the same character, and whether they have one is a matter of comparing their ends.
-/

namespace WireMapper.Text

/-- No range of the one table meets a range of the other. -/
def rangesApart (a b : List CodeRange) : Bool :=
  a.all fun r => b.all fun s => r.2 < s.1 || s.2 < r.1

theorem inRanges_eq_false_of_apart {a b : List CodeRange} {c : Char} (h : rangesApart a b = true)
    (hc : inRanges a c = true) : inRanges b c = false := by
  rw [← Bool.not_eq_true]
  intro hb
  obtain ⟨r, hr, hlow, hhigh⟩ := inRanges_eq_true_iff.mp hc
  obtain ⟨s, hs, hlow', hhigh'⟩ := inRanges_eq_true_iff.mp hb
  have hapart := List.all_eq_true.mp (List.all_eq_true.mp h r hr) s hs
  simp only [Bool.or_eq_true, decide_eq_true_eq] at hapart
  omega

theorem isAlpha_eq_inRanges (c : Char) : c.isAlpha = inRanges [(0x41, 0x5A), (0x61, 0x7A)] c := by
  delta Char.isAlpha Char.isUpper Char.isLower
  simp [inRanges, UInt32.le_iff_toNat_le]

/-- White space is no letter. -/
theorem isAlphabetic_of_isWhiteSpace {c : Char} (h : isWhiteSpace c = true) :
    isAlphabetic c = false := by
  unfold isAlphabetic
  split
  · rw [isAlpha_eq_inRanges]
    exact inRanges_eq_false_of_apart (by decide) h
  · exact inRanges_eq_false_of_apart (by decide +kernel) h

end WireMapper.Text
