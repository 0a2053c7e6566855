import WireMapper.Text.Pieces

/-!
Cutting undoes joining: pieces without the separator come back when the joined text is cut. With
`join_split` the two are inverse on the texts and on the lists of pieces that cutting produces.
-/

namespace WireMapper.Text

/-- A separator is a place to cut, whatever is around it. -/
theorem splitChars_append (sep : Char) (a b : List Char) :
    splitChars sep (a ++ sep :: b) = splitChars sep a ++ splitChars sep b := by
  induction a with
  | nil => simp [splitChars]
  | cons c a ih =>
      by_cases hc : c = sep
      · simp [splitChars, hc, ih]
      · cases ha : splitChars sep a with
        | nil => exact absurd ha (splitChars_ne_nil sep a)
        | cons piece pieces => simp [splitChars, hc, ih, ha]

theorem splitChars_of_not_mem {sep : Char} {cs : List Char} (h : sep ∉ cs) :
    splitChars sep cs = [cs] := by
  induction cs with
  | nil => rfl
  | cons c cs ih =>
      simp only [List.mem_cons, not_or] at h
      simp [splitChars, Ne.symm h.1, ih h.2]

/-- Pieces are found again where none of them holds the separator. -/
theorem splitChars_joinChars {sep : Char} {pieces : List (List Char)} (hne : pieces ≠ [])
    (h : ∀ piece ∈ pieces, sep ∉ piece) : splitChars sep (joinChars sep pieces) = pieces := by
  induction pieces with
  | nil => exact absurd rfl hne
  | cons piece pieces ih =>
      have hpiece := splitChars_of_not_mem (h piece (by simp))
      cases pieces with
      | nil => simpa [joinChars] using hpiece
      | cons next pieces =>
          rw [joinChars, splitChars_append, hpiece, ih (by simp) (fun p hp => h p (by simp [hp]))]
          · rfl
          · simp

theorem split_join {sep : Char} {pieces : List String} (hne : pieces ≠ [])
    (h : ∀ piece ∈ pieces, sep ∉ piece.toList) : split sep (join sep pieces) = pieces := by
  have hchars : ∀ piece ∈ pieces.map String.toList, sep ∉ piece := by
    intro piece hpiece
    obtain ⟨text, htext, rfl⟩ := List.mem_map.mp hpiece
    exact h text htext
  simp only [split, join, String.toList_ofList]
  rw [splitChars_joinChars (by simpa using hne) hchars]
  simp [Function.comp_def]

theorem split_ne_nil (sep : Char) (s : String) : split sep s ≠ [] := by
  simpa [split] using splitChars_ne_nil sep s.toList

theorem not_mem_of_mem_split {sep : Char} {s piece : String} (h : piece ∈ split sep s) :
    sep ∉ piece.toList := by
  obtain ⟨cs, hcs, rfl⟩ := List.mem_map.mp h
  simpa using not_mem_of_mem_splitChars hcs

theorem split_of_not_mem {sep : Char} {s : String} (h : sep ∉ s.toList) : split sep s = [s] := by
  simp [split, splitChars_of_not_mem h]

theorem joinChars_append {sep : Char} {a b : List (List Char)} (ha : a ≠ []) (hb : b ≠ []) :
    joinChars sep (a ++ b) = joinChars sep a ++ sep :: joinChars sep b := by
  induction a with
  | nil => exact absurd rfl ha
  | cons piece a ih =>
      cases a with
      | nil =>
          cases b with
          | nil => exact absurd rfl hb
          | cons next b => rfl
      | cons next a =>
          have hrest := ih (by simp)
          simp only [List.cons_append, joinChars] at hrest ⊢
          rw [hrest]
          simp

/-- Joining brings in nothing but separators. -/
theorem eq_or_mem_of_mem_joinChars {sep c : Char} {pieces : List (List Char)}
    (h : c ∈ joinChars sep pieces) : c = sep ∨ ∃ piece ∈ pieces, c ∈ piece := by
  induction pieces with
  | nil => cases h
  | cons piece pieces ih =>
      cases pieces with
      | nil => exact Or.inr ⟨piece, by simp, h⟩
      | cons next pieces =>
          rw [joinChars, List.mem_append, List.mem_cons] at h
          · rcases h with h | h | h
            · exact Or.inr ⟨piece, by simp, h⟩
            · exact Or.inl h
            · rcases ih h with h | ⟨found, hfound, h⟩
              · exact Or.inl h
              · exact Or.inr ⟨found, List.mem_cons_of_mem piece hfound, h⟩
          · simp

end WireMapper.Text
