import WireMapper.Path
import WireMapper.Proofs.Text.Pieces

/-!
How a path is spelled: its lead, and the pieces after it. A path is determined by the two, and a
lead with pieces that can follow it is read back from what it spells. From this come the names of
the paths that are made by joining a name, by going to the directory and by replacing the extension.
-/

namespace WireMapper.Path

open WireMapper.Text

def spell (lead : String) (pieces : List String) : Path :=
  ⟨lead ++ Text.join '/' pieces⟩

/-- Pieces that can follow a lead. After a first dot comes a slash, if anything; without a lead the
text starts neither with a slash nor with a dot for a piece. -/
structure Follows (lead : String) (pieces : List String) : Prop where
  nonempty : pieces ≠ []
  noSlash : ∀ piece ∈ pieces, '/' ∉ piece.toList
  start : lead = "/" ∨ lead = "." ∧ pieces.head? = some "" ∨
    lead = "" ∧ pieces.head? ≠ some "." ∧ (pieces.head? = some "" → pieces = [""])

theorem spell_toList (lead : String) (pieces : List String) :
    (spell lead pieces).text.toList =
      lead.toList ++ joinChars '/' (pieces.map String.toList) := by
  simp [spell, Text.join]

/-- A path starts with a slash, is a dot, starts with a dot and a slash, or has no lead. -/
theorem lead_cases (p : Path) :
    p.lead = "/" ∧ (∃ cs, p.text.toList = '/' :: cs) ∨
      p.lead = "." ∧ p.text.toList = ['.'] ∨
      p.lead = "." ∧ (∃ cs, p.text.toList = '.' :: '/' :: cs) ∨
      p.lead = "" ∧ p.text.toList.head? ≠ some '/' ∧ p.text.toList ≠ ['.'] ∧
        (∀ cs, p.text.toList ≠ '.' :: '/' :: cs) := by
  unfold lead
  split
  · rename_i cs h
    exact Or.inl ⟨rfl, cs, h⟩
  · rename_i h
    exact Or.inr (Or.inl ⟨rfl, h⟩)
  · rename_i cs h
    exact Or.inr (Or.inr (Or.inl ⟨rfl, cs, h⟩))
  · rename_i hslash hdot hdots
    refine Or.inr (Or.inr (Or.inr ⟨rfl, ?_, hdot, hdots⟩))
    intro hhead
    obtain ⟨cs, hcs⟩ := List.head?_eq_some_iff.mp hhead
    exact hslash cs hcs

theorem lead_prefix (p : Path) : p.lead.toList <+: p.text.toList := by
  rcases lead_cases p with ⟨h, cs, ht⟩ | ⟨h, ht⟩ | ⟨h, cs, ht⟩ | ⟨h, _⟩
  · rw [h, ht]; exact ⟨cs, rfl⟩
  · rw [h, ht]; exact ⟨[], rfl⟩
  · rw [h, ht]; exact ⟨'/' :: cs, rfl⟩
  · rw [h]; exact List.nil_prefix

/-- A path is spelled by its lead and its pieces. -/
theorem spell_lead_pieces (p : Path) : spell p.lead p.pieces = p := by
  obtain ⟨rest, hrest⟩ := lead_prefix p
  have hdrop : p.text.toList.drop p.lead.length = rest := by
    rw [← hrest, ← String.length_toList, List.drop_left]
  cases p with
  | mk text =>
      simp only [spell, pieces, join_split, hdrop, mk.injEq]
      apply String.toList_injective
      rw [String.toList_append, String.toList_ofList]
      exact hrest

theorem text_toList (p : Path) :
    p.text.toList = p.lead.toList ++ joinChars '/' (p.pieces.map String.toList) := by
  rw [← spell_toList, spell_lead_pieces]

/-- What a path is spelled by can follow its lead. -/
theorem follows (p : Path) : Follows p.lead p.pieces where
  nonempty := split_ne_nil _ _
  noSlash := fun _ hpiece => not_mem_of_mem_split hpiece
  start := by
    rcases lead_cases p with ⟨h, _⟩ | ⟨h, ht⟩ | ⟨h, cs, ht⟩ | ⟨h, hslash, hdot, hdots⟩
    · exact Or.inl h
    · refine Or.inr (Or.inl ⟨h, ?_⟩)
      rw [pieces, h, ht]
      rfl
    · refine Or.inr (Or.inl ⟨h, ?_⟩)
      have hdrop : ('.' :: '/' :: cs).drop ".".length = '/' :: cs := rfl
      rw [pieces, h, ht, hdrop]
      simp [split, splitChars]
    · refine Or.inr (Or.inr ⟨h, ?_⟩)
      have htext := text_toList p
      rw [h, String.toList_empty, List.nil_append] at htext
      cases hpieces : p.pieces with
      | nil => simp
      | cons first rest =>
          rw [hpieces] at htext
          constructor
          · intro hfirst
            obtain rfl : first = "." := by simpa using hfirst
            cases rest with
            | nil => exact hdot (by simpa [joinChars] using htext)
            | cons next rest => exact hdots _ (by simpa [joinChars] using htext)
          · intro hfirst
            obtain rfl : first = "" := by simpa using hfirst
            cases rest with
            | nil => rfl
            | cons next rest => simp [joinChars, htext] at hslash

theorem lead_eq_empty {p : Path} (hslash : p.text.toList.head? ≠ some '/')
    (hdot : p.text.toList ≠ ['.']) (hdots : ∀ cs, p.text.toList ≠ '.' :: '/' :: cs) :
    p.lead = "" := by
  rcases lead_cases p with ⟨_, cs, ht⟩ | ⟨_, ht⟩ | ⟨_, cs, ht⟩ | ⟨h, _⟩
  · exact absurd (by simp [ht]) hslash
  · exact absurd ht hdot
  · exact absurd ht (hdots cs)
  · exact h

/-- A first piece that is not empty, not a dot and holds no slash is not taken for a lead. -/
theorem lead_spell_relative {first : String} {rest : List String} {c : Char} {cs : List Char}
    (hchars : first.toList = c :: cs) (hslash : '/' ∉ first.toList) (hdot : first ≠ ".") :
    (spell "" (first :: rest)).lead = "" := by
  have hc : '/' ∉ c :: cs := hchars ▸ hslash
  simp only [List.mem_cons, not_or] at hc
  have hsingle : cs = [] → c ≠ '.' := by
    rintro rfl rfl
    exact hdot (String.toList_injective hchars)
  obtain ⟨tail, htail⟩ : ∃ tail,
      (spell "" (first :: rest)).text.toList = c :: (cs ++ tail) := by
    have htext := spell_toList "" (first :: rest)
    cases rest with
    | nil => exact ⟨[], by simp [htext, joinChars, hchars]⟩
    | cons next rest =>
        refine ⟨'/' :: joinChars '/' ((next :: rest).map String.toList), ?_⟩
        simp [htext, joinChars, hchars]
  apply lead_eq_empty
  · simpa [htail] using Ne.symm hc.1
  · intro h
    rw [htail] at h
    simp only [List.cons.injEq, List.append_eq_nil_iff] at h
    exact hsingle h.2.1 h.1
  · intro after h
    rw [htail] at h
    cases cs with
    | nil =>
        simp only [List.nil_append, List.cons.injEq] at h
        exact hsingle rfl h.1
    | cons d cs =>
        simp only [List.cons_append, List.cons.injEq] at h
        exact hc.2 (by simp [h.2.1])

/-- Reading the lead back from what it spells. -/
theorem lead_spell {lead : String} {pieces : List String} (h : Follows lead pieces) :
    (spell lead pieces).lead = lead := by
  obtain ⟨hne, hslash, hstart⟩ := h
  cases pieces with
  | nil => exact absurd rfl hne
  | cons first rest =>
      have htext := spell_toList lead (first :: rest)
      rcases hstart with rfl | ⟨rfl, hfirst⟩ | ⟨rfl, hdot, hempty⟩
      · simp [Path.lead, htext]
      · obtain rfl : first = "" := by simpa using hfirst
        cases rest with
        | nil => simp [Path.lead, htext, joinChars]
        | cons next rest => simp [Path.lead, htext, joinChars]
      · cases hchars : first.toList with
        | nil =>
            obtain rfl : first = "" := String.toList_eq_nil_iff.mp hchars
            obtain rfl : rest = [] := by simpa using hempty rfl
            simp [Path.lead, htext, joinChars]
        | cons c cs =>
            have hfirst : first ≠ "." := by
              rintro rfl
              exact hdot rfl
            exact lead_spell_relative hchars (hslash first List.mem_cons_self) hfirst

/-- Reading the pieces back from what they spell. -/
theorem pieces_spell {lead : String} {pieces : List String} (h : Follows lead pieces) :
    (spell lead pieces).pieces = pieces := by
  have hdrop : (spell lead pieces).text.toList.drop lead.length =
      joinChars '/' (pieces.map String.toList) := by
    rw [spell_toList, ← String.length_toList, List.drop_left]
  rw [Path.pieces, lead_spell h, hdrop]
  exact split_join h.nonempty h.noSlash

end WireMapper.Path
