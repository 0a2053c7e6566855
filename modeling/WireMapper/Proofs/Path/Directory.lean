import WireMapper.Proofs.Path.Names

/-!
The directory that a path names, as far as its text tells. Dots, repeated slashes and slashes at the
end lead nowhere, and neither does a dot at the start. Comparison by components keeps a first dot,
so two spellings of one directory are the same path unless one of them is the other with a dot in
front. A relative path that is seen from a directory has its dots behind the names of that
directory, where they count for nothing.
-/

namespace WireMapper.Path

open WireMapper.Text

variable {base p q : Path}

/-- Whether a path starts at the root, and the names on the way from there. Nothing else of its text
counts. -/
def directory (p : Path) : Bool × List String :=
  (p.text.toList.head? = some '/', leading (split '/' p.text))

theorem leading_split (p : Path) : leading (split '/' p.text) = p.names := by
  have hslash : "/".length = 1 := rfl
  have hdot : ".".length = 1 := rfl
  rw [names_eq_leading]
  rcases lead_cases p with ⟨hlead, cs, ht⟩ | ⟨hlead, ht⟩ | ⟨hlead, cs, ht⟩ | ⟨hlead, _⟩
  · simp [pieces, split, hlead, hslash, ht, splitChars, leading, isVoid]
  · simp [pieces, split, hlead, hdot, ht, splitChars, leading, isVoid]
  · simp [pieces, split, hlead, hdot, ht, splitChars, leading, isVoid]
  · simp [pieces, hlead]

/-- Text and components name the same directory. -/
theorem directory_eq (p : Path) : p.directory = (p.isAbsolute, p.names) := by
  rw [directory, leading_split, Prod.mk.injEq, isAbsolute, decide_eq_decide]
  refine ⟨?_, rfl⟩
  rcases lead_cases p with ⟨hlead, cs, ht⟩ | ⟨hlead, ht⟩ | ⟨hlead, cs, ht⟩ | ⟨hlead, hslash, _⟩
  · simp [hlead, ht]
  · simp [hlead, ht]
  · simp [hlead, ht]
  · simp [hlead, hslash]

/-- The lead of a path is no name, of that path or another. -/
theorem lead_notMem_names (h : q.lead ≠ "") : q.lead ∉ p.names := by
  intro hmem
  have hname := isName_of_mem_names hmem
  rcases lead_cases q with ⟨hlead, _⟩ | ⟨hlead, _⟩ | ⟨hlead, _⟩ | ⟨hlead, _⟩
  · exact hname.noSlash (by simp [hlead])
  · exact hname.ne_dot hlead
  · exact hname.ne_dot hlead
  · exact h hlead

/-- A lead is never taken for a name, so components tell both. -/
theorem components_eq_iff : p.components = q.components ↔ p.lead = q.lead ∧ p.names = q.names := by
  constructor
  · intro h
    unfold components at h
    split at h <;> split at h
    · rename_i hp hq
      exact ⟨hp.trans hq.symm, h⟩
    · rename_i hp hq
      exact absurd (h ▸ List.mem_cons_self) (lead_notMem_names (p := p) hq)
    · rename_i hp hq
      exact absurd (h ▸ List.mem_cons_self) (lead_notMem_names (p := q) hp)
    · exact List.cons.inj h
  · rintro ⟨hlead, hnames⟩
    rw [components, components, hlead, hnames]

/-- The path is another one with a dot in front. -/
def IsDotted (p q : Path) : Prop :=
  p.components = "." :: q.components

/-- Only a relative path can have a dot in front. -/
theorem isDotted_iff : p.IsDotted q ↔ p.lead = "." ∧ q.lead = "" ∧ p.names = q.names := by
  constructor
  · intro h
    rw [IsDotted, components] at h
    split at h
    · have hdot : "." ∈ p.names := h ▸ List.mem_cons_self
      exact absurd rfl (isName_of_mem_names hdot).ne_dot
    · obtain ⟨hlead, hnames⟩ := List.cons.inj h
      have hq : q.lead = "" := by
        refine Decidable.byContradiction fun hq => lead_notMem_names (p := p) hq ?_
        rw [hnames, components, if_neg hq]
        exact List.mem_cons_self
      rw [components, if_pos hq] at hnames
      exact ⟨hlead, hq, hnames⟩
  · rintro ⟨hp, hq, hnames⟩
    simp [IsDotted, components, hp, hq, hnames]

/-- Two spellings of one directory are the same path, up to a dot in front. -/
theorem directory_eq_iff : p.directory = q.directory ↔
    p.components = q.components ∨ p.IsDotted q ∨ q.IsDotted p := by
  rw [directory_eq, directory_eq, Prod.mk.injEq, components_eq_iff, isDotted_iff, isDotted_iff,
    isAbsolute, isAbsolute, decide_eq_decide]
  constructor
  · rintro ⟨habsolute, hnames⟩
    rcases lead_cases p with ⟨hp, _⟩ | ⟨hp, _⟩ | ⟨hp, _⟩ | ⟨hp, _⟩ <;>
      rcases lead_cases q with ⟨hq, _⟩ | ⟨hq, _⟩ | ⟨hq, _⟩ | ⟨hq, _⟩ <;>
      simp [hp, hq, hnames] at habsolute ⊢
  · rintro (⟨hlead, hnames⟩ | ⟨hp, hq, hnames⟩ | ⟨hq, hp, hnames⟩)
    · simp [hlead, hnames]
    · simp [hp, hq, hnames]
    · simp [hp, hq, hnames]

theorem lead_eq_empty_of_cons {c d : Char} {cs : List Char} (ht : p.text.toList = c :: d :: cs)
    (hroot : c ≠ '/') (hdot : c = '.' → d ≠ '/') : p.lead = "" := by
  apply lead_eq_empty
  · simpa [ht] using hroot
  · simp [ht]
  · intro after hsame
    simp only [ht, List.cons.injEq] at hsame
    exact hdot hsame.1 hsame.2.1

/-- A lead is read off the first two characters, so what is written behind a slash leaves it as it
is. -/
theorem lead_append {s t : String} (hs : s ≠ "")
    (hslash : s.toList.getLast? = some '/' ∨ t.toList.head? = some '/') :
    lead ⟨s ++ t⟩ = lead ⟨s⟩ := by
  cases hc : s.toList with
  | nil => exact absurd (String.toList_eq_nil_iff.mp hc) hs
  | cons c cs =>
      by_cases hroot : c = '/'
      · simp [lead, hc, hroot]
      cases cs with
      | nil =>
          have hlast : t.toList.head? = some '/' := by
            refine hslash.resolve_left ?_
            simpa [hc] using hroot
          obtain ⟨ds, hds⟩ := List.head?_eq_some_iff.mp hlast
          by_cases hdot : c = '.'
          · simp [lead, hc, hds, hdot]
          · have hsingle : lead ⟨s⟩ = "" := by
              apply lead_eq_empty <;> simp [hc, hroot, hdot]
            have hfollowed : (s ++ t).toList = c :: '/' :: ds := by simp [hc, hds]
            rw [hsingle]
            exact lead_eq_empty_of_cons hfollowed hroot fun h => absurd h hdot
      | cons d cs =>
          by_cases hdot : c = '.' ∧ d = '/'
          · simp [lead, hc, hdot]
          · have hother : c = '.' → d ≠ '/' := fun hc hd => hdot ⟨hc, hd⟩
            have hfirst : lead ⟨s⟩ = "" := lead_eq_empty_of_cons hc hroot hother
            have hfollowed : (s ++ t).toList = c :: d :: (cs ++ t.toList) := by simp [hc]
            rw [hfirst]
            exact lead_eq_empty_of_cons hfollowed hroot hother

/-- A relative path leaves the lead of the one that it is joined to as it is. -/
theorem lead_join (hbase : base.text ≠ "") (hp : p.isAbsolute = false) :
    (base.join p).lead = base.lead := by
  rw [join, hp, if_neg Bool.false_ne_true]
  by_cases hopen : base.text = "" ∨ base.text.toList.getLast? = some '/'
  · rw [if_pos hopen]
    exact lead_append hbase (Or.inl (hopen.resolve_left hbase))
  · rw [if_neg hopen, String.append_assoc]
    exact lead_append hbase (Or.inr (by simp))

theorem leading_split_slash (s t : String) :
    leading (split '/' (s ++ "/" ++ t)) = leading (split '/' s) ++ leading (split '/' t) := by
  rw [← leading_append]
  simp [split, splitChars_append]

/-- Joining a relative path appends its names, dots at its start left out. -/
theorem names_join (hp : p.isAbsolute = false) : (base.join p).names = base.names ++ p.names := by
  rw [join, hp, if_neg Bool.false_ne_true]
  simp only [← leading_split]
  by_cases hopen : base.text = "" ∨ base.text.toList.getLast? = some '/'
  · rw [if_pos hopen]
    rcases hopen with hempty | hlast
    · rw [hempty, String.empty_append]
      rfl
    · obtain ⟨cs, hcs⟩ := List.getLast?_eq_some_iff.mp hlast
      have htext : base.text = String.ofList cs ++ "/" := by
        apply String.toList_injective
        simp [hcs]
      have hbase := leading_split_slash (String.ofList cs) ""
      have hvoid : leading (split '/' "") = [] := rfl
      rw [String.append_empty, hvoid, List.append_nil] at hbase
      rw [htext, hbase, leading_split_slash]
  · rw [if_neg hopen, leading_split_slash]

end WireMapper.Path
