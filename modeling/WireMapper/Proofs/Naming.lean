import WireMapper.Naming

/-!
What the names of accessors can be made of. Capitals come from letters, and an ASCII sign is the
capital of nothing but itself, so every sign of an accessor's name was in the name of the field.
-/

namespace WireMapper

namespace Text

theorem toNat_ofNat {n : Nat} (h : n.isValidChar) : (Char.ofNat n).toNat = n := by
  rw [Char.ofNat, dif_pos h]
  rfl

/-- The code of a capital: that of a letter, or above ASCII. -/
def IsCapitalCode (n : Nat) : Prop :=
  n.isValidChar ∧ (n < 0x80 → (Char.ofNat n).isAlpha = true)

instance (n : Nat) : Decidable (IsCapitalCode n) :=
  inferInstanceAs (Decidable (_ ∧ _))

/-- All capitals of a run lie above ASCII and within one range of characters, unless the run is a
letter. -/
def CapitalRun.Capital (run : CapitalRun) : Prop :=
  run.first = run.last ∧ IsCapitalCode run.capital ∨
    0x80 ≤ run.capital ∧ (run.capital + (run.last - run.first) < 0xD800 ∨
      0xDFFF < run.capital ∧ run.capital + (run.last - run.first) < 0x110000)

instance (run : CapitalRun) : Decidable run.Capital :=
  inferInstanceAs (Decidable (_ ∨ _))

theorem capital_capitalRuns : ∀ run ∈ capitalRuns, run.Capital := by
  decide +kernel

theorem isCapitalCode_capitalSequences :
    ∀ entry ∈ capitalSequences, ∀ n ∈ entry.2, IsCapitalCode n := by
  decide +kernel

/-- A capital that a run gives lies in the range that the run keeps to. -/
theorem isCapitalCode_of_capitalOf? {run : CapitalRun} {n capital : Nat} (hrun : run.Capital)
    (h : run.capitalOf? n = some capital) : IsCapitalCode capital := by
  rw [CapitalRun.capitalOf?] at h
  split at h
  · rename_i hn
    cases h
    rcases hrun with ⟨hsingle, hcode⟩ | ⟨hlow, hhigh⟩
    · rw [show n - run.first = 0 by omega, Nat.add_zero]
      exact hcode
    · refine ⟨?_, fun hascii => by omega⟩
      rw [Nat.isValidChar]
      omega
  · cases h

theorem toUpper_eq_or_isAlpha {c : Char} (h : c.toNat < 0x80) :
    c.toUpper = c ∨ c.toUpper.isAlpha = true := by
  have hall : ∀ n < 0x80, (Char.ofNat n).toUpper = Char.ofNat n ∨
      (Char.ofNat n).toUpper.isAlpha = true := by decide
  rw [← Char.ofNat_toNat c]
  exact hall c.toNat h

/-- A character of a capital form in ASCII is a letter or the character itself. -/
theorem eq_or_isAlpha_of_mem_upperChars {c d : Char} (h : c ∈ upperChars d)
    (hascii : c.toNat < 0x80) :
    c = d ∨ c.isAlpha = true := by
  have hcode {n : Nat} (hn : IsCapitalCode n) (hc : c = Char.ofNat n) : c.isAlpha = true := by
    rw [hc, toNat_ofNat hn.1] at hascii
    rw [hc]
    exact hn.2 hascii
  rw [upperChars] at h
  split at h
  · rename_i hd
    rw [List.mem_singleton.mp h]
    exact toUpper_eq_or_isAlpha hd
  · split at h
    · rename_i capitals hcapitals
      obtain ⟨n, hn, hc⟩ := List.mem_map.mp h
      obtain ⟨before, after, hentry, -⟩ := List.lookup_eq_some_iff.mp hcapitals
      have hmem : (d.toNat, capitals) ∈ capitalSequences := by
        rw [hentry]
        simp
      exact Or.inr (hcode (isCapitalCode_capitalSequences _ hmem n hn) hc.symm)
    · split at h
      · rename_i capital hcapital
        obtain ⟨run, hrun, hof⟩ := List.exists_of_findSome?_eq_some hcapital
        have hcapital := isCapitalCode_of_capitalOf? (capital_capitalRuns run hrun) hof
        exact Or.inr (hcode hcapital (List.mem_singleton.mp h))
      · exact Or.inl (List.mem_singleton.mp h)

end Text

namespace Naming

open WireMapper.Text

/-- Camel case brings in letters only, as far as ASCII goes. -/
theorem mem_of_mem_camelChars {c : Char} {fresh : Bool} {cs : List Char} (hascii : c.toNat < 0x80)
    (hletter : c.isAlpha = false) (h : c ∈ camelChars fresh cs) : c ∈ cs := by
  fun_induction camelChars fresh cs with
  | case1 => cases h
  | case2 fresh cs ih => exact List.mem_cons_of_mem _ (ih h)
  | case3 fresh d cs _ _ ih =>
      rcases List.mem_cons.mp h with rfl | h
      · exact List.mem_cons_self
      · exact List.mem_cons_of_mem _ (ih h)
  | case4 d cs _ _ ih =>
      rcases List.mem_append.mp h with h | h
      · rcases Text.eq_or_isAlpha_of_mem_upperChars h hascii with rfl | hupper
        · exact List.mem_cons_self
        · cases hletter.symm.trans hupper
      · exact List.mem_cons_of_mem _ (ih h)
  | case5 fresh d cs _ _ _ ih =>
      rcases List.mem_cons.mp h with rfl | h
      · exact List.mem_cons_self
      · exact List.mem_cons_of_mem _ (ih h)

/-- A sign of an accessor stands in the name of the field. -/
theorem mem_of_mem_accessorSuffix {c : Char} {field : String} (hascii : c.toNat < 0x80)
    (hletter : c.isAlpha = false) (h : c ∈ (accessorSuffix field).toList) : c ∈ field.toList := by
  rw [accessorSuffix, String.toList_ofList] at h
  exact mem_of_mem_camelChars hascii hletter h

/-- A capital form holds an underscore only for the underscore itself. -/
theorem underscore_notMem_upperChars {c : Char} (h : c ≠ '_') : '_' ∉ upperChars c := by
  intro hmem
  rcases Text.eq_or_isAlpha_of_mem_upperChars hmem (by decide) with hsame | hletter
  · exact h hsame.symm
  · exact absurd hletter (by decide)

/-- Whatever was read before it, an underscore starts a word. -/
theorem camelChars_append (fresh : Bool) (a b : List Char) :
    camelChars fresh (a ++ '_' :: b) = camelChars fresh a ++ camelChars true b := by
  fun_induction camelChars fresh a with
  | case1 fresh => rfl
  | case2 fresh cs ih => exact ih
  | case3 fresh c cs hletter hdigit ih => simp [camelChars, hletter, hdigit, ih]
  | case4 c cs hletter hdigit ih => simp [camelChars, hletter, hdigit, ih]
  | case5 fresh c cs hletter hdigit hfresh ih => simp [camelChars, hletter, hdigit, hfresh, ih]

/-- Camel case drops every underscore. -/
theorem underscore_notMem_camelChars (fresh : Bool) (cs : List Char) :
    '_' ∉ camelChars fresh cs := by
  fun_induction camelChars fresh cs with
  | case1 => exact List.not_mem_nil
  | case2 fresh cs ih => exact ih
  | case3 fresh c cs hletter _ ih => exact List.not_mem_cons_of_ne_of_not_mem (Ne.symm hletter) ih
  | case4 c cs hletter _ ih =>
      rw [List.mem_append, not_or]
      exact ⟨underscore_notMem_upperChars hletter, ih⟩
  | case5 fresh c cs hletter _ _ ih =>
      exact List.not_mem_cons_of_ne_of_not_mem (Ne.symm hletter) ih

/-- The words around an underscore are spelled each by itself. -/
theorem accessorSuffix_append (a b : String) :
    accessorSuffix (a ++ "_" ++ b) = accessorSuffix a ++ accessorSuffix b := by
  have hchars : (a ++ "_" ++ b).toList = a.toList ++ '_' :: b.toList := by simp
  rw [accessorSuffix, hchars, camelChars_append, String.ofList_append]
  rfl

/-- Without its first underscore a name gives the same accessors. -/
theorem accessorSuffix_dropUnderscore (name : String) :
    accessorSuffix (dropUnderscore name) = accessorSuffix name := by
  rw [dropUnderscore]
  split
  · rename_i cs hname
    have hsplit : name = "" ++ "_" ++ String.ofList cs := by
      apply String.toList_injective
      simp [hname]
    rw [hsplit, accessorSuffix_append]
    rfl
  · rfl

end Naming

end WireMapper
