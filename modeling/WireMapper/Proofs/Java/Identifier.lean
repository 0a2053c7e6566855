import WireMapper.Java.Token.Lexer
import WireMapper.Proofs.Path.Names

/-!
Identifiers and dotted names of Java source, and what the lexer promises about them: every
identifier token is spelled as an identifier. Its characters are letters, digits and two signs, so
an identifier holds neither a dot nor a slash and can be one name in a dotted name or in a path.
-/

namespace WireMapper.Java

/-- A text that one identifier token is spelled as. -/
def IsIdentifier (text : String) : Prop :=
  ∃ c cs, text.toList = c :: cs ∧ isIdentStart c = true ∧ ∀ d ∈ cs, isIdentPart d = true

theorem isIdentifier_iff {text : String} {c : Char} {cs : List Char}
    (htext : text.toList = c :: cs) :
    IsIdentifier text ↔ isIdentStart c = true ∧ ∀ d ∈ cs, isIdentPart d = true := by
  constructor
  · rintro ⟨_, _, hsame, h⟩
    rw [htext] at hsame
    cases hsame
    exact h
  · intro h
    exact ⟨c, cs, htext, h⟩

instance (text : String) : Decidable (IsIdentifier text) :=
  match htext : text.toList with
  | [] => isFalse (by simp [IsIdentifier, htext])
  | c :: cs =>
    decidable_of_iff (isIdentStart c = true ∧ cs.all isIdentPart = true)
      (by rw [isIdentifier_iff htext, List.all_eq_true])

def IsQualified (name : String) : Prop :=
  ∀ segment ∈ Text.split '.' name, IsIdentifier segment

instance (name : String) : Decidable (IsQualified name) :=
  inferInstanceAs (Decidable (∀ segment ∈ Text.split '.' name, IsIdentifier segment))

theorem isIdentPart_of_isIdentStart {c : Char} (h : isIdentStart c = true) :
    isIdentPart c = true := by
  simp only [isIdentStart, isIdentPart, Bool.or_eq_true] at h ⊢
  rcases h with (h | h) | h
  · exact Or.inl (Or.inl (Or.inl h))
  · exact Or.inl (Or.inr h)
  · exact Or.inr h

namespace IsIdentifier

variable {text : String}

theorem isIdentPart (h : IsIdentifier text) : ∀ c ∈ text.toList, isIdentPart c = true := by
  obtain ⟨c, cs, htext, hstart, hpart⟩ := h
  rw [htext]
  intro d hd
  rcases List.mem_cons.mp hd with rfl | hd
  · exact isIdentPart_of_isIdentStart hstart
  · exact hpart d hd

theorem not_mem {c : Char} (h : IsIdentifier text) (hc : Java.isIdentPart c = false) :
    c ∉ text.toList := by
  intro hmem
  rw [h.isIdentPart c hmem] at hc
  cases hc

/-- So an identifier is one segment of a dotted name. -/
theorem noDot (h : IsIdentifier text) : '.' ∉ text.toList :=
  h.not_mem (by decide)

theorem ne_empty (h : IsIdentifier text) : text ≠ "" := by
  obtain ⟨c, cs, htext, _⟩ := h
  rintro rfl
  cases htext

end IsIdentifier

theorem isQualified_join {segments : List String} (hne : segments ≠ [])
    (h : ∀ segment ∈ segments, IsIdentifier segment) : IsQualified (Text.join '.' segments) := by
  intro segment hsegment
  rw [Text.split_join hne (fun text htext => (h text htext).noDot)] at hsegment
  exact h segment hsegment

/-- A separator between two texts separates their pieces. -/
theorem split_append (sep : Char) (a b : String) :
    Text.split sep (a ++ String.singleton sep ++ b) = Text.split sep a ++ Text.split sep b := by
  simp [Text.split, Text.splitChars_append]

theorem IsQualified.append {a b : String} (ha : IsQualified a) (hb : IsQualified b) :
    IsQualified (a ++ "." ++ b) := by
  intro segment hsegment
  rw [show a ++ "." ++ b = a ++ String.singleton '.' ++ b from rfl, split_append] at hsegment
  rcases List.mem_append.mp hsegment with hsegment | hsegment
  · exact ha segment hsegment
  · exact hb segment hsegment

/-- A character of a dotted name is a dot or can stand in an identifier. -/
theorem IsQualified.eq_or_isIdentPart {name : String} (h : IsQualified name) {c : Char}
    (hc : c ∈ name.toList) : c = '.' ∨ isIdentPart c = true := by
  have hpieces : name.toList = Text.joinChars '.' (Text.splitChars '.' name.toList) :=
    (Text.joinChars_splitChars '.' name.toList).symm
  rw [hpieces] at hc
  rcases Text.eq_or_mem_of_mem_joinChars hc with hdot | ⟨piece, hpiece, hc⟩
  · exact Or.inl hdot
  · have hsegment : IsIdentifier (String.ofList piece) := h _ (List.mem_map_of_mem hpiece)
    exact Or.inr (hsegment.isIdentPart c (by rwa [String.toList_ofList]))

/-- Every identifier among the tokens is spelled as one. -/
def Spelled (ts : List PlacedToken) : Prop :=
  ∀ t ∈ ts, ∀ text, t.token = .ident text → IsIdentifier text

theorem Spelled.of_suffix {ts rest : List PlacedToken} (h : Spelled ts) (hrest : rest <:+ ts) :
    Spelled rest :=
  fun t ht => h t (hrest.mem ht)

theorem Token.ofChar_ne_ident (c : Char) (text : String) : Token.ofChar c ≠ .ident text := by
  unfold Token.ofChar
  split <;> simp

theorem spelled_nil : Spelled [] := by
  simp [Spelled]

theorem spelled_singleton {t : PlacedToken} (h : ∀ text, t.token ≠ .ident text) :
    Spelled [t] := by
  intro u hu text htext
  rw [List.mem_singleton.mp hu] at htext
  exact absurd htext (h text)

/-- One step of the lexer yields an identifier only if it has read one. -/
theorem spelled_step {line : Nat} {c : Char} {cs : List Char} {s : Step}
    (h : step line c cs = .ok s) : Spelled s.yield?.toList := by
  cases step_eq_ok h with
  | space => exact spelled_nil
  | lineComment => exact spelled_nil
  | blockComment => exact spelled_nil
  | slash => exact spelled_singleton (by simp)
  | word _ _ hstart =>
      intro t ht text htext
      rw [Option.toList_some, List.mem_singleton] at ht
      rw [ht] at htext
      cases htext
      refine ⟨c, cs.takeWhile isIdentPart, String.toList_ofList, hstart, ?_⟩
      exact List.all_eq_true.mp List.all_takeWhile
  | number => exact spelled_singleton (by simp)
  | string => exact spelled_singleton (by simp)
  | char => exact spelled_singleton (by simp)
  | mark => exact spelled_singleton (Token.ofChar_ne_ident c)

theorem spelled_scanFrom {line : Nat} {cs : List Char} {ts : List PlacedToken}
    (h : scanFrom line cs = .ok ts) : Spelled ts := by
  fun_induction scanFrom line cs generalizing ts with
  | case1 =>
      cases h
      simp [Spelled]
  | case2 => cases h
  | case3 => cases h
  | case4 =>
      rename_i hstep _ hrest ih
      cases h
      intro t ht
      rcases List.mem_append.mp ht with ht | ht
      · exact spelled_step hstep t ht
      · exact ih hrest t ht

/-- So all identifiers of a source are spelled as such. -/
theorem spelled_scan {source : String} {ts : List PlacedToken} (h : scan source = .ok ts) :
    Spelled ts :=
  spelled_scanFrom h

end WireMapper.Java
