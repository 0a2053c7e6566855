import WireMapper.Proofs.Java.Parser.TypeReference

/-!
Signatures of methods. The parameters behind the name of a method and the types it throws are not
read. They are passed over, with all types and annotations in them, since no semicolon and no brace
stands outside the parentheses and these balance.
-/

namespace WireMapper.Java

variable {ts : Tokens} {after : List Token}

/-- Tokens in which the parentheses balance, with no semicolon and no opening brace outside of them.
-/
inductive Signature : List Token → Prop where
  | nil : Signature []
  | token {token : Token} {rest : List Token}
      (hmark : token ∉ [Token.semicolon, .openBrace, .openParen, .closeParen])
      (hrest : Signature rest) :
      Signature (token :: rest)
  | group (inner : List Token) {rest : List Token} (hinner : Balanced .openParen .closeParen inner)
      (hrest : Signature rest) : Signature (.openParen :: (inner ++ .closeParen :: rest))

namespace Signature

variable {tokens tokens' : List Token}

theorem append (h : Signature tokens) (h' : Signature tokens') : Signature (tokens ++ tokens') := by
  induction h with
  | nil => exact h'
  | token hmark hrest ih => exact .token hmark ih
  | group inner hinner hrest ih =>
      simp only [List.cons_append, List.append_assoc]
      exact .group inner hinner ih

theorem flatMap {α : Type} {f : α → List Token} {xs : List α} (h : ∀ x ∈ xs, Signature (f x)) :
    Signature (xs.flatMap f) := by
  induction xs with
  | nil => exact .nil
  | cons x xs ih =>
      rw [List.flatMap_cons]
      apply (h x List.mem_cons_self).append
      exact ih fun other hother => h other (List.mem_cons_of_mem x hother)

theorem balanced (h : Signature tokens) : Balanced .openParen .closeParen tokens := by
  induction h with
  | nil => exact unwinds_nil_iff.mpr rfl
  | token hmark hrest ih =>
      simp only [List.mem_cons, List.not_mem_nil, or_false, not_or] at hmark
      exact (unwinds_other_iff hmark.2.2.1 hmark.2.2.2).mpr ih
  | group inner hinner hrest ih => exact Unwinds.bracketed (by simp) hinner ih

/-- A signature is passed over on the way to the end of the method. -/
theorem methodRest_eq (h : Signature tokens) (hts : words ts = tokens ++ after) :
    ∃ rest, words rest = after ∧ methodRest ts = methodRest rest := by
  induction h generalizing ts with
  | nil => exact ⟨ts, hts, rfl⟩
  | token hmark hrest ih =>
      simp only [List.mem_cons, List.not_mem_nil, or_false, not_or] at hmark
      obtain ⟨hsemicolon, hbrace, hparen, _⟩ := hmark
      obtain ⟨line, ts₁, rfl, h₁⟩ := words_eq_cons hts
      obtain ⟨rest, hrest, hsame⟩ := ih h₁
      exact ⟨rest, hrest, by rw [methodRest_other hsemicolon hparen hbrace, hsame]⟩
  | group inner hinner hrest ih =>
      simp only [List.cons_append, List.append_assoc] at hts
      obtain ⟨ts₁, hskip, h₁⟩ := skipBracketed_of_words (by simp) hinner hts
      obtain ⟨rest, hrest, hsame⟩ := ih h₁
      obtain ⟨line, ts₂, rfl, _⟩ := words_eq_cons hts
      exact ⟨rest, hrest, by rw [methodRest_parens hskip, hsame]⟩

end Signature

theorem Arguments.signature {tokens : List Token} (h : Arguments .openParen .closeParen tokens) :
    Signature tokens := by
  cases h with
  | absent => exact .nil
  | bracketed inner hinner => exact .group inner hinner .nil

/-- Modifiers and annotations have no semicolon or brace outside of parentheses. -/
theorem Modify.signature {m m' : Modifiers} {tokens : List Token} (h : Modify m tokens m') :
    Signature tokens := by
  induction h with
  | nil => exact .nil
  | word hword hrest ih => exact .token (by simp) ih
  | nonSealed hrest ih =>
      apply Signature.token (by simp)
      apply Signature.token (by simp)
      exact .token (by simp) ih
  | annotated hfirst harguments hrest ih =>
      apply Signature.token (by simp)
      apply Signature.token (by simp)
      apply Signature.append
      · apply Signature.flatMap
        exact fun name _ => .token (by simp) (.token (by simp) .nil)
      · exact harguments.signature.append ih

theorem signature_annotations (annotations : List Annotation) :
    Signature (annotations.flatMap Annotation.tokens) :=
  (modify_annotations ⟨none, false⟩ annotations).signature

theorem Annotation.signature (a : Annotation) : Signature a.tokens := by
  have hsingle := signature_annotations [a]
  rwa [List.flatMap_singleton] at hsingle

namespace TypeArguments

theorem signature (arguments : TypeArguments) : Signature arguments.tokens := by
  induction arguments with
  | nil => exact .nil
  | mark token isMark rest ih =>
      apply Signature.token _ ih
      intro hmem
      simp only [List.mem_cons, List.not_mem_nil, or_false] at hmem
      rcases hmem with rfl | rfl | rfl | rfl <;> cases isMark
  | annotated a rest ih => exact a.signature.append ih
  | nested inner rest ihInner ih =>
      apply Signature.token (by simp)
      exact ihInner.append (.token (by simp) ih)

theorem signature_optional (arguments? : Option TypeArguments) :
    Signature (optionalTokens arguments?) := by
  cases arguments? with
  | none => exact .nil
  | some arguments =>
      apply Signature.token (by simp)
      exact arguments.signature.append (.token (by simp) .nil)

end TypeArguments

/-- A type is passed over wherever its annotations are. -/
theorem TypeReference.signature (t : TypeReference) : Signature t.tokens := by
  have hlater : Signature (t.later.flatMap Segment.tokens) := by
    apply Signature.flatMap
    intro s _
    apply Signature.token (by simp)
    apply (signature_annotations s.annotations).append
    exact .token (by simp) (TypeArguments.signature_optional s.arguments)
  have hdimensions : Signature (t.dimensions.flatMap dimensionTokens) := by
    apply Signature.flatMap
    intro annotations _
    apply (signature_annotations annotations).append
    exact .token (by simp) (.token (by simp) .nil)
  apply (signature_annotations t.annotations).append
  apply Signature.token (by simp)
  exact (TypeArguments.signature_optional t.arguments).append (hlater.append hdimensions)

structure Parameter where
  modifiers : List Token
  type : TypeReference
  isVariable : Bool
  name : String

namespace Parameter

/-- The name, behind the dots of variable arity. -/
def ending (p : Parameter) : List Token :=
  if p.isVariable then [.dot, .dot, .dot, .ident p.name] else [.ident p.name]

def tokens (p : Parameter) : List Token :=
  p.modifiers ++ (p.type.tokens ++ p.ending)

def bare (p : Parameter) : Parameter :=
  { p with type := p.type.bare }

def IsModified (p : Parameter) : Prop :=
  ∃ m, Modify ⟨none, false⟩ p.modifiers m

theorem signature {p : Parameter} (h : p.IsModified) : Signature p.tokens := by
  obtain ⟨m, hmodifiers⟩ := h
  apply hmodifiers.signature.append
  apply p.type.signature.append
  unfold ending
  split
  · exact .token (by simp) (.token (by simp) (.token (by simp) (.token (by simp) .nil)))
  · exact .token (by simp) .nil

theorem ending_stopsType (p : Parameter) (after : List Token) : StopsType (p.ending ++ after) := by
  unfold ending
  split
  · refine ⟨?_, by simp, by simp, by simp⟩
    intro text rest hsame
    cases hsame
  · exact ⟨endsName_of_head (by simp), by simp, by simp, by simp⟩

theorem dropWhile_ending (p : Parameter) (after : List Token) :
    (p.ending ++ after).dropWhile (· = .dot) = .ident p.name :: after := by
  unfold ending
  split <;> simp

end Parameter

def listTokens : List (List Token) → List Token
  | [] => []
  | first :: later => first ++ later.flatMap (Token.comma :: ·)

theorem signature_list {items : List (List Token)} (h : ∀ item ∈ items, Signature item) :
    Signature (listTokens items) := by
  cases items with
  | nil => exact .nil
  | cons first later =>
      apply (h first List.mem_cons_self).append
      apply Signature.flatMap
      exact fun item hitem => .token (by simp) (h item (List.mem_cons_of_mem first hitem))

def throwsTokens : List TypeReference → List Token
  | [] => []
  | thrown => .ident "throws" :: listTokens (thrown.map TypeReference.tokens)

theorem signature_throws (thrown : List TypeReference) : Signature (throwsTokens thrown) := by
  cases thrown with
  | nil => exact .nil
  | cons first later =>
      apply Signature.token (by simp)
      apply signature_list
      intro item hitem
      obtain ⟨t, _, rfl⟩ := List.mem_map.mp hitem
      exact t.signature

/-- The block of a method, or the semicolon in its place. -/
def blockTokens : Option (List Token) → List Token
  | none => [.semicolon]
  | some block => .openBrace :: (block ++ [.closeBrace])

/-- A method is passed over from its parameters to its end. -/
theorem Signature.method_eq {parameters clause : List Token} {block? : Option (List Token)}
    (h : Signature parameters) (hclause : Signature clause)
    (hblock : ∀ block, block? = some block → Balanced .openBrace .closeBrace block)
    (hts : words ts =
      .openParen :: (parameters ++ .closeParen :: (clause ++ (blockTokens block? ++ after)))) :
    ∃ rest, method ts = .ok rest ∧ words rest = after := by
  obtain ⟨ts₁, hskip, h₁⟩ := skipBracketed_of_words (by simp) h.balanced hts
  obtain ⟨ts₂, h₂, hsame⟩ := hclause.methodRest_eq h₁
  have hmethod : method ts = methodRest ts₂ := by simp only [method, hskip, hsame]
  cases block? with
  | none =>
      obtain ⟨line, ts₃, rfl, h₃⟩ := words_eq_cons h₂
      exact ⟨ts₃, by rw [hmethod, methodRest], h₃⟩
  | some block =>
      rw [blockTokens, List.cons_append, List.append_assoc] at h₂
      obtain ⟨rest, hblock, hrest⟩ := skipBracketed_of_words (by simp) (hblock block rfl) h₂
      obtain ⟨line, ts₃, rfl, _⟩ := words_eq_cons h₂
      exact ⟨rest, by rw [hmethod, methodRest]; exact hblock, hrest⟩

end WireMapper.Java
