import WireMapper.Proofs.Except
import WireMapper.Proofs.Java.Parser.Suffix
import WireMapper.Proofs.Java.Print.Reading

/-!
Single steps of the readers that go through tokens one after another. Each equation says what a
reader does with the tokens at the front and how it goes on with those behind them.
-/

namespace WireMapper.Java

variable {ts rest : Tokens}

theorem modifiersFrom_nonSealed {m : Modifiers} {word : String} {line : Nat}
    (hword : m.add? word = none) (h : afterNonSealed? (⟨.ident word, line⟩ :: ts) = some rest) :
    modifiersFrom m (⟨.ident word, line⟩ :: ts) = modifiersFrom m rest := by
  rw [modifiersFrom]
  simp only [hword]
  split
  · rename_i hsame
    rw [h] at hsame
    cases hsame
    rfl
  · rename_i hnone
    rw [h] at hnone
    cases hnone

theorem modifiersFrom_annotated {m : Modifiers} {line : Nat}
    (hts : next? ts ≠ some (.ident "interface"))
    (h : skipAnnotationUse (⟨.atSign, line⟩ :: ts) = .ok rest) :
    modifiersFrom m (⟨.atSign, line⟩ :: ts) = modifiersFrom m rest := by
  rw [modifiersFrom]
  simp only [if_neg hts]
  split
  · rename_i herror
    rw [h] at herror
    cases herror
  · rename_i hsame
    rw [h] at hsame
    cases hsame
    rfl

/-- Where modifiers end: before a name that is none, or before any other token but the sign of an
annotation. -/
theorem modifiersFrom_end {m : Modifiers} (hword : ∀ word, next? ts = some (.ident word) →
      m.add? word = none ∧ afterNonSealed? ts = none)
    (hsign : next? ts = some .atSign → second? ts = some (.ident "interface")) :
    modifiersFrom m ts = .ok (m, ts) := by
  cases ts with
  | nil => rw [modifiersFrom]
  | cons t ts =>
      have hnext : next? (t :: ts) = some t.token := rfl
      rw [modifiersFrom]
      split
      · rename_i ht
        rw [ht] at hnext
        exact if_pos (hsign hnext)
      · rename_i word ht
        rw [ht] at hnext
        obtain ⟨hadd, hnone⟩ := hword word hnext
        simp only [hadd]
        split
        · rename_i hsome
          rw [hnone] at hsome
          cases hsome
        · rfl
      · rfl

theorem typeSegments_cons {line line' : Nat} {text : String}
    (h : skipOptional .less .greater ts = .ok rest) :
    typeSegments (⟨.dot, line⟩ :: ⟨.ident text, line'⟩ :: ts) =
      (typeSegments rest).map fun read => (text :: read.1, read.2) := by
  rw [typeSegments]
  split
  · rename_i herror
    rw [h] at herror
    cases herror
  · rename_i hsame
    rw [h] at hsame
    cases hsame
    cases typeSegments rest <;> rfl

theorem recordComponentsFrom_close (h : next? ts = some .closeParen) :
    recordComponentsFrom ts = .ok ([], ts.tail) := by
  rw [recordComponentsFrom, if_pos h]

/-- A component with a name, and what the list is with it. -/
theorem recordComponentsFrom_component {m : Modifiers} {type name : String} {ts₁ ts₂ : Tokens}
    (hclose : next? ts ≠ some .closeParen) (hmodifiers : modifiers ts = .ok (m, ts₁))
    (htype : typeName ts₁ = .ok (type, ts₂)) (hname : identifier ts₂ = .ok (name, rest)) :
    recordComponentsFrom ts =
      if next? rest = some .comma then
        (recordComponentsFrom rest.tail).map fun read =>
          (⟨name, .private_, false⟩ :: read.1, read.2)
      else (expect .closeParen rest).map fun read => ([⟨name, .private_, false⟩], read.2) := by
  rw [recordComponentsFrom, if_neg hclose]
  split
  · rename_i herror
    rw [hmodifiers] at herror
    cases herror
  rename_i hsame
  rw [hmodifiers] at hsame
  cases hsame
  split
  · rename_i herror
    rw [htype] at herror
    cases herror
  rename_i hsame
  rw [htype] at hsame
  cases hsame
  split
  · rename_i herror
    rw [hname] at herror
    cases herror
  rename_i hsame
  rw [hname] at hsame
  cases hsame
  split
  · cases recordComponentsFrom rest.tail <;> rfl
  · cases expect .closeParen rest <;> rfl

/-- A component without a name is where the list fails. -/
theorem recordComponentsFrom_unnamed {m : Modifiers} {type : String} {ts₁ ts₂ : Tokens}
    {e : Failure} (hclose : next? ts ≠ some .closeParen) (hmodifiers : modifiers ts = .ok (m, ts₁))
    (htype : typeName ts₁ = .ok (type, ts₂)) (hname : identifier ts₂ = .error e) :
    recordComponentsFrom ts = .error e := by
  rw [recordComponentsFrom, if_neg hclose]
  split
  · rename_i herror
    rw [hmodifiers] at herror
    cases herror
  rename_i hsame
  rw [hmodifiers] at hsame
  cases hsame
  split
  · rename_i herror
    rw [htype] at herror
    cases herror
  rename_i hsame
  rw [htype] at hsame
  cases hsame
  split
  · rename_i herror
    rw [hname] at herror
    cases herror
    rfl
  · rename_i hsame
    rw [hname] at hsame
    cases hsame

/-- The bracket that closes a stretch which skipping takes as a whole. -/
def Token.partner? : Token → Option Token
  | .openParen => some .closeParen
  | .openBrace => some .closeBrace
  | .openBracket => some .closeBracket
  | _ => none

variable {opening closing token : Token} {line : Nat}

theorem enumConstants_brackets (hkind : opening.partner? = some closing)
    (hsquare : opening ≠ .openBracket)
    (h : skipBracketed opening closing (⟨opening, line⟩ :: ts) = .ok rest) :
    enumConstants (⟨opening, line⟩ :: ts) = enumConstants rest := by
  unfold Token.partner? at hkind
  split at hkind
  all_goals
    cases hkind
    try exact absurd rfl hsquare
  all_goals
    rw [enumConstants]
    dsimp only
    split
    · rename_i herror
      rw [h] at herror
      cases herror
    · rename_i hsame
      rw [h] at hsame
      cases hsame
      rfl

theorem enumConstants_other (hsemicolon : token ≠ .semicolon) (hclose : token ≠ .closeBrace)
    (hparen : token ≠ .openParen) (hbrace : token ≠ .openBrace) :
    enumConstants (⟨token, line⟩ :: ts) = enumConstants ts := by
  rw [enumConstants]
  dsimp only
  split
  · exact absurd rfl hsemicolon
  · exact absurd rfl hclose
  · exact absurd rfl hparen
  · exact absurd rfl hbrace
  · rfl

theorem methodRest_parens
    (h : skipBracketed .openParen .closeParen (⟨.openParen, line⟩ :: ts) = .ok rest) :
    methodRest (⟨.openParen, line⟩ :: ts) = methodRest rest := by
  rw [methodRest]
  dsimp only
  split
  · rename_i herror
    rw [h] at herror
    cases herror
  · rename_i hsame
    rw [h] at hsame
    cases hsame
    rfl

theorem methodRest_other (hsemicolon : token ≠ .semicolon) (hparen : token ≠ .openParen)
    (hbrace : token ≠ .openBrace) : methodRest (⟨token, line⟩ :: ts) = methodRest ts := by
  rw [methodRest]
  dsimp only
  split
  · exact absurd rfl hsemicolon
  · exact absurd rfl hbrace
  · exact absurd rfl hparen
  · rfl

theorem skipInitializer_brackets (hkind : opening.partner? = some closing)
    (h : skipBracketed opening closing (⟨opening, line⟩ :: ts) = .ok rest) :
    skipInitializer (⟨opening, line⟩ :: ts) = skipInitializer rest := by
  unfold Token.partner? at hkind
  split at hkind
  all_goals cases hkind
  all_goals
    rw [skipInitializer]
    dsimp only
    split
    · rename_i herror
      rw [h] at herror
      cases herror
    · rename_i hsame
      rw [h] at hsame
      cases hsame
      rfl

/-- A comma ends an initializer if a name seems to be declared behind it. -/
theorem skipInitializer_comma :
    skipInitializer (⟨.comma, line⟩ :: ts) =
      if atDeclarator ts then .ok (⟨.comma, line⟩ :: ts) else skipInitializer ts := by
  rw [skipInitializer]

theorem skipInitializer_other (hsemicolon : token ≠ .semicolon) (hcomma : token ≠ .comma)
    (hkind : token.partner? = none) :
    skipInitializer (⟨token, line⟩ :: ts) = skipInitializer ts := by
  rw [skipInitializer]
  dsimp only
  split
  · exact absurd rfl hsemicolon
  · exact absurd rfl hcomma
  · cases hkind
  · cases hkind
  · cases hkind
  · rfl

variable {name next : String} {after : Tokens}

theorem declarators_comma (h : optionalInitializer (skipDimensions ts) = .ok after)
    (hcomma : next? after = some .comma) (hnext : identifier after.tail = .ok (next, rest)) :
    declarators name ts = (declarators next rest).map fun read => (name :: read.1, read.2) := by
  rw [declarators]
  split
  · rename_i herror
    rw [h] at herror
    cases herror
  rename_i hsame
  rw [h] at hsame
  cases hsame
  rw [if_pos hcomma]
  split
  · rename_i herror
    rw [hnext] at herror
    cases herror
  rename_i hsame
  rw [hnext] at hsame
  cases hsame
  cases declarators next rest <;> rfl

theorem declarators_end (h : optionalInitializer (skipDimensions ts) = .ok after)
    (hcomma : next? after ≠ some .comma) :
    declarators name ts = (expect .semicolon after).map fun read => ([name], read.2) := by
  rw [declarators]
  split
  · rename_i herror
    rw [h] at herror
    cases herror
  rename_i hsame
  rw [h] at hsame
  cases hsame
  rw [if_neg hcomma]
  cases expect .semicolon after <;> rfl

end WireMapper.Java
