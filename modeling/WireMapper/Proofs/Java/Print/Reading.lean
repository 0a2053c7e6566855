import WireMapper.Java.Parser.Unit
import WireMapper.Proofs.Java.Print.Lexing

/-!
Reading printed tokens. A reader reads a value from tokens in front of others when it returns the
value and leaves the others, on whatever lines the tokens stand. Where a reader looks further than
it takes, what comes after has to be told apart from what could go on with it.
-/

namespace WireMapper.Java

/-- The reader takes `tokens` before `after` and reads the value from them. -/
def Reads {α : Type} (reader : Tokens → Reading α) (tokens : List Token) (value : α)
    (after : List Token) : Prop :=
  ∀ ts, words ts = tokens ++ after → ∃ rest, reader ts = .ok (value, rest) ∧ words rest = after

variable {ts : Tokens} {after : List Token}

theorem next?_eq_head? (ts : Tokens) : next? ts = (words ts).head? := by
  simp [next?, words]

theorem words_tail (ts : Tokens) : words ts.tail = (words ts).tail := by
  simp [words]

theorem second?_eq (ts : Tokens) : second? ts = (words ts).tail.head? := by
  rw [second?, next?_eq_head?, words_tail]

/-- Whatever line it stands on, the first token can be split off. -/
theorem words_eq_cons {token : Token} (h : words ts = token :: after) :
    ∃ line rest, ts = ⟨token, line⟩ :: rest ∧ words rest = after := by
  cases ts with
  | nil => cases h
  | cons t rest =>
      cases t with
      | mk token' line =>
          cases h
          exact ⟨line, rest, rfl, rfl⟩

theorem reads_expect (token : Token) (after : List Token) :
    Reads (expect token) [token] () after := by
  intro ts h
  obtain ⟨line, rest, rfl, hrest⟩ := words_eq_cons h
  exact ⟨rest, by simp [expect, next?], hrest⟩

theorem reads_identifier (text : String) (after : List Token) :
    Reads identifier [.ident text] text after := by
  intro ts h
  obtain ⟨line, rest, rfl, hrest⟩ := words_eq_cons h
  exact ⟨rest, rfl, hrest⟩

/-- What comes after a name does not go on with it. -/
def EndsName (after : List Token) : Prop :=
  ∀ text rest, after ≠ .dot :: .ident text :: rest

theorem endsName_of_head {token : Token} (h : token ≠ .dot) : EndsName (token :: after) := by
  intro text rest hsame
  cases hsame
  exact h rfl

theorem dottedTokens_cons (segment : String) (segments : List String) :
    dottedTokens (segment :: segments) =
      .ident segment :: segments.flatMap fun other => [.dot, .ident other] := by
  induction segments generalizing segment with
  | nil => rfl
  | cons next segments ih => simp [dottedTokens, ih]

theorem dottedNames_of_endsName (hafter : EndsName after) (h : words ts = after) :
    dottedNames ts = ([], ts) := by
  unfold dottedNames
  split
  · rename_i line text line' ts'
    exact absurd h.symm (hafter text (words ts'))
  · rfl

/-- Segments are read as long as a dot and a name follow. -/
theorem dottedNames_of_words {segments : List String} (hafter : EndsName after)
    (h : words ts = (segments.flatMap fun segment => [Token.dot, .ident segment]) ++ after) :
    ∃ rest, dottedNames ts = (segments, rest) ∧ words rest = after := by
  induction segments generalizing ts with
  | nil => exact ⟨ts, dottedNames_of_endsName hafter h, h⟩
  | cons segment segments ih =>
      obtain ⟨line, ts₁, rfl, h₁⟩ := words_eq_cons h
      obtain ⟨line', ts₂, rfl, h₂⟩ := words_eq_cons h₁
      obtain ⟨rest, hnames, hrest⟩ := ih h₂
      exact ⟨rest, by simp [dottedNames, hnames], hrest⟩

/-- A dotted name is read back from the tokens of its segments. -/
theorem reads_qualifiedName (name : String) (hafter : EndsName after) :
    Reads qualifiedName (nameTokens name) name after := by
  intro ts h
  cases hsplit : Text.split '.' name with
  | nil => exact absurd hsplit (Text.split_ne_nil '.' name)
  | cons first segments =>
      rw [nameTokens, hsplit, dottedTokens_cons] at h
      obtain ⟨ts₁, hfirst, h₁⟩ := reads_identifier first _ ts h
      obtain ⟨rest, hnames, hrest⟩ := dottedNames_of_words hafter h₁
      refine ⟨rest, ?_, hrest⟩
      simp only [qualifiedName, hfirst, hnames]
      rw [← hsplit, Text.join_split]

theorem skipOptional_of_words {opening closing : Token} (h : (words ts).head? ≠ some opening) :
    skipOptional opening closing ts = .ok ts := by
  rw [skipOptional, next?_eq_head?, if_neg h]

/-- Words that are not reserved are no modifiers. -/
theorem add?_eq_none {word : String} (m : Modifiers) (h : word ∉ reservedWords) :
    m.add? word = none := by
  unfold Modifiers.add?
  split
  · exact absurd (by decide) h
  · exact absurd (by decide) h
  · exact absurd (by decide) h
  · exact absurd (by decide) h
  · refine if_neg fun hplain => h ?_
    have hall : ∀ plain ∈ plainModifiers, plain ∈ reservedWords := by decide
    exact hall word hplain

theorem afterNonSealed?_eq_none (h : second? ts ≠ some (.other '-')) :
    afterNonSealed? ts = none := by
  unfold afterNonSealed?
  split
  · simp [second?, next?] at h
  · rfl

/-- A word that is no modifier ends the modifiers, unless it could be the start of `non-sealed`. -/
theorem modifiersFrom_of_word {m : Modifiers} {word : String} (hword : m.add? word = none)
    (hnext : after.head? ≠ some (.other '-')) (h : words ts = .ident word :: after) :
    modifiersFrom m ts = .ok (m, ts) := by
  have hsealed : afterNonSealed? ts = none := by
    apply afterNonSealed?_eq_none
    rw [second?_eq, h]
    exact hnext
  obtain ⟨line, rest, rfl, _⟩ := words_eq_cons h
  rw [modifiersFrom]
  simp only [hword]
  split
  · rename_i hsome
    rw [hsealed] at hsome
    cases hsome
  · rfl

/-- The sign in front of `interface` is not that of an annotation. -/
theorem modifiersFrom_of_annotationType {m : Modifiers}
    (h : words ts = .atSign :: .ident "interface" :: after) : modifiersFrom m ts = .ok (m, ts) := by
  obtain ⟨line, rest, rfl, hrest⟩ := words_eq_cons h
  rw [modifiersFrom]
  simp only [next?_eq_head?, hrest, List.head?_cons, ↓reduceIte]

theorem modifiersFrom_of_modifier {m m' : Modifiers} {word : String} {line : Nat}
    (hword : m.add? word = some m') :
    modifiersFrom m (⟨.ident word, line⟩ :: ts) = modifiersFrom m' ts := by
  rw [modifiersFrom]
  simp only [hword]

def Visibility.written? : Visibility → Option Visibility
  | package => none
  | v => some v

/-- The modifiers of a field, before the word for its type. -/
theorem modifiers_of_field (field : FieldDecl) (after : List Token)
    (h : words ts = field.modifierTokens ++ .ident "int" :: .ident field.name :: after) :
    ∃ rest, modifiers ts = .ok (⟨field.visibility.written?, field.isStatic⟩, rest) ∧
      words rest = .ident "int" :: .ident field.name :: after := by
  obtain ⟨name, visibility, isStatic⟩ := field
  have hint : ∀ (m : Modifiers) (rest : Tokens),
      words rest = .ident "int" :: .ident name :: after → modifiersFrom m rest = .ok (m, rest) :=
    fun m rest hrest => modifiersFrom_of_word rfl (by simp) hrest
  have hstatic : ∀ (v : Option Visibility) (rest : Tokens),
      words rest = (if isStatic then [Token.ident "static"] else []) ++
        .ident "int" :: .ident name :: after →
      ∃ rest', modifiersFrom ⟨v, false⟩ rest = .ok (⟨v, isStatic⟩, rest') ∧
        words rest' = .ident "int" :: .ident name :: after := by
    intro v rest hrest
    cases isStatic with
    | true =>
        obtain ⟨line, rest', rfl, hrest'⟩ := words_eq_cons hrest
        exact ⟨rest', by rw [modifiersFrom_of_modifier rfl, hint _ rest' hrest'], hrest'⟩
    | false => exact ⟨rest, hint _ rest hrest, hrest⟩
  simp only [FieldDecl.modifierTokens, List.append_assoc] at h
  rw [modifiers]
  cases visibility with
  | package => exact hstatic none ts h
  | public_ =>
      obtain ⟨line, rest, rfl, hrest⟩ := words_eq_cons h
      rw [modifiersFrom_of_modifier rfl]
      exact hstatic (some .public_) rest hrest
  | protected_ =>
      obtain ⟨line, rest, rfl, hrest⟩ := words_eq_cons h
      rw [modifiersFrom_of_modifier rfl]
      exact hstatic (some .protected_) rest hrest
  | private_ =>
      obtain ⟨line, rest, rfl, hrest⟩ := words_eq_cons h
      rw [modifiersFrom_of_modifier rfl]
      exact hstatic (some .private_) rest hrest

/-- What comes after a type is a name or an opening brace. -/
def EndsType (after : List Token) : Prop :=
  ∃ token rest, after = token :: rest ∧ (token.isIdent = true ∨ token = .openBrace)

theorem EndsType.head?_ne (h : EndsType after) {token : Token}
    (hident : token.isIdent = false) (hbrace : token ≠ .openBrace) : after.head? ≠ some token := by
  obtain ⟨first, rest, rfl, hfirst⟩ := h
  intro hsame
  cases hsame
  rcases hfirst with hfirst | hfirst
  · rw [hident] at hfirst
    cases hfirst
  · exact hbrace hfirst

theorem EndsType.endsName (h : EndsType after) : EndsName after := by
  intro text rest hsame
  have hdot : after.head? ≠ some .dot := h.head?_ne rfl (by simp)
  exact hdot (by simp [hsame])

theorem typeSegments_of_words (hafter : EndsName after) (h : words ts = after) :
    typeSegments ts = .ok ([], ts) := by
  rw [typeSegments.eq_def]
  split
  · rename_i line text line' ts'
    exact absurd h.symm (hafter text (words ts'))
  · rfl

theorem skipDimensions_of_words (h : (words ts).head? ≠ some .openBracket) :
    skipDimensions ts = ts := by
  unfold skipDimensions
  split
  · simp [words] at h
  · rfl

theorem skipDots_of_words (h : (words ts).head? ≠ some .dot) : skipDots ts = ts := by
  unfold skipDots
  split
  · simp [words] at h
  · rfl

/-- A type without arguments, dimensions and annotations is read as its dotted name. -/
theorem reads_typeName (name : String)
    (hname : ∀ segment ∈ Text.split '.' name, ∀ m : Modifiers, m.add? segment = none)
    (hafter : EndsType after) : Reads typeName (nameTokens name) name after := by
  intro ts h
  have hmodifiers : modifiers ts = .ok (⟨none, false⟩, ts) := by
    cases hsplit : Text.split '.' name with
    | nil => exact absurd hsplit (Text.split_ne_nil '.' name)
    | cons first segments =>
        rw [nameTokens, hsplit, dottedTokens_cons] at h
        refine modifiersFrom_of_word (hname first (by simp [hsplit]) _) ?_ h
        cases segments with
        | nil => exact hafter.head?_ne rfl (by simp)
        | cons next segments => simp
  obtain ⟨rest, hqualified, hrest⟩ := reads_qualifiedName name hafter.endsName ts h
  have hdots : (words rest).head? ≠ some .dot := by
    rw [hrest]
    exact hafter.head?_ne rfl (by simp)
  have hbrackets : (words rest).head? ≠ some .openBracket := by
    rw [hrest]
    exact hafter.head?_ne rfl (by simp)
  have harguments : (words rest).head? ≠ some .less := by
    rw [hrest]
    exact hafter.head?_ne rfl (by simp)
  refine ⟨rest, ?_, hrest⟩
  simp only [typeName, hmodifiers, hqualified, skipOptional_of_words harguments,
    typeSegments_of_words hafter.endsName hrest, skipDimensions_of_words hbrackets,
    skipDots_of_words hdots]
  simp [Text.join, Text.joinChars]

end WireMapper.Java
