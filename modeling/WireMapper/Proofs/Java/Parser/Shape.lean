import WireMapper.Proofs.Java.Parser.Brackets
import WireMapper.Proofs.Java.Parser.Steps

/-!
The front of a member as tokens: its modifiers and annotations, and its type with type arguments at
any segment and array brackets. Both are read to their end, and the modifiers say what they say one
by one.
-/

namespace WireMapper.Java

variable {ts : Tokens} {tokens after : List Token} {opening closing : Token}

/-- Nothing, or one balanced stretch with its brackets. -/
inductive Arguments (opening closing : Token) : List Token → Prop where
  | absent : Arguments opening closing []
  | bracketed (inner : List Token) (hinner : Balanced opening closing inner) :
      Arguments opening closing (opening :: (inner ++ [closing]))

/-- A stretch in brackets is skipped; none is skipped if none starts here. -/
theorem Arguments.skipOptional_eq (hne : opening ≠ closing) (h : Arguments opening closing tokens)
    (hafter : tokens = [] → after.head? ≠ some opening) (hts : words ts = tokens ++ after) :
    ∃ rest, skipOptional opening closing ts = .ok rest ∧ words rest = after := by
  cases h with
  | absent =>
      refine ⟨ts, skipOptional_of_words ?_, hts⟩
      rw [hts]
      exact hafter rfl
  | bracketed inner hinner =>
      rw [List.cons_append, List.append_assoc, List.singleton_append] at hts
      obtain ⟨rest, hskip, hrest⟩ := skipBracketed_of_words hne hinner hts
      refine ⟨rest, ?_, hrest⟩
      rw [skipOptional, next?_eq_head?, hts, if_pos (List.head?_cons ..), hskip]

/-- The tokens behind an opening bracket, if there is one, do not go on with a name. -/
theorem Arguments.endsName (hdot : opening ≠ .dot) (h : Arguments opening closing tokens)
    (hafter : tokens = [] → EndsName after) : EndsName (tokens ++ after) := by
  cases h with
  | absent => exact hafter rfl
  | bracketed inner hinner => exact endsName_of_head hdot

/-- The tokens are modifiers and annotations, and with them `m` becomes `m'`. -/
inductive Modify : Modifiers → List Token → Modifiers → Prop where
  | nil (m : Modifiers) : Modify m [] m
  | word {m m₁ m' : Modifiers} {word : String} {rest : List Token} (hword : m.add? word = some m₁)
      (hrest : Modify m₁ rest m') : Modify m (.ident word :: rest) m'
  | nonSealed {m m' : Modifiers} {rest : List Token} (hrest : Modify m rest m') :
      Modify m (.ident "non" :: .other '-' :: .ident "sealed" :: rest) m'
  | annotated {m m' : Modifiers} {first : String} {names : List String}
      {arguments rest : List Token} (hfirst : first ≠ "interface")
      (harguments : Arguments .openParen .closeParen arguments) (hrest : Modify m rest m') :
      Modify m (.atSign :: .ident first ::
        ((names.flatMap fun name => [.dot, .ident name]) ++ (arguments ++ rest))) m'

/-- Modifiers are taken one after another. -/
theorem Modify.append {m m₁ m' : Modifiers} {tokens' : List Token} (h : Modify m tokens m₁)
    (h' : Modify m₁ tokens' m') : Modify m (tokens ++ tokens') m' := by
  induction h with
  | nil => exact h'
  | word hword hrest ih => exact .word hword (ih h')
  | nonSealed hrest ih => exact .nonSealed (ih h')
  | annotated hfirst harguments hrest ih =>
      simp only [List.cons_append, List.append_assoc]
      exact .annotated hfirst harguments (ih h')

/-- What comes after modifiers is no further one and goes on with no annotation. -/
structure EndsModifiers (after : List Token) : Prop where
  name : EndsName after
  arguments : after.head? ≠ some .openParen
  stays : ∀ (m : Modifiers) (ts : Tokens), words ts = after → modifiersFrom m ts = .ok (m, ts)

/-- A word that is no modifier ends them, unless it is the start of `non-sealed`. -/
theorem endsModifiers_of_word {word : String} (hword : ∀ m : Modifiers, m.add? word = none)
    (hafter : after.head? ≠ some (.other '-')) : EndsModifiers (.ident word :: after) where
  name := endsName_of_head (by simp)
  arguments := by simp
  stays m _ hts := modifiersFrom_of_word (hword m) hafter hts

theorem endsModifiers_of_mark {token : Token} (hident : token.isIdent = false)
    (hmark : token ≠ .atSign ∧ token ≠ .dot ∧ token ≠ .openParen) :
    EndsModifiers (token :: after) where
  name := endsName_of_head hmark.2.1
  arguments := by simpa using hmark.2.2
  stays m ts hts := by
    have hnext : next? ts = some token := by rw [next?_eq_head?, hts, List.head?_cons]
    apply modifiersFrom_end
    · intro word hword
      rw [hnext] at hword
      cases hword
      cases hident
    · intro hsign
      rw [hnext] at hsign
      exact absurd (Option.some.inj hsign) hmark.1

theorem Modify.endsName {m m' : Modifiers} (h : Modify m tokens m') (hafter : EndsName after) :
    EndsName (tokens ++ after) := by
  cases h with
  | nil => exact hafter
  | word hword hrest => exact endsName_of_head (by simp)
  | nonSealed hrest => exact endsName_of_head (by simp)
  | annotated hfirst harguments hrest => exact endsName_of_head (by simp)

theorem Modify.head?_ne {m m' : Modifiers} {token : Token} (h : Modify m tokens m')
    (hident : token.isIdent = false) (hsign : token ≠ .atSign) (hafter : after.head? ≠ some token) :
    (tokens ++ after).head? ≠ some token := by
  have hword : ∀ word, some (Token.ident word) ≠ some token := by
    rintro word ⟨⟩
    cases hident
  cases h with
  | nil => exact hafter
  | word _ _ => exact hword _
  | nonSealed _ => exact hword _
  | annotated _ _ _ => simpa using hsign.symm

/-- Modifiers are read to their end. -/
theorem Modify.reads {m m' : Modifiers} (h : Modify m tokens m') (hafter : EndsModifiers after) :
    Reads (modifiersFrom m) tokens m' after := by
  induction h with
  | nil m => exact fun ts hts => ⟨ts, hafter.stays m ts hts, hts⟩
  | word hword hrest ih =>
      intro ts hts
      obtain ⟨line, ts₁, rfl, h₁⟩ := words_eq_cons hts
      obtain ⟨rest, hread, hrest⟩ := ih ts₁ h₁
      exact ⟨rest, by rw [modifiersFrom_of_modifier hword, hread], hrest⟩
  | nonSealed hrest ih =>
      intro ts hts
      obtain ⟨line, ts₁, rfl, h₁⟩ := words_eq_cons hts
      obtain ⟨_, ts₂, rfl, h₂⟩ := words_eq_cons h₁
      obtain ⟨_, ts₃, rfl, h₃⟩ := words_eq_cons h₂
      obtain ⟨rest, hread, hrest⟩ := ih ts₃ h₃
      exact ⟨rest, by rw [modifiersFrom_nonSealed rfl rfl, hread], hrest⟩
  | @annotated m m' first names arguments rest hfirst harguments hmodify ih =>
      intro ts hts
      simp only [List.cons_append, List.append_assoc] at hts
      obtain ⟨line, ts₁, rfl, h₁⟩ := words_eq_cons hts
      obtain ⟨line', ts₂, rfl, h₂⟩ := words_eq_cons h₁
      have hname : EndsName (arguments ++ (rest ++ after)) :=
        harguments.endsName (by simp) fun _ => hmodify.endsName hafter.name
      obtain ⟨ts₃, hnames, h₃⟩ := dottedNames_of_words hname h₂
      obtain ⟨ts₄, hskip, h₄⟩ := harguments.skipOptional_eq (by simp)
        (fun _ => hmodify.head?_ne rfl (by simp) hafter.arguments) h₃
      obtain ⟨rest', hread, hrest'⟩ := ih ts₄ h₄
      refine ⟨rest', ?_, hrest'⟩
      have huse : skipAnnotationUse (⟨.atSign, line⟩ :: ⟨.ident first, line'⟩ :: ts₂) =
          .ok ts₄ := by
        simp [skipAnnotationUse, expect, next?, qualifiedName, identifier, hnames, hskip]
      rw [modifiersFrom_annotated ?_ huse, hread]
      simpa [next?] using hfirst

inductive LaterSegments : List Token → Prop where
  | nil : LaterSegments []
  | cons {name : String} {arguments rest : List Token}
      (harguments : Arguments .less .greater arguments) (hrest : LaterSegments rest) :
      LaterSegments (.dot :: .ident name :: (arguments ++ rest))

inductive Dimensions : List Token → Prop where
  | nil : Dimensions []
  | cons {rest : List Token} (hrest : Dimensions rest) :
      Dimensions (.openBracket :: .closeBracket :: rest)

/-- The type of a member. It starts with no modifier and with no word that starts a declaration. -/
inductive MemberType : List Token → Prop where
  | mk {first : String} {arguments segments dimensions : List Token}
      (hmodifier : ∀ m : Modifiers, m.add? first = none)
      (hdecl : first ∉ ["class", "interface", "enum", "record"])
      (harguments : Arguments .less .greater arguments) (hsegments : LaterSegments segments)
      (hdimensions : Dimensions dimensions) :
      MemberType (.ident first :: (arguments ++ (segments ++ dimensions)))

/-- What comes after the type of a member is a name or a parameter list. -/
def EndsMemberType (after : List Token) : Prop :=
  ∃ token rest, after = token :: rest ∧ (token.isIdent = true ∨ token = .openParen)

theorem EndsMemberType.head?_ne (h : EndsMemberType after) {token : Token}
    (hident : token.isIdent = false) (hparen : token ≠ .openParen) : after.head? ≠ some token := by
  obtain ⟨first, rest, rfl, hfirst⟩ := h
  intro hsame
  cases hsame
  rcases hfirst with hfirst | hfirst
  · rw [hident] at hfirst
    cases hfirst
  · exact hparen hfirst

theorem endsName_of_head? (h : after.head? ≠ some .dot) : EndsName after := by
  rintro text rest rfl
  exact h rfl

theorem Dimensions.head?_ne (h : Dimensions tokens) {token : Token} (htoken : token ≠ .openBracket)
    (hafter : after.head? ≠ some token) : (tokens ++ after).head? ≠ some token := by
  cases h with
  | nil => exact hafter
  | cons hrest => simpa using htoken.symm

/-- All pairs of array brackets are skipped. -/
theorem Dimensions.words_skipDimensions (h : Dimensions tokens)
    (hafter : after.head? ≠ some .openBracket) (hts : words ts = tokens ++ after) :
    words (skipDimensions ts) = after := by
  induction h generalizing ts with
  | nil =>
      rw [skipDimensions_of_words]
      · exact hts
      · rw [hts]
        exact hafter
  | cons _ ih =>
      obtain ⟨_, ts₁, rfl, h₁⟩ := words_eq_cons hts
      obtain ⟨_, ts₂, rfl, h₂⟩ := words_eq_cons h₁
      rw [skipDimensions]
      exact ih h₂

theorem LaterSegments.head?_ne (h : LaterSegments tokens) {token : Token} (htoken : token ≠ .dot)
    (hafter : after.head? ≠ some token) : (tokens ++ after).head? ≠ some token := by
  cases h with
  | nil => exact hafter
  | cons harguments hrest => simpa using htoken.symm

/-- All later segments are taken. -/
theorem LaterSegments.typeSegments_eq (h : LaterSegments tokens) (hname : EndsName after)
    (hless : after.head? ≠ some .less) (hts : words ts = tokens ++ after) :
    ∃ names rest, typeSegments ts = .ok (names, rest) ∧ words rest = after := by
  induction h generalizing ts with
  | nil => exact ⟨[], ts, typeSegments_of_words hname hts, hts⟩
  | cons harguments hrest ih =>
      simp only [List.cons_append, List.append_assoc] at hts
      obtain ⟨_, ts₁, rfl, h₁⟩ := words_eq_cons hts
      obtain ⟨_, ts₂, rfl, h₂⟩ := words_eq_cons h₁
      obtain ⟨ts₃, hskip, h₃⟩ := harguments.skipOptional_eq (by simp)
        (fun _ => hrest.head?_ne (by simp) hless) h₂
      obtain ⟨names, rest, hread, hrest⟩ := ih h₃
      exact ⟨_ :: names, rest, by rw [typeSegments_cons hskip, hread]; rfl, hrest⟩

/-- The names of a type up to its first type arguments are read in one go. -/
theorem LaterSegments.dottedNames_eq (h : LaterSegments tokens) (hname : EndsName after)
    (hts : words ts = tokens ++ after) :
    ∃ names rest arguments later, dottedNames ts = (names, rest) ∧
      words rest = arguments ++ (later ++ after) ∧ Arguments .less .greater arguments ∧
      LaterSegments later ∧ (arguments = [] → later = []) := by
  induction h generalizing ts with
  | nil =>
      have hread := dottedNames_of_endsName hname hts
      exact ⟨[], ts, [], [], hread, hts, Arguments.absent, LaterSegments.nil, fun _ => rfl⟩
  | @cons name arguments rest harguments hrest ih =>
      simp only [List.cons_append, List.append_assoc] at hts
      obtain ⟨_, ts₁, rfl, h₁⟩ := words_eq_cons hts
      obtain ⟨_, ts₂, rfl, h₂⟩ := words_eq_cons h₁
      cases harguments with
      | absent =>
          obtain ⟨names, ts₃, arguments, later, hread, hlater⟩ := ih h₂
          exact ⟨name :: names, ts₃, arguments, later, by rw [dottedNames, hread], hlater⟩
      | bracketed inner hinner =>
          have hstay := dottedNames_of_endsName (endsName_of_head (by simp)) h₂
          exact ⟨[name], ts₂, _, rest, by rw [dottedNames, hstay], h₂,
            Arguments.bracketed _ hinner, hrest, by simp⟩

theorem MemberType.exists_next (h : MemberType tokens) (hts : words ts = tokens ++ after) :
    ∃ first, next? ts = some (.ident first) := by
  obtain @⟨first, _, _, _, _, _, _, _, _⟩ := h
  exact ⟨first, by rw [next?_eq_head?, hts]; rfl⟩

/-- The second token of a type and what comes after it. -/
theorem MemberType.second_ne (h : MemberType tokens) {token : Token} (hless : token ≠ .less)
    (hdot : token ≠ .dot) (hsquare : token ≠ .openBracket) (hafter : after.head? ≠ some token) :
    (tokens ++ after).tail.head? ≠ some token := by
  obtain @⟨first, arguments, segments, dimensions, _, _, harguments, hsegments, hdimensions⟩ := h
  simp only [List.cons_append, List.append_assoc, List.tail_cons]
  cases harguments with
  | absent => exact hsegments.head?_ne hdot (hdimensions.head?_ne hsquare hafter)
  | bracketed inner hinner => simpa using hless.symm

/-- Where a type starts, modifiers end. -/
theorem MemberType.endsModifiers_of_head (h : MemberType tokens)
    (hafter : after.head? ≠ some (.other '-')) : EndsModifiers (tokens ++ after) := by
  have hdash : (tokens ++ after).tail.head? ≠ some (.other '-') :=
    h.second_ne (by simp) (by simp) (by simp) hafter
  obtain @⟨first, arguments, segments, dimensions, hmodifier, _, _, _, _⟩ := h
  exact endsModifiers_of_word hmodifier hdash

/-- Where the type of a member starts, no type declaration does. -/
theorem MemberType.atTypeDecl_eq (h : MemberType tokens) (hts : words ts = tokens ++ after) :
    atTypeDecl ts = false := by
  obtain @⟨first, _, _, _, _, hdecl, _, _, _⟩ := h
  have hnext : next? ts = some (.ident first) := by
    rw [next?_eq_head?, hts]
    rfl
  simp only [List.mem_cons, List.not_mem_nil, or_false, not_or] at hdecl
  obtain ⟨hclass, hinterface, henum, hrecord⟩ := hdecl
  unfold atTypeDecl
  rw [hnext]
  split
  · rename_i hsame
    cases hsame
  · rename_i hsame
    cases hsame
    exact absurd rfl hrecord
  · rename_i hsame
    cases hsame
    simp [hclass, hinterface, henum]
  · rfl

/-- What comes after a type neither goes on with it nor makes its first word a modifier. -/
structure StopsType (after : List Token) : Prop where
  name : EndsName after
  less : after.head? ≠ some .less
  square : after.head? ≠ some .openBracket
  dash : after.head? ≠ some (.other '-')

/-- A name or a parameter list does not go on with a type. -/
theorem EndsMemberType.stopsType (h : EndsMemberType after) : StopsType after where
  name := endsName_of_head? (h.head?_ne rfl (by simp))
  less := h.head?_ne rfl (by simp)
  square := h.head?_ne rfl (by simp)
  dash := h.head?_ne rfl (by simp)

theorem words_skipDots (ts : Tokens) : words (skipDots ts) = (words ts).dropWhile (· = .dot) := by
  fun_induction skipDots ts with
  | case1 line ts ih => simpa [words] using ih
  | case2 ts hdot =>
      cases ts with
      | nil => rfl
      | cons t ts =>
          obtain ⟨token, line⟩ := t
          have hne : token ≠ .dot := by
            rintro rfl
            exact hdot line ts rfl
          simp [words, hne]

/-- A type is read up to what stops it, and dots are skipped behind it. -/
theorem MemberType.typeName_stops (h : MemberType tokens) (hafter : StopsType after)
    (hts : words ts = tokens ++ after) :
    ∃ name rest, typeName ts = .ok (name, rest) ∧ words rest = after.dropWhile (· = .dot) := by
  have hmodifiers := (h.endsModifiers_of_head hafter.dash).stays ⟨none, false⟩ ts hts
  obtain @⟨first, arguments, segments, dimensions, _, _, harguments, hsegments, hdimensions⟩ := h
  simp only [List.cons_append, List.append_assoc] at hts
  have hname : EndsName (dimensions ++ after) := by
    cases hdimensions with
    | nil => exact hafter.name
    | cons hrest => exact endsName_of_head (by simp)
  have hless : (dimensions ++ after).head? ≠ some .less :=
    hdimensions.head?_ne (by simp) hafter.less
  obtain ⟨line, ts₁, rfl, h₁⟩ := words_eq_cons hts
  -- The first segment with type arguments ends the qualified name.
  obtain ⟨names, ts₂, arguments', later, hnames, h₂, harguments', hlater, hnone⟩ :
      ∃ names rest arguments' later, dottedNames ts₁ = (names, rest) ∧
        words rest = arguments' ++ (later ++ (dimensions ++ after)) ∧
        Arguments .less .greater arguments' ∧ LaterSegments later ∧
            (arguments' = [] → later = []) := by
    cases harguments with
    | absent => exact hsegments.dottedNames_eq hname h₁
    | bracketed inner hinner =>
        have hstay := dottedNames_of_endsName (endsName_of_head (by simp)) h₁
        exact ⟨[], ts₁, _, segments, hstay, h₁, Arguments.bracketed _ hinner, hsegments, by simp⟩
  obtain ⟨ts₃, hskip, h₃⟩ := harguments'.skipOptional_eq (by simp)
    (fun hnil => by rw [hnone hnil]; exact hless) h₂
  obtain ⟨names', ts₄, hread, h₄⟩ := hlater.typeSegments_eq hname hless h₃
  have h₅ := hdimensions.words_skipDimensions hafter.square h₄
  refine ⟨Text.join '.' (Text.join '.' (first :: names) :: names'),
    skipDots (skipDimensions ts₄), ?_, ?_⟩
  · simp only [typeName, modifiers, hmodifiers, qualifiedName, identifier, hnames, hskip, hread]
  · rw [words_skipDots, h₅]

/-- Annotations in front of a type are read with it. -/
theorem MemberType.typeName_stops_of_modify {m : Modifiers} {annotations : List Token}
    (h : MemberType tokens) (hannotations : Modify ⟨none, false⟩ annotations m)
    (hafter : StopsType after) (hts : words ts = annotations ++ (tokens ++ after)) :
    ∃ name rest, typeName ts = .ok (name, rest) ∧ words rest = after.dropWhile (· = .dot) := by
  have hend := h.endsModifiers_of_head hafter.dash
  obtain ⟨ts₁, hmodifiers, h₁⟩ := hannotations.reads hend ts hts
  obtain ⟨name, rest, hread, hrest⟩ := h.typeName_stops hafter h₁
  refine ⟨name, rest, ?_, hrest⟩
  rw [← hread]
  simp only [typeName, modifiers, hmodifiers, hend.stays ⟨none, false⟩ ts₁ h₁]

theorem EndsMemberType.dropWhile_eq (h : EndsMemberType after) :
    after.dropWhile (· = .dot) = after := by
  obtain ⟨token, after, rfl, htoken⟩ := h
  have hdot : token ≠ .dot := by
    rintro rfl
    rcases htoken with htoken | htoken <;> cases htoken
  simp [hdot]

end WireMapper.Java
