import WireMapper.Proofs.Java.Parser.Shape

/-!
The names of a field declaration. An initializer is passed over up to the semicolon of the
declaration or a comma that looks as if a further name came behind it. Which names are read is
decided by where such commas stand: the names are those of the declaration exactly if there is none
inside an initializer.
-/

namespace WireMapper.Java

variable {ts rest : Tokens} {tokens after : List Token}

/-- Tokens in which the brackets of each kind balance, with no semicolon outside of them. -/
inductive Expression : List Token → Prop where
  | nil : Expression []
  | token {token : Token} {rest : List Token} (hsemicolon : token ≠ .semicolon)
      (hkind : token.partner? = none) (hrest : Expression rest) : Expression (token :: rest)
  | group (inner : List Token) {opening closing : Token} {rest : List Token}
      (hkind : opening.partner? = some closing) (hinner : Balanced opening closing inner)
      (hrest : Expression rest) :
      Expression (opening :: (inner ++ closing :: rest))

/-- A name and a token that can come after a name that is declared. -/
def LooksDeclared (tokens : List Token) : Prop :=
  ∃ name next rest, tokens = .ident name :: next :: rest ∧
    next ∈ [Token.equals, .comma, .semicolon, .openBracket]

/-- The expression has a comma outside brackets that looks as if a further name was declared behind
it. -/
def Misleads (tokens : List Token) : Prop :=
  ∃ front back, tokens = front ++ .comma :: back ∧ Expression front ∧
    LooksDeclared (back ++ [.semicolon])

/-- The parser takes a name to be declared by looking at two tokens. -/
theorem atDeclarator_iff : atDeclarator ts = true ↔ LooksDeclared (words ts) := by
  unfold atDeclarator LooksDeclared
  rw [next?_eq_head?, second?_eq]
  constructor
  · intro h
    cases hwords : words ts with
    | nil => simp [hwords] at h
    | cons token tokens =>
        cases tokens with
        | nil => simp [hwords] at h
        | cons next rest =>
            cases token with
            | ident name =>
                refine ⟨name, next, rest, rfl, ?_⟩
                simpa [hwords, Token.isIdent, or_assoc] using h
            | _ => simp [hwords, Token.isIdent] at h
  · rintro ⟨name, next, rest, hwords, hnext⟩
    rw [hwords]
    simpa [Token.isIdent, or_assoc] using hnext

theorem partner?_ne {opening closing : Token} (h : opening.partner? = some closing) :
    opening ≠ closing := by
  unfold Token.partner? at h
  split at h <;> cases h <;> simp

theorem expression_of_token {token : Token} (hkind : token.partner? = none)
    (h : Expression (token :: tokens)) : Expression tokens := by
  cases h with
  | token _ _ hrest => exact hrest
  | group _ hkind' _ _ =>
      rw [hkind] at hkind'
      cases hkind'

/-- Outside of brackets a comma misleads by what stands right behind it. -/
theorem misleads_token_iff {token : Token} (hsemicolon : token ≠ .semicolon)
    (hkind : token.partner? = none) :
    Misleads (token :: tokens) ↔
      token = .comma ∧ LooksDeclared (tokens ++ [.semicolon]) ∨ Misleads tokens := by
  constructor
  · rintro ⟨front, back, hsplit, hfront, hback⟩
    cases front with
    | nil =>
        cases hsplit
        exact Or.inl ⟨rfl, hback⟩
    | cons first front =>
        cases hsplit
        exact Or.inr ⟨front, back, rfl, expression_of_token hkind hfront, hback⟩
  · rintro (⟨rfl, hback⟩ | ⟨front, back, rfl, hfront, hback⟩)
    · exact ⟨[], tokens, rfl, Expression.nil, hback⟩
    · exact ⟨token :: front, back, rfl, Expression.token hsemicolon hkind hfront, hback⟩

/-- Commas in brackets never mislead. -/
theorem misleads_group_iff (inner : List Token) {opening closing : Token}
    (hkind : opening.partner? = some closing) (hinner : Balanced opening closing inner) :
    Misleads (opening :: (inner ++ closing :: tokens)) ↔ Misleads tokens := by
  constructor
  · rintro ⟨front, back, hsplit, hfront, hback⟩
    cases hfront with
    | nil =>
        obtain ⟨rfl, _⟩ := List.cons.inj hsplit
        cases hkind
    | token _ hkind' _ =>
        obtain ⟨rfl, _⟩ := List.cons.inj hsplit
        rw [hkind] at hkind'
        cases hkind'
    | group _ hkind' hinner' hrest =>
        rw [List.cons_append, List.append_assoc, List.cons_append] at hsplit
        obtain ⟨rfl, hinside⟩ := List.cons.inj hsplit
        rw [hkind] at hkind'
        cases hkind'
        obtain ⟨_, rfl⟩ := hinner.closing_unique (partner?_ne hkind) hinner' hinside
        exact ⟨_, back, rfl, hrest, hback⟩
  · rintro ⟨front, back, rfl, hfront, hback⟩
    exact ⟨opening :: (inner ++ closing :: front), back, by simp,
      Expression.group inner hkind hinner hfront, hback⟩

/-- What ends an initializer: a semicolon, or a comma with a further name behind it. -/
def EndsInitializer (after : List Token) : Prop :=
  ∃ rest, after = .semicolon :: rest ∨ after = .comma :: rest ∧ LooksDeclared rest

/-- It makes no difference here whether the declaration ends behind the tokens or goes on. -/
theorem looksDeclared_append_iff (hafter : EndsInitializer after) :
    LooksDeclared (tokens ++ after) ↔ LooksDeclared (tokens ++ [.semicolon]) := by
  have hhead : ∃ next rest, after = next :: rest ∧ next.isIdent = false ∧
      next ∈ [Token.equals, .comma, .semicolon, .openBracket] := by
    rcases hafter with ⟨rest, rfl | ⟨rfl, _⟩⟩
    · exact ⟨_, rest, rfl, rfl, by simp⟩
    · exact ⟨_, rest, rfl, rfl, by simp⟩
  obtain ⟨next, rest, rfl, hident, hnext⟩ := hhead
  match tokens with
  | [] =>
      constructor
      · rintro ⟨name, _, _, hsame, _⟩
        cases hsame
        cases hident
      · rintro ⟨name, _, _, hsame, _⟩
        cases hsame
  | [first] =>
      constructor
      · rintro ⟨name, _, _, hsame, _⟩
        cases hsame
        exact ⟨name, .semicolon, [], rfl, by simp⟩
      · rintro ⟨name, _, _, hsame, _⟩
        cases hsame
        exact ⟨name, next, rest, rfl, hnext⟩
  | first :: second :: later =>
      constructor
      · rintro ⟨name, _, _, hsame, hsecond⟩
        cases hsame
        exact ⟨name, second, _, rfl, hsecond⟩
      · rintro ⟨name, _, _, hsame, hsecond⟩
        cases hsame
        exact ⟨name, second, _, rfl, hsecond⟩

/-- Where an initializer ends, nothing more is skipped. -/
theorem EndsInitializer.skipInitializer_eq (hafter : EndsInitializer after)
    (hts : words ts = after) :
    skipInitializer ts = .ok ts := by
  rcases hafter with ⟨rest, rfl | ⟨rfl, hrest⟩⟩
  · obtain ⟨line, ts, rfl, _⟩ := words_eq_cons hts
    rw [skipInitializer]
  · obtain ⟨line, ts, rfl, h₁⟩ := words_eq_cons hts
    rw [skipInitializer_comma, if_pos (atDeclarator_iff.mpr (by rwa [h₁]))]

/-- A token that is no comma behind which a name seems to be declared is passed over. -/
theorem skipInitializer_token {token : Token} {line : Nat} (hsemicolon : token ≠ .semicolon)
    (hkind : token.partner? = none) (hafter : EndsInitializer after)
    (hts : words ts = tokens ++ after)
    (hstay : ¬ (token = .comma ∧ LooksDeclared (tokens ++ [.semicolon]))) :
    skipInitializer (⟨token, line⟩ :: ts) = skipInitializer ts := by
  by_cases hcomma : token = .comma
  · subst hcomma
    rw [skipInitializer_comma, if_neg]
    rw [atDeclarator_iff, hts, looksDeclared_append_iff hafter]
    exact fun hlooks => hstay ⟨rfl, hlooks⟩
  · exact skipInitializer_other hsemicolon hcomma hkind

/-- An initializer is passed over to its end if none of its commas misleads. -/
theorem Expression.skipInitializer_eq (h : Expression tokens) (hclear : ¬ Misleads tokens)
    (hafter : EndsInitializer after) (hts : words ts = tokens ++ after) :
    ∃ rest, skipInitializer ts = .ok rest ∧ words rest = after := by
  induction h generalizing ts with
  | nil => exact ⟨ts, hafter.skipInitializer_eq hts, hts⟩
  | @token token rest hsemicolon hkind _ ih =>
      rw [misleads_token_iff hsemicolon hkind, not_or] at hclear
      obtain ⟨line, ts, rfl, h₁⟩ := words_eq_cons hts
      obtain ⟨rest', hread, hrest'⟩ := ih hclear.2 h₁
      exact ⟨rest', by rw [skipInitializer_token hsemicolon hkind hafter h₁ hclear.1, hread],
        hrest'⟩
  | group inner hkind hinner _ ih =>
      rw [misleads_group_iff inner hkind hinner] at hclear
      rw [List.cons_append, List.append_assoc, List.cons_append] at hts
      obtain ⟨ts₁, hskip, h₁⟩ := skipBracketed_of_words (partner?_ne hkind) hinner hts
      obtain ⟨rest', hread, hrest'⟩ := ih hclear h₁
      obtain ⟨line, ts₂, rfl, _⟩ := words_eq_cons hts
      exact ⟨rest', by rw [skipInitializer_brackets hkind hskip, hread], hrest'⟩

/-- If a comma of an initializer misleads, the initializer is taken to end at one of its commas. -/
theorem Expression.skipInitializer_eq_of_misleads (h : Expression tokens)
    (hmisleads : Misleads tokens) (hafter : EndsInitializer after)
    (hts : words ts = tokens ++ after) :
    ∃ rest back, skipInitializer ts = .ok rest ∧ words rest = .comma :: (back ++ after) ∧
      Expression back ∧ LooksDeclared (back ++ after) := by
  induction h generalizing ts with
  | nil =>
      obtain ⟨front, back, hsplit, _⟩ := hmisleads
      simp at hsplit
  | @token token rest hsemicolon hkind hrest ih =>
      obtain ⟨line, ts, rfl, h₁⟩ := words_eq_cons hts
      by_cases hstops : token = .comma ∧ LooksDeclared (rest ++ [.semicolon])
      · obtain ⟨rfl, hlooks⟩ := hstops
        rw [← looksDeclared_append_iff hafter] at hlooks
        refine ⟨⟨.comma, line⟩ :: ts, rest, ?_, hts, hrest, hlooks⟩
        rw [skipInitializer_comma, if_pos (atDeclarator_iff.mpr (by rwa [h₁]))]
      · have hlater := ((misleads_token_iff hsemicolon hkind).mp hmisleads).resolve_left hstops
        obtain ⟨rest', back, hread, hback⟩ := ih hlater h₁
        exact ⟨rest', back, by rw [skipInitializer_token hsemicolon hkind hafter h₁ hstops, hread],
          hback⟩
  | group inner hkind hinner _ ih =>
      rw [misleads_group_iff inner hkind hinner] at hmisleads
      rw [List.cons_append, List.append_assoc, List.cons_append] at hts
      obtain ⟨ts₁, hskip, h₁⟩ := skipBracketed_of_words (partner?_ne hkind) hinner hts
      obtain ⟨rest', back, hread, hback⟩ := ih hmisleads h₁
      obtain ⟨line, ts₂, rfl, _⟩ := words_eq_cons hts
      exact ⟨rest', back, by rw [skipInitializer_brackets hkind hskip, hread], hback⟩

/-- However far an initializer is passed over, what is left of it is an expression. -/
theorem Expression.exists_rest (h : Expression tokens) (hafter : EndsInitializer after)
    (hts : words ts = tokens ++ after) :
    ∃ rest back, skipInitializer ts = .ok rest ∧ Expression back ∧ words rest = back ++ after := by
  by_cases hmisleads : Misleads tokens
  · obtain ⟨rest, back, hread, hrest, hback, _⟩ :=
      h.skipInitializer_eq_of_misleads hmisleads hafter hts
    exact ⟨rest, .comma :: back, hread, Expression.token (by simp) rfl hback, hrest⟩
  · obtain ⟨rest, hread, hrest⟩ := h.skipInitializer_eq hmisleads hafter hts
    exact ⟨rest, [], hread, Expression.nil, hrest⟩

theorem Expression.append {tokens' : List Token} (h : Expression tokens) (h' : Expression tokens') :
    Expression (tokens ++ tokens') := by
  induction h with
  | nil => exact h'
  | token hsemicolon hkind _ ih => exact Expression.token hsemicolon hkind ih
  | group inner hkind hinner _ ih =>
      rw [List.cons_append, List.append_assoc, List.cons_append]
      exact Expression.group inner hkind hinner ih

theorem Dimensions.expression (h : Dimensions tokens) : Expression tokens := by
  induction h with
  | nil => exact Expression.nil
  | cons _ ih => exact Expression.group [] rfl (unwinds_nil_iff.mpr rfl) ih

/-- Array brackets in front of an expression leave an expression. -/
theorem Expression.words_skipDimensions (h : Expression tokens)
    (hafter : after.head? ≠ some .openBracket) (hts : words ts = tokens ++ after) :
    ∃ back, Expression back ∧ words (skipDimensions ts) = back ++ after := by
  fun_induction skipDimensions ts generalizing tokens with
  | case1 line line' ts ih =>
      cases h with
      | nil =>
          rw [List.nil_append] at hts
          rw [← hts] at hafter
          exact absurd rfl hafter
      | token _ hkind _ =>
          obtain ⟨rfl, _⟩ := List.cons.inj hts
          cases hkind
      | @group inner opening closing rest hkind hinner hrest =>
          rw [List.cons_append, List.append_assoc, List.cons_append] at hts
          obtain ⟨rfl, hinside⟩ := List.cons.inj hts
          cases hkind
          cases inner with
          | nil => exact ih hrest (List.cons.inj hinside).2
          | cons first inner =>
              obtain ⟨rfl, _⟩ := List.cons.inj hinside
              obtain ⟨_, hdepth, _⟩ := (unwinds_closing_iff (by simp)).mp hinner
              omega
  | case2 ts => exact ⟨tokens, h, hts⟩

structure Declarator where
  name : String
  dimensions : List Token
  initializer? : Option (List Token)
  hdimensions : Dimensions dimensions
  hinitializer : ∀ tokens, initializer? = some tokens → Expression tokens

namespace Declarator

def tail (d : Declarator) : List Token :=
  d.dimensions ++ d.initializer?.elim [] (.equals :: ·)

/-- A comma of the initializer looks as if a further name was declared behind it. -/
def Misleads (d : Declarator) : Prop :=
  ∃ tokens, d.initializer? = some tokens ∧ Java.Misleads tokens

def bare (d : Declarator) : Declarator where
  name := d.name
  dimensions := d.dimensions
  initializer? := none
  hdimensions := d.hdimensions
  hinitializer := by simp

theorem bare_clear (d : Declarator) : ¬ d.bare.Misleads := by
  rintro ⟨tokens, hnone, _⟩
  cases hnone

/-- What stands behind a declared name is an expression as a whole, its brackets and its equals sign
included. -/
theorem tail_expression (d : Declarator) : Expression d.tail := by
  apply d.hdimensions.expression.append
  cases hinitializer : d.initializer? with
  | none => exact Expression.nil
  | some tokens => exact Expression.token (by simp) rfl (d.hinitializer tokens hinitializer)

end Declarator

/-- The further names of a declaration, each behind a comma, and the semicolon. -/
def laterTokens : List Declarator → List Token
  | [] => [.semicolon]
  | d :: ds => .comma :: .ident d.name :: (d.tail ++ laterTokens ds)

variable {d : Declarator} {ds : List Declarator} {name : String} {names : List String}

/-- The semicolon or comma behind a declared name. -/
theorem laterTokens_head (ds : List Declarator) (after : List Token) :
    ∃ next rest, laterTokens ds ++ after = next :: rest ∧ (next = .semicolon ∨ next = .comma) := by
  cases ds with
  | nil => exact ⟨.semicolon, after, rfl, Or.inl rfl⟩
  | cons d ds => exact ⟨.comma, _, rfl, Or.inr rfl⟩

theorem laterTokens_head?_ne {token : Token} (hsemicolon : token ≠ .semicolon)
    (hcomma : token ≠ .comma) (ds : List Declarator) (after : List Token) :
    (laterTokens ds ++ after).head? ≠ some token := by
  obtain ⟨next, rest, hsplit, hnext⟩ := laterTokens_head ds after
  rw [hsplit]
  rcases hnext with rfl | rfl
  · simpa using hsemicolon.symm
  · simpa using hcomma.symm

/-- A further name looks like one, whatever comes behind it. -/
theorem Declarator.looksDeclared (d : Declarator) (ds : List Declarator) (after : List Token) :
    LooksDeclared (.ident d.name :: (d.tail ++ (laterTokens ds ++ after))) := by
  have hdimensions := d.hdimensions
  have hhead : ∃ next rest, d.tail ++ (laterTokens ds ++ after) = next :: rest ∧
      next ∈ [Token.equals, .comma, .semicolon, .openBracket] := by
    unfold Declarator.tail
    generalize d.dimensions = dimensions at hdimensions
    cases hdimensions with
    | cons hrest => exact ⟨.openBracket, _, rfl, by simp⟩
    | nil =>
        cases d.initializer? with
        | some tokens => exact ⟨.equals, _, rfl, by simp⟩
        | none =>
            obtain ⟨next, rest, hsplit, hnext⟩ := laterTokens_head ds after
            refine ⟨next, rest, hsplit, ?_⟩
            rcases hnext with rfl | rfl <;> simp
  obtain ⟨next, rest, hsplit, hnext⟩ := hhead
  exact ⟨d.name, next, rest, by rw [hsplit], hnext⟩

theorem endsInitializer_laterTokens (ds : List Declarator) (after : List Token) :
    EndsInitializer (laterTokens ds ++ after) := by
  cases ds with
  | nil => exact ⟨after, Or.inl rfl⟩
  | cons d ds =>
      refine ⟨_, Or.inr ⟨rfl, ?_⟩⟩
      simpa using d.looksDeclared ds after

/-- The initializer of a name is passed over if none of its commas misleads. -/
theorem Declarator.optionalInitializer_eq (hclear : ¬ d.Misleads)
    (hts : words ts = d.tail ++ (laterTokens ds ++ after)) :
    ∃ rest, optionalInitializer (skipDimensions ts) = .ok rest ∧
      words rest = laterTokens ds ++ after := by
  unfold Declarator.tail at hts
  rw [List.append_assoc] at hts
  cases hinitializer : d.initializer? with
  | none =>
      rw [hinitializer] at hts
      have h₁ := d.hdimensions.words_skipDimensions
        (laterTokens_head?_ne (by simp) (by simp) ds after) hts
      refine ⟨skipDimensions ts, ?_, h₁⟩
      rw [optionalInitializer, next?_eq_head?, h₁, if_neg]
      exact laterTokens_head?_ne (by simp) (by simp) ds after
  | some tokens =>
      rw [hinitializer] at hts
      have h₁ := d.hdimensions.words_skipDimensions (by simp) hts
      have hclear' : ¬ Java.Misleads tokens :=
        fun hmisleads => hclear ⟨tokens, hinitializer, hmisleads⟩
      have htail : words (skipDimensions ts).tail = tokens ++ (laterTokens ds ++ after) := by
        rw [words_tail, h₁]
        rfl
      obtain ⟨rest, hread, hrest⟩ := (d.hinitializer tokens hinitializer).skipInitializer_eq hclear'
        (endsInitializer_laterTokens ds after) htail
      refine ⟨rest, ?_, hrest⟩
      rw [optionalInitializer, next?_eq_head?, h₁, if_pos (by rfl), hread]

/-- The names of a declaration are read, whatever their initializers are, if no comma misleads. -/
theorem declarators_of_clear (hclear : ∀ other ∈ d :: ds, ¬ other.Misleads)
    (hts : words ts = d.tail ++ (laterTokens ds ++ after)) :
    ∃ rest, declarators d.name ts = .ok ((d :: ds).map (·.name), rest) ∧ words rest = after := by
  induction ds generalizing d ts with
  | nil =>
      obtain ⟨ts₁, hread, h₁⟩ := Declarator.optionalInitializer_eq (hclear d List.mem_cons_self) hts
      obtain ⟨rest, hend, hrest⟩ := reads_expect .semicolon after ts₁ h₁
      refine ⟨rest, ?_, hrest⟩
      rw [declarators_end hread (by rw [next?_eq_head?, h₁]; simp [laterTokens]), hend]
      rfl
  | cons next ds ih =>
      obtain ⟨ts₁, hread, h₁⟩ := Declarator.optionalInitializer_eq (hclear d List.mem_cons_self) hts
      obtain ⟨line, ts₂, rfl, h₂⟩ := words_eq_cons h₁
      obtain ⟨line', ts₃, rfl, h₃⟩ := words_eq_cons h₂
      obtain ⟨rest, hlater, hrest⟩ := ih
        (fun other hother => hclear other (List.mem_cons_of_mem d hother))
        (by simpa using h₃)
      refine ⟨rest, ?_, hrest⟩
      rw [declarators_comma hread rfl rfl, hlater]
      rfl

/-- Some end of the expression may be left, but the further names are. -/
theorem Expression.optionalInitializer_eq (h : Expression tokens)
    (hts : words ts = tokens ++ (laterTokens ds ++ after))
    (hread : optionalInitializer (skipDimensions ts) = .ok rest) :
    ∃ back, Expression back ∧ words rest = back ++ (laterTokens ds ++ after) := by
  obtain ⟨back, hback, h₁⟩ :=
    h.words_skipDimensions (laterTokens_head?_ne (by simp) (by simp) ds after) hts
  obtain ⟨hequals, hskip⟩ | ⟨-, rfl⟩ := optionalInitializer_eq_ok hread
  · rw [next?_eq_head?, h₁] at hequals
    cases hback with
    | nil => exact absurd hequals (laterTokens_head?_ne (by simp) (by simp) ds after)
    | @token _ tokens' _ hkind hrest =>
        have htail : words (skipDimensions ts).tail = tokens' ++ (laterTokens ds ++ after) := by
          rw [words_tail, h₁]
          rfl
        obtain ⟨rest', back, hread', hback, hrest'⟩ :=
          hrest.exists_rest (endsInitializer_laterTokens ds after) htail
        rw [hskip] at hread'
        cases hread'
        exact ⟨back, hback, hrest'⟩
    | group _ hkind _ _ =>
        cases hequals
        cases hkind
  · exact ⟨back, hback, h₁⟩

/-- In front of further names and behind any expression, these names are read at least. -/
theorem length_lt_of_declarators (h : Expression tokens)
    (hts : words ts = tokens ++ (laterTokens ds ++ after))
    (hread : declarators name ts = .ok (names, rest)) : ds.length < names.length := by
  fun_induction declarators name ts generalizing tokens ds names rest with
  | case1 => cases hread
  | case2 => cases hread
  | case3 => cases hread
  | case4 name ts after' hafter hcomma next later hnext names rest hnames ih =>
      cases hread
      obtain ⟨back, hback, h₁⟩ := h.optionalInitializer_eq hts hafter
      have hwords : words after' = .comma :: .ident next :: words later := by
        obtain ⟨line, hafter'⟩ := exists_eq_cons_of_next? hcomma
        obtain ⟨line', hlater⟩ := identifier_eq_ok hnext
        rw [hafter', hlater]
        rfl
      rw [hwords] at h₁
      cases hback with
      | nil =>
          cases ds with
          | nil => cases h₁
          | cons d ds =>
              have hlater : words later = d.tail ++ (laterTokens ds ++ after) := by
                simpa using (List.cons.inj (List.cons.inj h₁).2).2
              have hlength := ih d.tail_expression hlater hnames
              simp only [List.length_cons]
              omega
      | @token token tokens' _ hkind hrest =>
          obtain ⟨rfl, h₂⟩ := List.cons.inj h₁
          cases tokens' with
          | nil =>
              have hident : (laterTokens ds ++ after).head? ≠ some (.ident next) :=
                laterTokens_head?_ne (by simp) (by simp) ds after
              exact absurd (congrArg List.head? h₂.symm) hident
          | cons first tokens' =>
              obtain ⟨rfl, h₃⟩ := List.cons.inj h₂
              have hlength := ih (expression_of_token rfl hrest) h₃ hnames
              simp only [List.length_cons]
              omega
      | group _ hkind _ _ =>
          obtain ⟨rfl, _⟩ := List.cons.inj h₁
          cases hkind
  | case5 => cases hread
  | case6 name ts after' hafter hcomma u rest hend =>
      cases hread
      obtain ⟨back, hback, h₁⟩ := h.optionalInitializer_eq hts hafter
      have hsemicolon : (words after').head? = some .semicolon := by
        obtain ⟨line, rfl⟩ := expect_eq_ok hend
        rfl
      rw [h₁] at hsemicolon
      cases hback with
      | nil =>
          cases ds with
          | nil => simp
          | cons d ds => cases hsemicolon
      | token hne _ _ =>
          cases hsemicolon
          exact absurd rfl hne
      | group _ hkind _ _ =>
          cases hsemicolon
          cases hkind

/-- With a misleading comma more names are read than there are. -/
theorem not_misleads_of_length_le (hts : words ts = d.tail ++ (laterTokens ds ++ after))
    (hread : declarators d.name ts = .ok (names, rest)) (hlength : names.length ≤ ds.length + 1) :
    ¬ d.Misleads := by
  rintro ⟨tokens, hinitializer, hmisleads⟩
  rw [Declarator.tail, hinitializer, List.append_assoc] at hts
  have h₁ := d.hdimensions.words_skipDimensions (by simp) hts
  have htail : words (skipDimensions ts).tail = tokens ++ (laterTokens ds ++ after) := by
    rw [words_tail, h₁]
    rfl
  obtain ⟨ts₁, back, hskip, h₂, hback, hlooks⟩ :=
    (d.hinitializer tokens hinitializer).skipInitializer_eq_of_misleads hmisleads
      (endsInitializer_laterTokens ds after) htail
  have hinit : optionalInitializer (skipDimensions ts) = .ok ts₁ := by
    rw [optionalInitializer, next?_eq_head?, h₁, if_pos (by rfl), hskip]
  obtain ⟨line, ts₂, rfl, h₃⟩ := words_eq_cons h₂
  obtain ⟨next, _, _, hsplit, _⟩ := hlooks
  cases back with
  | nil =>
      have hident : (laterTokens ds ++ after).head? ≠ some (.ident next) :=
        laterTokens_head?_ne (by simp) (by simp) ds after
      exact hident (congrArg List.head? hsplit)
  | cons first back =>
      obtain ⟨rfl, _⟩ := List.cons.inj hsplit
      obtain ⟨line', ts₃, rfl, h₄⟩ := words_eq_cons h₃
      rw [declarators_comma hinit rfl rfl] at hread
      obtain ⟨read, hlater, hnames⟩ := map_eq_ok.mp hread
      cases hnames
      have hmore := length_lt_of_declarators (expression_of_token rfl hback) h₄ hlater
      simp only [List.length_cons] at hlength
      omega

/-- The names of a declaration are read exactly if no comma misleads. -/
theorem declarators_eq_ok_iff (hts : words ts = d.tail ++ (laterTokens ds ++ after)) :
    (∃ rest, declarators d.name ts = .ok ((d :: ds).map (·.name), rest) ∧ words rest = after) ↔
      ∀ other ∈ d :: ds, ¬ other.Misleads := by
  refine ⟨?_, fun hclear => declarators_of_clear hclear hts⟩
  rintro ⟨rest, hread, hrest⟩
  have hfirst := not_misleads_of_length_le hts hread (by simp)
  induction ds generalizing d ts with
  | nil => simpa using hfirst
  | cons next ds ih =>
      obtain ⟨ts₁, hinit, h₁⟩ := Declarator.optionalInitializer_eq hfirst hts
      obtain ⟨line, ts₂, rfl, h₂⟩ := words_eq_cons h₁
      obtain ⟨line', ts₃, rfl, h₃⟩ := words_eq_cons h₂
      have hlater : declarators next.name ts₃ = .ok ((next :: ds).map (·.name), rest) := by
        rw [declarators_comma hinit rfl rfl] at hread
        obtain ⟨⟨names, rest'⟩, hlater, hnames⟩ := map_eq_ok.mp hread
        simp only [List.map_cons, Prod.mk.injEq, List.cons.injEq, true_and] at hnames
        obtain ⟨rfl, rfl⟩ := hnames
        exact hlater
      have hwords : words ts₃ = next.tail ++ (laterTokens ds ++ after) := by simpa using h₃
      have hnext := ih hwords hlater (not_misleads_of_length_le hwords hlater (by simp))
      intro other hother
      rcases List.mem_cons.mp hother with rfl | hother
      · exact hfirst
      · exact hnext other hother

end WireMapper.Java
