import WireMapper.Proofs.Java.Parser.AfterType
import WireMapper.Proofs.Java.Parser.Declarators
import WireMapper.Proofs.Java.Parser.Failing

/-!
Field declarations in a unit. A declaration adds its names to the type it stands in, with the
visibility and the static flag that its modifiers give, whatever the initializers are; unless a
comma in one of them looks as if a further name came behind it.
-/

namespace WireMapper.Java

variable {kind : TypeKind} {name : String} {ts rest : Tokens} {mods type after : List Token}
  {m : Modifiers} {d : Declarator} {ds : List Declarator}

def declarationTokens (mods type : List Token) (d : Declarator) (ds : List Declarator) :
    List Token :=
  mods ++ (type ++ .ident d.name :: (d.tail ++ laterTokens ds))

def declaredFields (kind : TypeKind) (m : Modifiers) (names : List String) : List FieldDecl :=
  names.map (⟨·, fieldVisibility kind m, fieldIsStatic kind m⟩)

/-- Declared fields have the names that they are declared with. -/
theorem declaredFields_injective : Function.Injective (declaredFields kind m) := by
  apply List.map_injective_iff.mpr
  intro name name' hsame
  exact congrArg FieldDecl.name hsame

/-- Behind its type a declaration is a matter of its names. -/
theorem afterType_of_declaration (kind : TypeKind) (m : Modifiers)
    (hts : words ts = .ident d.name :: (d.tail ++ (laterTokens ds ++ after))) :
    ∃ ts₁, words ts₁ = d.tail ++ (laterTokens ds ++ after) ∧
      afterType kind m ts = (declarators d.name ts₁).map fun read =>
        (declaredFields kind m read.1, read.2) := by
  obtain ⟨line, ts₁, rfl, h₁⟩ := words_eq_cons hts
  have hparen : next? ts₁ ≠ some .openParen := by
    rw [next?_eq_head?, h₁]
    obtain ⟨_, next, _, hsplit, hnext⟩ := d.looksDeclared ds after
    rw [(List.cons.inj hsplit).2]
    rintro ⟨⟩
    simp at hnext
  refine ⟨ts₁, h₁, ?_⟩
  rw [afterType, if_neg (by simp [next?])]
  simp only [identifier, if_neg hparen]
  rfl

/-- Up to its first name a declaration is read in any case, and the rest is a matter of its names.
-/
theorem member_of_declaration (kind : TypeKind) (name : String)
    (hmods : Modify ⟨none, false⟩ mods m) (htype : MemberType type)
    (hts : words ts = declarationTokens mods type d ds ++ after) :
    ∃ ts₁, words ts₁ = d.tail ++ (laterTokens ds ++ after) ∧
      member kind name ts = (declarators d.name ts₁).map fun read =>
        (.fields (declaredFields kind m read.1), read.2) := by
  simp only [declarationTokens, List.append_assoc, List.cons_append] at hts
  have hend : EndsMemberType (.ident d.name :: (d.tail ++ (laterTokens ds ++ after))) :=
    ⟨_, _, rfl, Or.inl rfl⟩
  obtain ⟨ts₁, h₁, hmember⟩ :=
    exists_member_eq_of_type kind name hmods htype hend.stopsType (by simp) hts
  rw [hend.dropWhile_eq] at h₁
  obtain ⟨ts₂, h₂, hnames⟩ := afterType_of_declaration kind m h₁
  refine ⟨ts₂, h₂, ?_⟩
  rw [hmember, hnames]
  cases declarators d.name ts₂ <;> rfl

/-- A declaration is taken as the fields it declares exactly if no comma misleads. -/
theorem acceptsMember_declaration_iff (hmods : Modify ⟨none, false⟩ mods m)
    (htype : MemberType type) :
    AcceptsMember kind name (declarationTokens mods type d ds)
        (.fields (declaredFields kind m ((d :: ds).map (·.name)))) ↔
      ∀ other ∈ d :: ds, ¬ other.Misleads := by
  constructor
  · rintro ⟨front, rest, hfront, hread⟩
    have hts : words (front ++ rest) = declarationTokens mods type d ds ++ words rest := by
      rw [words_append, hfront]
    obtain ⟨ts₁, h₁, hmember⟩ := member_of_declaration kind name hmods htype hts
    apply (declarators_eq_ok_iff h₁).mp
    rw [hmember] at hread
    obtain ⟨⟨names, rest'⟩, hnames, hsame⟩ := map_eq_ok.mp hread
    simp only [Prod.mk.injEq, Member.fields.injEq] at hsame
    obtain ⟨hfields, rfl⟩ := hsame
    rw [← declaredFields_injective hfields]
    exact ⟨rest', hnames, rfl⟩
  · intro hclear
    have hts : words (placed (declarationTokens mods type d ds)) =
        declarationTokens mods type d ds ++ [] := by rw [words_placed, List.append_nil]
    obtain ⟨ts₁, h₁, hmember⟩ := member_of_declaration kind name hmods htype hts
    obtain ⟨rest, hnames, hrest⟩ := (declarators_eq_ok_iff h₁).mpr hclear
    obtain rfl : rest = [] := by simpa [words] using hrest
    refine ⟨placed (declarationTokens mods type d ds), [], words_placed _, ?_⟩
    rw [List.append_nil, hmember, hnames]
    rfl

/-- The second of three type arguments is taken for a further name, since a comma comes after it,
and behind the third the declaration is expected to end. -/
theorem member_of_type_arguments {rest : Tokens} (hrest : next? rest = some .greater) :
    member .class_ "A" (placed [.ident "T", .ident "x", .equals] ++
      (placed [.ident "new", .ident "T", .less, .ident "A", .comma, .ident "B", .comma,
        .ident "C"] ++ rest)) =
      .error ⟨.expected .semicolon (some .greater), rest⟩ := by
  have hskip :
      skipInitializer (placed [.ident "new", .ident "T", .less, .ident "A", .comma, .ident "B",
        .comma, .ident "C"] ++ rest) =
      .ok (placed [.comma, .ident "B", .comma, .ident "C"] ++ rest) := by
    simp only [placed, List.map_cons, List.map_nil, List.cons_append, List.nil_append]
    rw [skipInitializer_other (by simp) (by simp) rfl,
      skipInitializer_other (by simp) (by simp) rfl, skipInitializer_other (by simp) (by simp) rfl,
      skipInitializer_other (by simp) (by simp) rfl, skipInitializer_comma, if_pos (by rfl)]
  generalize placed [.ident "new", .ident "T", .less, .ident "A", .comma, .ident "B", .comma,
    .ident "C"] ++ rest = initializer at hskip
  have hthird : declarators "C" rest = .error ⟨.expected .semicolon (some .greater), rest⟩ := by
    have hbare : optionalInitializer (skipDimensions rest) = .ok rest := by
      rw [skipDimensions_of_words (by rw [← next?_eq_head?, hrest]; simp), optionalInitializer,
        if_neg (by simp [hrest])]
    rw [declarators_end hbare (by simp [hrest]), expect, if_neg (by simp [hrest]), hrest]
    rfl
  have hsecond : declarators "B" (placed [.comma, .ident "C"] ++ rest) =
      .error ⟨.expected .semicolon (some .greater), rest⟩ := by
    rw [declarators_comma (by rfl) rfl rfl]
    exact congrArg _ hthird
  have hnames : declarators "x" (⟨.equals, 1⟩ :: initializer) =
      .error ⟨.expected .semicolon (some .greater), rest⟩ := by
    have hinitializer : optionalInitializer (skipDimensions (⟨.equals, 1⟩ :: initializer)) =
        .ok (placed [.comma, .ident "B", .comma, .ident "C"] ++ rest) := hskip
    rw [declarators_comma hinitializer rfl rfl]
    exact congrArg _ hsecond
  have hwords : words (placed [.ident "T", .ident "x", .equals] ++ initializer) =
      .ident "T" :: .ident "x" :: .equals :: words initializer := rfl
  have hmodifiers : modifiers (placed [.ident "T", .ident "x", .equals] ++ initializer) =
      .ok (⟨none, false⟩, placed [.ident "T", .ident "x", .equals] ++ initializer) :=
    modifiersFrom_of_word rfl (by simp) hwords
  have htypeName : typeName (placed [.ident "T", .ident "x", .equals] ++ initializer) =
      .ok ("T", placed [.ident "x", .equals] ++ initializer) := by
    rw [typeName, hmodifiers]
    simp [placed, qualifiedName, identifier, dottedNames, skipOptional, typeSegments,
      skipDimensions, skipDots, next?, Text.join, Text.joinChars]
  have hfields : methodOrFields .class_ ⟨none, false⟩
      (placed [.ident "T", .ident "x", .equals] ++ initializer) =
      .error ⟨.expected .semicolon (some .greater), rest⟩ := by
    rw [methodOrFields, skipOptional, if_neg (by simp [placed, next?])]
    simp only [htypeName]
    simp [placed, next?, identifier, hnames]
  simp only [member, hmodifiers, hfields]
  simp [placed, next?, atTypeDecl]

/-- Initializers without misleading commas leave no trace. A declaration is taken as exactly the
names it declares, in order and with the visibility and the static flag of its modifiers, if and
only if no comma outside the brackets of an initializer has a name behind it and then an equals
sign, a comma, a semicolon or an opening bracket. Where there is none, a source with the declaration
anywhere in it is parsed, to the unit that it would be parsed to without the initializers: the
members before and after it add what they add by themselves. -/
theorem fields_declared_around_initializers (kind : TypeKind) (name : String)
    (mods type : List Token) (m : Modifiers) (d : Declarator) (ds : List Declarator)
    (hmods : Modify ⟨none, false⟩ mods m) (htype : MemberType type) :
    (AcceptsMember kind name (declarationTokens mods type d ds)
        (.fields (declaredFields kind m ((d :: ds).map (·.name)))) ↔
      ∀ other ∈ d :: ds, ¬ other.Misleads) ∧
    ((∀ other ∈ d :: ds, ¬ other.Misleads) →
      ∀ (frame : UnitFrame kind name) (b₁ b₂ : List Token) (body₁ body₂ : TypeBody)
          (source : String),
        AcceptsMembers kind name b₁ body₁ → AcceptsMembers kind name b₂ body₂ →
        HasTokens source (frame.around (b₁ ++ (declarationTokens mods type d ds ++ b₂))) →
        CompilationUnit.parse source =
            .ok (frame.unit (body₁.append
              (TypeBody.append ⟨declaredFields kind m ((d :: ds).map (·.name)), []⟩ body₂))) ∧
          ∀ bareSource, HasTokens bareSource
              (frame.around (b₁ ++
                (declarationTokens mods type d.bare (ds.map Declarator.bare) ++ b₂))) →
            CompilationUnit.parse source = CompilationUnit.parse bareSource) := by
  refine ⟨acceptsMember_declaration_iff hmods htype, ?_⟩
  intro hclear frame b₁ b₂ body₁ body₂ source h₁ h₂ hsource
  have hparse : ∀ {d : Declarator} {ds : List Declarator} {source : String},
      (∀ other ∈ d :: ds, ¬ other.Misleads) →
      HasTokens source (frame.around (b₁ ++ (declarationTokens mods type d ds ++ b₂))) →
      CompilationUnit.parse source = .ok (frame.unit (body₁.append
        (TypeBody.append ⟨declaredFields kind m ((d :: ds).map (·.name)), []⟩ body₂))) := by
    intro d ds source hclear hsource
    have hmember : AcceptsMember kind name (declarationTokens mods type d ds)
        (.fields (declaredFields kind m ((d :: ds).map (·.name)))) :=
      (acceptsMember_declaration_iff hmods htype).mpr hclear
    exact frame.parse (h₁.adds.append ((Adds.fields hmember).append h₂.adds)) hsource
  refine ⟨hparse hclear hsource, ?_⟩
  intro bareSource hbare
  have hbareClear : ∀ other ∈ d.bare :: ds.map Declarator.bare, ¬ other.Misleads := by
    intro other hother
    rw [← List.map_cons] at hother
    obtain ⟨original, _, rfl⟩ := List.mem_map.mp hother
    exact original.bare_clear
  rw [hparse hclear hsource, hparse hbareClear hbare, ← List.map_cons, List.map_map]
  rfl

/-- A map and an array, with type arguments and a comma in braces in their initializers. -/
theorem fields_declared_around_initializers_map :
    CompilationUnit.parse
      "class A \x7b private static Map<K, V> x = new HashMap<K, V>(), y[] = \x7bp, q\x7d; int z; \x7d" =
      .ok ⟨none, [], [⟨"A", .class_, none,
        [⟨"x", .private_, true⟩, ⟨"y", .private_, true⟩, ⟨"z", .package, false⟩], []⟩]⟩ := by
  have hnil : ¬ Misleads [] := by
    rintro ⟨front, back, hsplit, _⟩
    simp at hsplit
  have harguments : ∀ tokens, ¬ LooksDeclared (.ident "V" :: .greater :: tokens) := by
    rintro tokens ⟨_, _, _, hsame, hnext⟩
    cases hsame
    simp at hnext
  have hx : Expression [.ident "new", .ident "HashMap", .less, .ident "K", .comma, .ident "V",
      .greater, .openParen, .closeParen] := by
    repeat apply Expression.token (by simp) rfl
    exact Expression.group [] rfl (by decide) Expression.nil
  have hxClear : ¬ Misleads [.ident "new", .ident "HashMap", .less, .ident "K", .comma, .ident "V",
      .greater, .openParen, .closeParen] := by
    have hparens : Misleads [.openParen, .closeParen] ↔ Misleads [] :=
      misleads_group_iff [] rfl (by decide)
    repeat rw [misleads_token_iff (by simp) rfl]
    simp [hparens, hnil, harguments]
  have hy : Expression [.openBrace, .ident "p", .comma, .ident "q", .closeBrace] :=
    Expression.group [.ident "p", .comma, .ident "q"] rfl (by decide) Expression.nil
  have hyClear : ¬ Misleads [.openBrace, .ident "p", .comma, .ident "q", .closeBrace] := by
    have hbraces : Misleads [.openBrace, .ident "p", .comma, .ident "q", .closeBrace] ↔
        Misleads [] :=
      misleads_group_iff [.ident "p", .comma, .ident "q"] rfl (by decide)
    rwa [hbraces]
  have hmods : Modify ⟨none, false⟩ [.ident "private", .ident "static"] ⟨some .private_, true⟩ :=
    Modify.word rfl (Modify.word rfl (Modify.nil _))
  have hmap : ∀ m : Modifiers, m.add? "Map" = none := fun _ => rfl
  have htype : MemberType [.ident "Map", .less, .ident "K", .comma, .ident "V", .greater] :=
    MemberType.mk hmap (by decide)
      (Arguments.bracketed [.ident "K", .comma, .ident "V"] (by decide))
      LaterSegments.nil Dimensions.nil
  have hfield : Adds .class_ "A" [.ident "int", .ident "z", .semicolon]
      ⟨[⟨"z", .package, false⟩], []⟩ :=
    Adds.fields ⟨placed [.ident "int", .ident "z", .semicolon], [], rfl, by decide +kernel⟩
  have hall := (fields_declared_around_initializers .class_ "A" _ _ _
    ⟨"x", [], some _, Dimensions.nil, fun tokens hsome => by cases hsome; exact hx⟩
    [⟨"y", _, some _, Dimensions.cons Dimensions.nil, fun tokens hsome => by cases hsome; exact hy⟩]
    hmods htype).2
  refine (hall ?clear (classFrame "A") [] _ _ _ _ Adds.nil.acceptsMembers hfield.acceptsMembers
    ?tokens).1
  case tokens =>
    show HasTokens _ [.ident "class", .ident "A", .openBrace, .ident "private", .ident "static",
      .ident "Map", .less, .ident "K", .comma, .ident "V", .greater, .ident "x", .equals,
      .ident "new", .ident "HashMap", .less, .ident "K", .comma, .ident "V", .greater, .openParen,
      .closeParen, .comma, .ident "y", .openBracket, .closeBracket, .equals, .openBrace,
      .ident "p", .comma, .ident "q", .closeBrace, .semicolon, .ident "int", .ident "z",
      .semicolon, .closeBrace]
    exact hasTokens_of_scan (by decide +kernel)
  case clear =>
    intro other hother
    simp only [List.mem_cons, List.not_mem_nil, or_false] at hother
    rcases hother with rfl | rfl
    · rintro ⟨tokens, hsome, hmisleads⟩
      cases hsome
      exact hxClear hmisleads
    · rintro ⟨tokens, hsome, hmisleads⟩
      cases hsome
      exact hyClear hmisleads

/-- A field that is initialized by a constructor with three type arguments, and the end of its
class. -/
def constructedField : Tokens :=
  placed [.ident "T", .ident "x", .equals] ++
    (placed [.ident "new", .ident "T", .less, .ident "A", .comma, .ident "B", .comma, .ident "C"] ++
      placed [.greater, .openParen, .closeParen, .semicolon, .closeBrace])

/-- A constructor with three type arguments as an initializer: although it is an expression, the
source is no unit. -/
theorem type_arguments_taken_for_names :
    Expression [.ident "new", .ident "T", .less, .ident "A", .comma, .ident "B", .comma, .ident "C",
        .greater, .openParen, .closeParen] ∧
      CompilationUnit.parse "class A \x7b T x = new T<A, B, C>(); \x7d" =
        .error ⟨1, .expected .semicolon (some .greater)⟩ := by
  constructor
  · repeat apply Expression.token (by simp) rfl
    exact Expression.group [] rfl (by decide) Expression.nil
  · have hscan : scan "class A \x7b T x = new T<A, B, C>(); \x7d" =
        .ok (classHead "A" ++ constructedField) := by
      decide +kernel
    have hmember : member .class_ "A" constructedField =
        .error ⟨.expected .semicolon (some .greater),
          placed [.greater, .openParen, .closeParen, .semicolon, .closeBrace]⟩ :=
      member_of_type_arguments rfl
    have hstart : StartsMember (words constructedField) := ⟨.ident "T", _, rfl, by simp, by simp⟩
    exact parse_error_of_member hscan hstart hmember

end WireMapper.Java
