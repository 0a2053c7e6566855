import WireMapper.Proofs.Java.Parser.AfterType
import WireMapper.Proofs.Java.Parser.Site

/-!
Members that declare nothing. Methods, constructors and initializers add nothing to the body they
stand in, and the block such a member ends with can be any tokens in which the braces balance.
-/

namespace WireMapper.Java

variable {kind : TypeKind} {name : String} {ts rest : Tokens}

/-- How a member starts that declares nothing: an initializer, the compact constructor of a record,
or the parameter list of a method or constructor. -/
inductive Opening (kind : TypeKind) (name : String) : List Token → Prop where
  | initializer {mods : List Token} {m : Modifiers} (hmods : Modify ⟨none, false⟩ mods m) :
      Opening kind name (mods ++ [.openBrace])
  | compact {mods : List Token} {m : Modifiers} (hkind : kind = .record)
      (hname : ∀ m : Modifiers, m.add? name = none) (hmods : Modify ⟨none, false⟩ mods m) :
      Opening kind name (mods ++ [.ident name, .openBrace])
  | callable {mods parameters annotations type called : List Token} {m m' : Modifiers}
      (hmods : Modify ⟨none, false⟩ mods m) (hparameters : Arguments .less .greater parameters)
      (hannotations : Modify ⟨none, false⟩ annotations m')
      (hnone : parameters = [] → annotations = []) (htype : MemberType type)
      (hcalled : called = [] ∨ ∃ text, called = [.ident text]) :
      Opening kind name
        (mods ++ (parameters ++ (annotations ++ (type ++ (called ++ [.openParen])))))

/-- The parameter list of a method comes after its name, that of a constructor after its type. -/
theorem endsMemberType_called {called : List Token}
    (hcalled : called = [] ∨ ∃ text, called = [.ident text]) (after : List Token) :
    EndsMemberType (called ++ .openParen :: after) := by
  rcases hcalled with rfl | ⟨text, rfl⟩
  · exact ⟨.openParen, after, rfl, Or.inr rfl⟩
  · exact ⟨.ident text, .openParen :: after, rfl, Or.inl rfl⟩

/-- A member that starts as a method, a constructor or an initializer does adds nothing. -/
theorem fields_eq_nil_of_opening {start after : List Token} {m : Member}
    (h : Opening kind name start) (hts : words ts = start ++ after)
    (hread : member kind name ts = .ok (m, rest)) : m = .fields [] := by
  cases h with
  | initializer hmods =>
      rw [List.append_assoc, List.singleton_append] at hts
      obtain ⟨ts₁, hmodifiers, h₁⟩ := hmods.reads (endsModifiers_of_mark rfl (by simp)) ts hts
      have hbrace : next? ts₁ = some .openBrace := by rw [next?_eq_head?, h₁, List.head?_cons]
      simp only [member, modifiers, hmodifiers, if_pos hbrace] at hread
      split at hread
      · cases hread
      · cases hread
        rfl
  | compact hkind hname hmods =>
      rw [List.append_assoc, List.cons_append, List.singleton_append] at hts
      obtain ⟨ts₁, hmodifiers, h₁⟩ := hmods.reads (endsModifiers_of_word hname (by simp)) ts hts
      have hnext : next? ts₁ = some (.ident name) := by rw [next?_eq_head?, h₁, List.head?_cons]
      have hsecond : second? ts₁ = some .openBrace := by
        rw [second?_eq, h₁, List.tail_cons, List.head?_cons]
      simp only [member, modifiers, hmodifiers] at hread
      rw [if_neg (by simp [hnext]), if_pos ⟨hkind, hnext, hsecond⟩] at hread
      split at hread
      · cases hread
      · cases hread
        rfl
  | @callable mods parameters annotations type called m m' hmods hparameters hannotations
      hnone htype hcalled =>
      simp only [List.append_assoc, List.singleton_append] at hts
      have hend := endsMemberType_called hcalled after
      have hneutral : parameters = [] → ∀ m, Modify m annotations m := by
        intro hnil m
        rw [hnone hnil]
        exact .nil m
      obtain ⟨ts₁, h₁, hmember⟩ :=
        exists_member_eq kind name hmods hparameters hannotations hneutral
        htype hend.stopsType (hend.head?_ne rfl (by simp)) hts
      rw [hend.dropWhile_eq] at h₁
      obtain ⟨ts₂, _, hmethod⟩ := afterType_of_called kind m hcalled h₁
      rw [hmember, hmethod] at hread
      obtain ⟨read, hread, hsame⟩ := map_eq_ok.mp hread
      obtain ⟨after', _, rfl⟩ := map_eq_ok.mp hread
      cases hsame
      rfl

/-- A block is what stands between its brace and the one that closes it, and the braces in it
balance. -/
theorem Closes.block_iff {front : Tokens} {stop : Tokens} (h : Closes stop rest)
    (hsuffix : stop <:+ front ++ rest) {tokens : List Token}
    (hfront : words front = tokens ++ [.closeBrace]) :
    ∃ before line inner line',
      front = before ++ ⟨.openBrace, line⟩ :: (inner ++ [⟨.closeBrace, line'⟩]) ∧
        stop = ⟨.openBrace, line⟩ :: (inner ++ ⟨.closeBrace, line'⟩ :: rest) ∧
        Balanced .openBrace .closeBrace (words inner) := by
  obtain ⟨before, hbefore⟩ := hsuffix
  cases h with
  | semicolon line rest =>
      have hsame : before ++ [⟨.semicolon, line⟩] = front := by
        apply (List.append_left_inj rest).mp
        rw [← hbefore]
        simp
      rw [← hsame, words_append] at hfront
      have hlast := (List.append_inj' hfront rfl).2
      cases hlast
  | block hskip =>
      obtain ⟨line, inner, line', rfl, hinner⟩ := (skipBracketed_eq_ok_iff (by simp)).mp hskip
      refine ⟨before, line, inner, line', ?_, rfl, hinner⟩
      apply (List.append_left_inj rest).mp
      rw [← hbefore]
      simp

/-- A member that is no type and ends with a block adds nothing, and any other block can stand in
the place of its own. -/
theorem AcceptsMember.replace {front block block' : List Token} {fields : List FieldDecl}
    (h : AcceptsMember kind name (front ++ .openBrace :: (block ++ [.closeBrace])) (.fields fields))
    (hblock : Balanced .openBrace .closeBrace block)
    (hblock' : Balanced .openBrace .closeBrace block') :
    fields = [] ∧
      AcceptsMember kind name (front ++ .openBrace :: (block' ++ [.closeBrace])) (.fields []) := by
  obtain ⟨tokens, rest, hwords, hread⟩ := h
  obtain ⟨stop, hstop, hempty⟩ := member_stopsAt hread
  have hlast : words tokens = (front ++ .openBrace :: block) ++ [.closeBrace] := by
    simpa using hwords
  obtain ⟨before, line, inner, line', rfl, rfl, hinner⟩ := hstop.closes.block_iff hstop.suffix hlast
  -- The block is where the member stops, since its closing brace has one partner only.
  have hplace : words before = front ∧ words inner = block := by
    apply hinner.opening_unique (by simp) hblock
    apply (List.append_left_inj [Token.closeBrace]).mp
    simpa [words] using hwords
  obtain ⟨rfl, rfl⟩ := hplace
  obtain rfl := hempty rfl
  obtain ⟨inner', rfl⟩ : ∃ inner', words inner' = block' := ⟨placed block', words_placed block'⟩
  refine ⟨rfl, before ++ ⟨.openBrace, line⟩ :: (inner' ++ [⟨.closeBrace, line'⟩]), rest,
    by simp [words], ?_⟩
  have hsame : SameBefore (⟨.openBrace, line⟩ :: (inner ++ ⟨.closeBrace, line'⟩ :: rest))
      (⟨.openBrace, line⟩ :: (inner' ++ ⟨.closeBrace, line'⟩ :: rest))
      (before ++ ⟨.openBrace, line⟩ :: (inner ++ ⟨.closeBrace, line'⟩ :: rest))
      (before ++ ⟨.openBrace, line⟩ :: (inner' ++ ⟨.closeBrace, line'⟩ :: rest)) :=
    exists_sameBefore rfl _ _
  refine hstop.again ⟨.openBrace, rfl, rfl, rfl⟩ (by simpa using hsame) (Closes.block ?_)
  exact (skipBracketed_eq_ok_iff (by simp)).mpr ⟨line, inner', line', rfl, hblock'⟩

/-- Bodies are read in parts, and blocks are not read at all. Two bodies that are taken between
braces are taken one after the other, with the fields and nested types of the first before those of
the second; in an enum the same holds behind the constants, which add nothing. A member that starts
as a method, a constructor or an initializer does adds nothing, and any tokens in which the braces
balance can stand in its block without a difference to the unit. -/
theorem bodies_read_in_parts :
    (∀ (kind : TypeKind) (name : String) (b₁ b₂ : List Token) (body₁ body₂ : TypeBody),
      kind ≠ .enum →
      AcceptsBody kind name b₁ body₁ → AcceptsBody kind name b₂ body₂ →
      ∀ after, Reads (bracedBody kind name) (.openBrace :: (b₁ ++ b₂ ++ [.closeBrace]))
        ⟨body₁.fields ++ body₂.fields, body₁.nested ++ body₂.nested⟩ after) ∧
    (∀ (name : String) (constants : List Token), Constants constants →
      ∀ ts after, words ts = .openBrace :: (constants ++ .semicolon :: after) →
        ∃ rest, words rest = after ∧ bracedBody .enum name ts = readBody .enum name rest) ∧
    (∀ (name : String) (constants constants' b₁ b₂ : List Token) (body₁ body₂ : TypeBody),
      Constants constants → Constants constants' →
      AcceptsBody .enum name (constants ++ .semicolon :: b₁) body₁ →
      AcceptsBody .enum name (constants' ++ .semicolon :: b₂) body₂ →
      ∀ after, Reads (bracedBody .enum name)
        (.openBrace :: (constants ++ .semicolon :: (b₁ ++ b₂ ++ [.closeBrace])))
        ⟨body₁.fields ++ body₂.fields, body₁.nested ++ body₂.nested⟩ after) ∧
    (∀ (kind : TypeKind) (name : String) (start after : List Token) (ts rest : Tokens) (m : Member),
      Opening kind name start → words ts = start ++ after → member kind name ts = .ok (m, rest) →
      m = .fields []) ∧
    (∀ (kind : TypeKind) (name : String) (front block block' : List Token)
        (fields : List FieldDecl),
      AcceptsMember kind name (front ++ .openBrace :: (block ++ [.closeBrace])) (.fields fields) →
      Balanced .openBrace .closeBrace block → Balanced .openBrace .closeBrace block' →
      fields = [] ∧
      AcceptsMember kind name (front ++ .openBrace :: (block' ++ [.closeBrace])) (.fields []) ∧
      ∀ (frame : UnitFrame kind name) (b₁ b₂ : List Token) (body₁ body₂ : TypeBody)
        (source source' : String),
        AcceptsMembers kind name b₁ body₁ → AcceptsMembers kind name b₂ body₂ →
        HasTokens source
          (frame.around (b₁ ++ ((front ++ .openBrace :: (block ++ [.closeBrace])) ++ b₂))) →
        HasTokens source'
          (frame.around (b₁ ++ ((front ++ .openBrace :: (block' ++ [.closeBrace])) ++ b₂))) →
        CompilationUnit.parse source = .ok (frame.unit (body₁.append body₂)) ∧
          CompilationUnit.parse source' = .ok (frame.unit (body₁.append body₂))) := by
  refine ⟨?bodies, ?constants, ?enums, ?openings, ?blocks⟩
  case bodies =>
    intro kind name b₁ b₂ body₁ body₂ hkind h₁ h₂
    have hadds := (h₁.members hkind).adds.append (h₂.members hkind).adds
    exact hadds.reads_bracedBody hkind
  case constants =>
    intro name constants hconstants ts after hts
    exact bracedBody_of_constants hconstants hts
  case enums =>
    intro name constants constants' b₁ b₂ body₁ body₂ hconstants hconstants' h₁ h₂
    have hadds := (h₁.members_of_constants hconstants).adds.append
      (h₂.members_of_constants hconstants').adds
    exact hadds.reads_bracedBody_of_constants hconstants
  case openings =>
    intro kind name start after ts rest m hstart hts hread
    exact fields_eq_nil_of_opening hstart hts hread
  case blocks =>
    intro kind name front block block' fields h hblock hblock'
    obtain ⟨rfl, h'⟩ := h.replace hblock hblock'
    refine ⟨rfl, h', ?_⟩
    intro frame b₁ b₂ body₁ body₂ source source' h₁ h₂ hsource hsource'
    have hadds : ∀ {tokens}, AcceptsMember kind name tokens (.fields []) →
        Adds kind name (b₁ ++ (tokens ++ b₂)) (body₁.append body₂) := by
      intro tokens hmember
      have hall := h₁.adds.append ((Adds.fields hmember).append h₂.adds)
      simpa [TypeBody.append] using hall
    exact ⟨frame.parse (hadds h) hsource, frame.parse (hadds h') hsource'⟩

/-- A field and a nested class around a method whose block is replaced by one that holds a
declaration, and an enum whose constants have arguments and a body. -/
theorem bodies_read_in_parts_class :
    Reads (bracedBody .class_ "A")
        [.openBrace, .ident "int", .ident "a", .semicolon, .ident "class", .ident "B", .openBrace,
          .closeBrace, .closeBrace]
        ⟨[⟨"a", .package, false⟩], [⟨"B", .class_, none, [], []⟩]⟩ [] ∧
      (∃ rest, words rest = [.ident "int", .ident "a", .semicolon, .closeBrace] ∧
        bracedBody .enum "E" (placed [.openBrace, .ident "X", .openParen, .literal, .closeParen,
          .openBrace, .semicolon, .closeBrace, .semicolon, .ident "int", .ident "a", .semicolon,
          .closeBrace]) =
          readBody .enum "E" rest) ∧
      Reads (bracedBody .enum "E")
        [.openBrace, .ident "X", .openParen, .literal, .closeParen, .openBrace, .semicolon,
          .closeBrace, .semicolon, .ident "int", .ident "a", .semicolon, .ident "int", .ident "b",
          .semicolon, .closeBrace]
        ⟨[⟨"a", .package, false⟩, ⟨"b", .package, false⟩], []⟩ [] ∧
      (∀ rest m, member .class_ "A" (placed [.ident "void", .ident "f", .openParen, .closeParen,
        .openBrace, .closeBrace]) = .ok (m, rest) → m = .fields []) ∧
      CompilationUnit.parse "class A \x7b int a; void f() \x7b \x7d class B \x7b \x7d \x7d" =
        .ok ⟨none, [], [⟨"A", .class_, none, [⟨"a", .package, false⟩],
          [⟨"B", .class_, none, [], []⟩]⟩]⟩ ∧
      CompilationUnit.parse
          "class A \x7b int a; void f() \x7b \x7b ; \x7d int x; \x7d class B \x7b \x7d \x7d" =
        .ok ⟨none, [], [⟨"A", .class_, none, [⟨"a", .package, false⟩],
          [⟨"B", .class_, none, [], []⟩]⟩]⟩ := by
  obtain ⟨hbodies, hconstants, henums, hopenings, hblocks⟩ := bodies_read_in_parts
  have hfield : Adds .class_ "A" [.ident "int", .ident "a", .semicolon]
      ⟨[⟨"a", .package, false⟩], []⟩ :=
    Adds.fields ⟨placed [.ident "int", .ident "a", .semicolon], [], rfl, by decide +kernel⟩
  have hhead : AcceptsMember .class_ "A" [.ident "class", .ident "B", .openBrace]
      (.type ⟨.class_, "B", none, []⟩ false) :=
    ⟨placed [.ident "class", .ident "B", .openBrace], [], rfl, by decide +kernel⟩
  have hclass : Adds .class_ "A" [.ident "class", .ident "B", .openBrace, .closeBrace]
      ⟨[], [⟨"B", .class_, none, [], []⟩]⟩ := Adds.type hhead Adds.nil
  have hconstant : Constants
      [.ident "X", .openParen, .literal, .closeParen, .openBrace, .semicolon, .closeBrace] :=
    Constants.token (by simp) (by simp) (by simp) (by simp)
      (Constants.arguments [.literal] (by decide)
        (Constants.body [.semicolon] (by decide) Constants.nil))
  have ha : Adds .enum "E" [.ident "int", .ident "a", .semicolon] ⟨[⟨"a", .package, false⟩], []⟩ :=
    Adds.fields ⟨placed [.ident "int", .ident "a", .semicolon], [], rfl, by decide +kernel⟩
  have hb : Adds .enum "E" [.ident "int", .ident "b", .semicolon] ⟨[⟨"b", .package, false⟩], []⟩ :=
    Adds.fields ⟨placed [.ident "int", .ident "b", .semicolon], [], rfl, by decide +kernel⟩
  have hvoid : ∀ m : Modifiers, m.add? "void" = none := fun _ => rfl
  have hstart : Opening .class_ "A" [.ident "void", .ident "f", .openParen] :=
    Opening.callable (Modify.nil _) Arguments.absent (Modify.nil _) (fun _ => rfl)
      (MemberType.mk hvoid (by decide) Arguments.absent LaterSegments.nil
        Dimensions.nil) (Or.inr ⟨"f", rfl⟩)
  have hmethod : AcceptsMember .class_ "A"
      [.ident "void", .ident "f", .openParen, .closeParen, .openBrace, .closeBrace] (.fields []) :=
    ⟨placed [.ident "void", .ident "f", .openParen, .closeParen, .openBrace, .closeBrace], [], rfl,
      by decide +kernel⟩
  have hsources := hblocks .class_ "A" [.ident "void", .ident "f", .openParen, .closeParen] []
    [.openBrace, .semicolon, .closeBrace, .ident "int", .ident "x",
      .semicolon] [] hmethod (by decide)
    (by decide)
  refine ⟨?_, ?_, ?_, ?_, ?_⟩
  · exact hbodies .class_ "A" _ _ _ _ (by simp)
      (acceptsBody_of_reads rfl (hfield.reads_bracedBody (by simp) []))
      (acceptsBody_of_reads rfl (hclass.reads_bracedBody (by simp) [])) []
  · exact hconstants "E" _ hconstant _ [.ident "int", .ident "a", .semicolon, .closeBrace] rfl
  · exact henums "E" _ [] _ _ _ _ hconstant Constants.nil
      (acceptsBody_of_reads rfl (ha.reads_bracedBody_of_constants hconstant []))
      (acceptsBody_of_reads rfl (hb.reads_bracedBody_of_constants Constants.nil [])) []
  · intro rest m hread
    exact hopenings .class_ "A" _ _ _ rest m hstart rfl hread
  · apply hsources.2.2 (classFrame "A") _ _ _ _ _ _ hfield.acceptsMembers hclass.acceptsMembers
    · exact hasTokens_of_scan (by decide +kernel)
    · exact hasTokens_of_scan (by decide +kernel)

end WireMapper.Java
