import WireMapper.Proofs.Java.Parser.Site

/-!
Failures inside a unit. Tokens that cannot be read as a member, or as the start of a type
declaration, are reached from every site they can stand at, and the fault they stop at is that of
the whole source: what is read before them is accepted, and what stands behind them is not looked
at.
-/

namespace WireMapper.Java

variable {kind : TypeKind} {name : String} {tokens tokens' : List Token} {start : TypeStart}
  {fault : ParseFault} {decl : TypeDecl}

/-- Wherever the tokens stand, reading them and what comes after them fails with the fault. -/
def Fails {α : Type} (reader : Tokens → Except Failure α) (tokens : List Token)
    (fault : ParseFault) :
    Prop :=
  ∀ front, words front = tokens → ∀ after, ∃ rest, reader (front ++ after) = .error ⟨fault, rest⟩

/-- What stands behind a failure is not looked at. -/
theorem Fails.append {α : Type} {reader : Tokens → Except Failure α} (h : Fails reader tokens fault)
    (tokens' : List Token) : Fails reader (tokens ++ tokens') fault := by
  intro front hfront after
  obtain ⟨ts₁, ts₂, rfl, h₁, _⟩ := exists_append_of_words hfront
  rw [List.append_assoc]
  exact h ts₁ h₁ (ts₂ ++ after)

/-- A failure is reached behind tokens that only add to what is read after them. -/
theorem Fails.behind {α : Type} {reader : Tokens → Except Failure α} {add : α → α}
    (h : ∀ front, words front = tokens → ∀ after, reader (front ++ after) = (reader after).map add)
    (hfails : Fails reader tokens' fault) : Fails reader (tokens ++ tokens') fault := by
  intro front hfront after
  obtain ⟨ts₁, ts₂, rfl, h₁, h₂⟩ := exists_append_of_words hfront
  obtain ⟨rest, hread⟩ := hfails ts₂ h₂ after
  refine ⟨rest, ?_⟩
  rw [List.append_assoc, h ts₁ h₁, hread]
  rfl

/-- A member that cannot be read is no start of a body. -/
theorem fails_of_member (hstart : StartsMember tokens)
    (h : ∀ ts after, words ts = tokens ++ after →
      ∃ rest, member kind name ts = .error ⟨fault, rest⟩) :
      Fails (readBody kind name) tokens fault := by
  intro front hfront after
  have hwords : words (front ++ after) = tokens ++ words after := by rw [words_append, hfront]
  obtain ⟨rest, hread⟩ := h (front ++ after) (words after) hwords
  refine ⟨rest, readBody_member_error ?_ hread⟩
  obtain ⟨token, later, rfl, hmark⟩ := hstart
  exact ⟨token, later ++ words after, hwords, hmark⟩

/-- The members of a nested type are read before anything behind it. -/
theorem Fails.nested (hhead : AcceptsMember kind name tokens (.type start false))
    (h : Fails (readBody start.kind start.name) tokens' fault) :
    Fails (readBody kind name) (tokens ++ tokens') fault := by
  intro front hfront after
  obtain ⟨ts₁, ts₂, rfl, h₁, h₂⟩ := exists_append_of_words hfront
  obtain ⟨rest, hread⟩ := h ts₂ h₂ after
  refine ⟨rest, ?_⟩
  rw [List.append_assoc, hhead.readBody_eq h₁]
  simp only [readMember, hread]

/-- A declaration whose start cannot be read is no type of a unit. -/
theorem fails_of_start (hstart : StartsMember tokens)
    (h : ∀ ts after, words ts = tokens ++ after →
      ∃ rest, modifiedStart ts = .error ⟨fault, rest⟩) : Fails types tokens fault := by
  intro front hfront after
  have hwords : words (front ++ after) = tokens ++ words after := by rw [words_append, hfront]
  obtain ⟨rest, hread⟩ := h (front ++ after) (words after) hwords
  obtain ⟨token, later, rfl, _, hsemicolon⟩ := hstart
  refine ⟨rest, ?_⟩
  apply types_error
  · intro hnil
    rw [hnil] at hwords
    cases hwords
  · rw [next?_eq_head?, hwords]
    intro hsame
    exact hsemicolon (Option.some.inj hsame)
  · rw [modifiedType_eq, hread]

theorem Fails.type (hhead : AcceptsStart tokens start false)
    (h : Fails (readBody start.kind start.name) tokens' fault) :
    Fails types (tokens ++ tokens') fault := by
  intro front hfront after
  obtain ⟨ts₁, ts₂, rfl, h₁, h₂⟩ := exists_append_of_words hfront
  obtain ⟨rest, hread⟩ := h ts₂ h₂ after
  have hstart := hhead.same h₁ (ts₂ ++ after)
  refine ⟨rest, ?_⟩
  rw [List.append_assoc]
  apply types_error
  · intro hnil
    rw [hnil] at hstart
    simp [modifiedStart, modifiers, modifiersFrom, typeStart, typeKind] at hstart
  · exact fun hnext => modifiedStart_ne_ok hnext hstart
  · rw [modifiedType_eq, hstart]
    simp only [hread, Except.map]

/-- A failure at a site of a unit is a failure of its types. -/
theorem Site.fails {front back : List Token} {fill : TypeBody → List TypeDecl}
    (h : Site kind name front back fill) (hfails : Fails (readBody kind name) tokens fault) :
    Fails types (front ++ (tokens ++ back)) fault := by
  induction h generalizing tokens with
  | @top before head after decls decls' start hbefore hhead hafter =>
      have hall :=
        (Fails.behind hbefore.adds (Fails.type hhead hfails)).append (.closeBrace :: after)
      simpa using hall
  | @nested kind name front back before head after fill b b' start _ hbefore hhead hafter ih =>
      -- What fails inside the nested type fails among the members around it, where the induction
      -- goes on.
      have hall :=
        ih ((Fails.behind hbefore.adds (Fails.nested hhead hfails)).append (.closeBrace :: after))
      simpa using hall

/-- Between the tokens `front` and `back` stands a type declaration, among those of the unit or
among the members of a type. With a declaration there, `fill` are the types of the unit. -/
inductive DeclSite : List Token → List Token → (TypeDecl → List TypeDecl) → Prop where
  | top {before after : List Token} {decls decls' : List TypeDecl}
      (hbefore : AcceptsTypes before decls) (hafter : AcceptsTypes after decls') :
        DeclSite before after fun decl => decls ++ decl :: decls'
  | nested {kind : TypeKind} {name : String} {front back before after : List Token}
      {fill : TypeBody → List TypeDecl} {b b' : TypeBody} (h : Site kind name front back fill)
      (hbefore : AcceptsMembers kind name before b) (hafter : AcceptsMembers kind name after b') :
      DeclSite (front ++ before) (after ++ back)
        fun decl => fill (b.append (TypeBody.append ⟨[], [decl]⟩ b'))

/-- The tokens declare the type at every site. -/
structure Declares (tokens : List Token) (decl : TypeDecl) : Prop where
  top : AddsTypes tokens [decl]
  nested : ∀ kind name, Adds kind name tokens ⟨[], [decl]⟩

/-- The tokens are no type declaration at any site, since reading them fails with the fault. -/
structure FailsToDeclare (tokens : List Token) (fault : ParseFault) : Prop where
  top : Fails types tokens fault
  nested : ∀ kind name, Fails (readBody kind name) tokens fault

theorem FailsToDeclare.append (h : FailsToDeclare tokens fault) (tokens' : List Token) :
    FailsToDeclare (tokens ++ tokens') fault where
  top := h.top.append tokens'
  nested kind name := (h.nested kind name).append tokens'

/-- With the declaration in it, a site gives the types that belong to it. -/
theorem DeclSite.addsTypes {front back : List Token} {fill : TypeDecl → List TypeDecl}
    (h : DeclSite front back fill) (hdecl : Declares tokens decl) :
    AddsTypes (front ++ (tokens ++ back)) (fill decl) := by
  cases h with
  | top hbefore hafter =>
      have hall := (hbefore.adds.append hdecl.top).append hafter.adds
      simpa using hall
  | nested hsite hbefore hafter =>
      have hall := hsite.addsTypes (hbefore.adds.append ((hdecl.nested _ _).append hafter.adds))
      simpa using hall

/-- A failure at a site is reached, since what stands in front of it is read. -/
theorem DeclSite.fails {front back : List Token} {fill : TypeDecl → List TypeDecl}
    (h : DeclSite front back fill) (hfails : FailsToDeclare tokens fault) :
    Fails types (front ++ (tokens ++ back)) fault := by
  cases h with
  | top hbefore hafter =>
      have hall := (Fails.behind hbefore.adds hfails.top).append back
      simpa using hall
  | @nested kind name front back before after fill b b' hsite hbefore hafter =>
      have hall := hsite.fails ((Fails.behind hbefore.adds (hfails.nested kind name)).append after)
      simpa using hall

variable {header after : List Token} {package? : Option String} {is : List Import} {source : String}

/-- Behind the package and the imports, the types fail the whole source. -/
theorem ReadsHeader.parse_error (h : ReadsHeader header package? is after)
    (hfails : Fails types after fault) (hsource : HasTokens source (header ++ after)) :
    ∃ line, CompilationUnit.parse source = .error ⟨line, fault⟩ := by
  obtain ⟨ts, rest, hrest, hparse⟩ := h.exists_types hsource
  obtain ⟨rest', hread⟩ := hfails rest hrest []
  rw [List.append_nil] at hread
  refine ⟨Failure.line ⟨fault, rest'⟩ ts, ?_⟩
  simp only [hparse, hread]

/-- A source does not parse if the members at a site do not. -/
theorem UnitFrame.parse_error (frame : UnitFrame kind name)
    (hfails : Fails (readBody kind name) tokens fault)
    (hsource : HasTokens source (frame.around tokens)) :
    ∃ line, CompilationUnit.parse source = .error ⟨line, fault⟩ := by
  have hreads := frame.reads (tokens ++ frame.back)
  exact hreads.parse_error (frame.site.fails hfails) hsource

/-- A source that is a plain class fails at the first member that cannot be read, on the line of
the fault. -/
theorem parse_error_of_member {source name : String} {body : Tokens} {e : Failure}
    (hscan : scan source = .ok (classHead name ++ body)) (hstart : StartsMember (words body))
    (hmember : member .class_ name body = .error e) :
    CompilationUnit.parse source = .error ⟨e.line (classHead name ++ body), e.fault⟩ := by
  have hnext : next? (classHead name ++ body) = some (.ident "class") := rfl
  have hpackage : packageDecl (classHead name ++ body) = .ok (none, classHead name ++ body) := by
    simp [packageDecl, modifiers_classHead, hnext]
  have himports : imports (classHead name ++ body) = .ok ([], classHead name ++ body) := by
    rw [imports, if_neg (by simp [hnext])]
  have htypes : types (classHead name ++ body) = .error e := by
    apply types_error (by simp [classHead, placed]) (by simp [hnext])
    rw [modifiedType_eq, modifiedStart_classHead]
    simp only [readBody_member_error hstart hmember]
    rfl
  simp only [CompilationUnit.parse, hscan, compilationUnit, hpackage, himports, htypes]

end WireMapper.Java
