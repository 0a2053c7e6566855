import WireMapper.Proofs.Java.Print.Reading

/-!
Parsing undoes printing. Every part of a well-formed unit is read back from its tokens: fields and
the starts of types by following the readers, bodies by induction on the types nested in them, and
the whole unit from these.
-/

namespace WireMapper.Java

variable {ts : Tokens} {after : List Token}

theorem reads_declarators (name : String) (after : List Token) :
    Reads (declarators name) [Token.semicolon] [name] after := by
  intro ts h
  obtain ⟨rest, hend, hrest⟩ := reads_expect .semicolon after ts h
  have hbrackets : skipDimensions ts = ts := by
    apply skipDimensions_of_words
    simp [h]
  have hinitializer : optionalInitializer ts = .ok ts := by
    rw [optionalInitializer, next?_eq_head?, h]
    rfl
  refine ⟨rest, ?_, hrest⟩
  rw [declarators]
  split
  · rename_i e herror
    rw [hbrackets, hinitializer] at herror
    cases herror
  · rename_i same hsame
    rw [hbrackets, hinitializer] at hsame
    cases hsame
    rw [if_neg (by simp [next?_eq_head?, h])]
    simp only [hend]

/-- The tokens of a printed field are read as one field. -/
theorem reads_methodOrFields (kind : TypeKind) (m : Modifiers) (name : String)
    (after : List Token) :
    Reads (methodOrFields kind m) [Token.ident "int", .ident name, .semicolon]
      [⟨name, fieldVisibility kind m, fieldIsStatic kind m⟩] after := by
  intro ts h
  have hsplit : Text.split '.' "int" = ["int"] := by decide
  have hint : nameTokens "int" = [.ident "int"] := by rw [nameTokens, hsplit]; rfl
  have hword : ∀ segment ∈ Text.split '.' "int", ∀ m : Modifiers, m.add? segment = none := by
    rw [hsplit]
    intro segment hsegment m
    rw [List.mem_singleton.mp hsegment]
    rfl
  have hend : EndsType (.ident name :: Token.semicolon :: after) := ⟨_, _, rfl, Or.inl rfl⟩
  obtain ⟨ts₁, htype, h₁⟩ := reads_typeName "int" hword hend ts (by simpa [hint] using h)
  obtain ⟨ts₂, hname, h₂⟩ := reads_identifier name (Token.semicolon :: after) ts₁ h₁
  obtain ⟨rest, hnames, hrest⟩ := reads_declarators name after ts₂ h₂
  have hparameters : skipOptional .less .greater ts = .ok ts :=
    skipOptional_of_words (by simp [h])
  refine ⟨rest, ?_, hrest⟩
  simp [methodOrFields, hparameters, htype, hname, hnames, next?_eq_head?, h₁, h₂]

/-- The modifiers that are written out say what the field is, as far as its kind of type leaves it
open. -/
theorem field_of_modifiers {kind : TypeKind} {field : FieldDecl} (h : field.WellFormed kind) :
    (⟨field.name, fieldVisibility kind ⟨field.visibility.written?, field.isStatic⟩,
      fieldIsStatic kind ⟨field.visibility.written?, field.isStatic⟩⟩ : FieldDecl) = field := by
  obtain ⟨_, hinterface, hannotation⟩ := h
  obtain ⟨name, visibility, isStatic⟩ := field
  have hwritten : visibility.written?.getD .package = visibility := by
    cases visibility <;> rfl
  cases kind with
  | interface =>
      obtain ⟨hpublic, hstatic⟩ := hinterface rfl
      simp_all [fieldVisibility, fieldIsStatic]
  | annotationType =>
      have hpublic := hannotation rfl
      simp_all [fieldVisibility, fieldIsStatic]
  | class_ => simp [fieldVisibility, fieldIsStatic, hwritten]
  | enum => simp [fieldVisibility, fieldIsStatic, hwritten]
  | record => simp [fieldVisibility, fieldIsStatic, hwritten]

/-- A printed field is a member of its type. -/
theorem reads_member_field {kind : TypeKind} {name : String} {field : FieldDecl}
    (hname : name ∉ reservedWords) (hfield : field.WellFormed kind) (after : List Token) :
    Reads (member kind name) field.tokens (.fields [field]) after := by
  intro ts h
  obtain ⟨ts₁, hmodifiers, h₁⟩ := modifiers_of_field field (Token.semicolon :: after)
    (by simpa [FieldDecl.tokens] using h)
  obtain ⟨rest, hfields, hrest⟩ := reads_methodOrFields kind
    ⟨field.visibility.written?, field.isStatic⟩ field.name after ts₁ h₁
  rw [field_of_modifiers hfield] at hfields
  have hnext : next? ts₁ = some (.ident "int") := by
    rw [next?_eq_head?, h₁]
    rfl
  have hint : name ≠ "int" := by
    rintro rfl
    exact hname (by decide)
  have hdecl : atTypeDecl ts₁ = false := by
    simp [atTypeDecl, hnext]
  refine ⟨rest, member_eq_ok_iff.mpr (.fields hmodifiers ?_ ?_ ?_ hfields), hrest⟩
  · simp [hnext]
  · simp [hnext, hint.symm]
  · simp [hdecl]

theorem reads_typeKind (kind : TypeKind) (after : List Token) :
    Reads typeKind kind.tokens kind after := by
  intro ts h
  cases kind with
  | annotationType =>
      obtain ⟨line, ts₁, rfl, h₁⟩ := words_eq_cons h
      obtain ⟨line', rest, rfl, hrest⟩ := words_eq_cons h₁
      exact ⟨rest, rfl, hrest⟩
  | class_ =>
      obtain ⟨line, rest, rfl, hrest⟩ := words_eq_cons h
      exact ⟨rest, rfl, hrest⟩
  | interface =>
      obtain ⟨line, rest, rfl, hrest⟩ := words_eq_cons h
      exact ⟨rest, rfl, hrest⟩
  | enum =>
      obtain ⟨line, rest, rfl, hrest⟩ := words_eq_cons h
      exact ⟨rest, rfl, hrest⟩
  | record =>
      obtain ⟨line, rest, rfl, hrest⟩ := words_eq_cons h
      exact ⟨rest, rfl, hrest⟩

theorem reads_components (kind : TypeKind) (after : List Token) :
    Reads (components kind) (if kind = .record then [Token.openParen, .closeParen] else []) []
      after := by
  intro ts h
  by_cases hrecord : kind = .record
  · rw [if_pos hrecord] at h
    obtain ⟨ts₁, hopen, h₁⟩ := reads_expect .openParen (.closeParen :: after) ts h
    refine ⟨ts₁.tail, ?_, by rw [words_tail, h₁]; rfl⟩
    rw [components, if_pos hrecord, recordComponents]
    simp only [hopen]
    rw [recordComponentsFrom, if_pos (by rw [next?_eq_head?, h₁]; rfl)]
  · rw [if_neg hrecord] at h
    exact ⟨ts, by rw [components, if_neg hrecord], h⟩

theorem reads_superclass? (kind : TypeKind) (superclass : Option String)
    (hsuper : ∀ name, superclass = some name → kind = .class_ ∧ IsPlainQualified name)
    (after : List Token) :
    Reads (superclass? kind)
      (superclass.elim [] fun name => Token.ident "extends" :: nameTokens name) superclass
      (Token.openBrace :: after) := by
  intro ts h
  cases superclass with
  | none =>
      refine ⟨ts, ?_, h⟩
      rw [superclass?, if_neg]
      rintro ⟨_, hnext⟩
      rw [next?_eq_head?, h] at hnext
      cases hnext
  | some name =>
      obtain ⟨hclass, hname⟩ := hsuper name rfl
      obtain ⟨line, ts₁, rfl, h₁⟩ := words_eq_cons h
      obtain ⟨rest, htype, hrest⟩ := reads_typeName name
        (fun segment hsegment m => add?_eq_none m (hname segment hsegment).notReserved)
        ⟨_, _, rfl, Or.inr rfl⟩ ts₁ h₁
      refine ⟨rest, ?_, hrest⟩
      rw [superclass?, if_pos ⟨hclass, rfl⟩]
      simp only [List.tail_cons, htype]

theorem openBody_of_words (name : String) (h : words ts = Token.openBrace :: after) :
    ∃ rest, openBody name ts = .ok rest ∧ words rest = after := by
  obtain ⟨line, rest, rfl, hrest⟩ := words_eq_cons h
  exact ⟨rest, by simp [openBody], hrest⟩

theorem reads_enumConstants (after : List Token) :
    Reads enumConstants [Token.semicolon] false after := by
  intro ts h
  obtain ⟨line, rest, rfl, hrest⟩ := words_eq_cons h
  exact ⟨rest, by rw [enumConstants], hrest⟩

def TypeDecl.start (t : TypeDecl) : TypeStart :=
  ⟨t.kind, t.name, t.superclass?, []⟩

/-- The tokens of a head are read up to the first member. -/
theorem reads_typeStart (t : TypeDecl)
    (hsuper : ∀ name, t.superclass? = some name → t.kind = .class_ ∧ IsPlainQualified name)
    (after : List Token) : Reads typeStart t.headTokens (t.start, false) after := by
  intro ts h
  simp only [TypeDecl.headTokens, List.append_assoc, List.cons_append] at h
  obtain ⟨ts₁, hkind, h₁⟩ := reads_typeKind t.kind _ ts h
  obtain ⟨ts₂, hname, h₂⟩ := reads_identifier t.name _ ts₁ h₁
  have hparameters : skipOptional .less .greater ts₂ = .ok ts₂ := by
    apply skipOptional_of_words
    rw [h₂]
    by_cases hrecord : t.kind = .record
    · simp [hrecord]
    · cases t.superclass? <;> simp [hrecord]
  obtain ⟨ts₃, hcomponents, h₃⟩ := reads_components t.kind _ ts₂ h₂
  obtain ⟨ts₄, hclause, h₄⟩ := reads_superclass? t.kind t.superclass? hsuper _ ts₃ h₃
  obtain ⟨ts₅, hopen, h₅⟩ := openBody_of_words t.name h₄
  by_cases henum : t.kind = .enum
  · rw [if_pos henum] at h₅
    obtain ⟨rest, hconstants, hrest⟩ := reads_enumConstants after ts₅ h₅
    refine ⟨rest, ?_, hrest⟩
    simp only [typeStart, hkind, hname, hparameters, hcomponents, hclause, hopen, hconstants]
    rw [if_pos henum]
    rfl
  · rw [if_neg henum] at h₅
    refine ⟨ts₅, ?_, h₅⟩
    simp only [typeStart, hkind, hname, hparameters, hcomponents, hclause, hopen]
    rw [if_neg henum]
    rfl

/-- Where the tokens of a type start, no modifiers and no other member does. -/
theorem modifiers_of_headTokens (t : TypeDecl) (h : words ts = t.headTokens ++ after) :
    modifiers ts = .ok (⟨none, false⟩, ts) := by
  simp only [TypeDecl.headTokens, List.append_assoc, List.cons_append] at h
  cases hkind : t.kind with
  | annotationType =>
      rw [hkind] at h
      exact modifiersFrom_of_annotationType h
  | class_ => rw [hkind] at h; exact modifiersFrom_of_word rfl (by simp) h
  | interface => rw [hkind] at h; exact modifiersFrom_of_word rfl (by simp) h
  | enum => rw [hkind] at h; exact modifiersFrom_of_word rfl (by simp) h
  | record => rw [hkind] at h; exact modifiersFrom_of_word rfl (by simp) h

theorem atTypeDecl_of_headTokens (t : TypeDecl) (h : words ts = t.headTokens ++ after) :
    atTypeDecl ts = true ∧ next? ts ≠ some .openBrace ∧ second? ts ≠ some .openBrace := by
  simp only [TypeDecl.headTokens, List.append_assoc, List.cons_append] at h
  cases hkind : t.kind <;> rw [hkind] at h <;>
    simp [atTypeDecl, next?_eq_head?, second?_eq, words_tail, h, TypeKind.tokens, Token.isIdent]

/-- The start of a printed type is a member of any type. -/
theorem reads_member_type (kind : TypeKind) (name : String) (t : TypeDecl)
    (hsuper : ∀ name, t.superclass? = some name → t.kind = .class_ ∧ IsPlainQualified name)
    (after : List Token) : Reads (member kind name) t.headTokens (.type t.start false) after := by
  intro ts h
  obtain ⟨rest, hstart, hrest⟩ := reads_typeStart t hsuper after ts h
  obtain ⟨hdecl, hbrace, hsecond⟩ := atTypeDecl_of_headTokens t h
  have hcompact : ¬ (kind = .record ∧ next? ts = some (.ident name) ∧
      second? ts = some .openBrace) :=
    fun hcompact => hsecond hcompact.2.2
  exact ⟨rest, member_eq_ok_iff.mpr
    (.type (modifiers_of_headTokens t h) hbrace hcompact hdecl hstart), hrest⟩

/-- The members of a body and its closing brace are read back, whatever comes after. -/
def ReadsBody (kind : TypeKind) (name : String) (tokens : List Token) (body : TypeBody) : Prop :=
  ∀ (ts : Tokens) (after : List Token), words ts = tokens ++ Token.closeBrace :: after →
    ∃ rest, typeBody kind name ts = .ok (body, rest) ∧ words rest.1 = after

theorem readsBody_nil (kind : TypeKind) (name : String) : ReadsBody kind name [] .empty := by
  intro ts after h
  obtain ⟨line, rest, rfl, hrest⟩ := words_eq_cons h
  exact ⟨⟨rest, by simp⟩, by rw [typeBody]; rfl, hrest⟩

/-- The tokens of a member start with none that a body reads by itself. -/
def StartsMember (tokens : List Token) : Prop :=
  ∃ token rest, tokens = token :: rest ∧ token ≠ .closeBrace ∧ token ≠ .semicolon

theorem readsBody_fields {kind : TypeKind} {name : String} {tokens tokens' : List Token}
    {fields : List FieldDecl} {body : TypeBody} (hstart : StartsMember tokens)
    (hmember : ∀ after, Reads (member kind name) tokens (.fields fields) after)
    (hbody : ReadsBody kind name tokens' body) :
    ReadsBody kind name (tokens ++ tokens') (TypeBody.append ⟨fields, []⟩ body) := by
  intro ts after h
  rw [List.append_assoc] at h
  obtain ⟨ts₁, hfields, h₁⟩ := hmember _ ts h
  obtain ⟨⟨rest, hshorter⟩, hrest, hafter⟩ := hbody ts₁ after h₁
  obtain ⟨token, _, rfl, hbrace, hsemicolon⟩ := hstart
  obtain ⟨line, ts₂, rfl, _⟩ := words_eq_cons h
  have hless := length_member_lt hfields
  refine ⟨⟨rest, Nat.lt_trans hshorter hless⟩, ?_, hafter⟩
  rw [typeBody, if_neg hbrace, if_neg hsemicolon]
  split
  · rename_i hm
    rw [hfields] at hm
    cases hm
  · rename_i hm
    rw [hfields] at hm
    cases hm
    simp only [hrest]
  · rename_i hm
    rw [hfields] at hm
    cases hm
  · rename_i hm
    rw [hfields] at hm
    cases hm

theorem readsBody_type {kind : TypeKind} {name : String} {tokens inner tokens' : List Token}
    {start : TypeStart} {body body' : TypeBody} (hstart : StartsMember tokens)
    (hmember : ∀ after, Reads (member kind name) tokens (.type start false) after)
    (hinner : ReadsBody start.kind start.name inner body)
    (hbody : ReadsBody kind name tokens' body') :
    ReadsBody kind name (tokens ++ (inner ++ Token.closeBrace :: tokens'))
      (TypeBody.append ⟨[], [start.withBody body]⟩ body') := by
  intro ts after h
  simp only [List.append_assoc, List.cons_append] at h
  obtain ⟨ts₁, htype, h₁⟩ := hmember _ ts h
  obtain ⟨⟨ts₂, hshorter⟩, hinner', h₂⟩ := hinner ts₁ _ h₁
  obtain ⟨⟨rest, hshorter'⟩, hrest, hafter⟩ := hbody ts₂ after h₂
  obtain ⟨token, _, rfl, hbrace, hsemicolon⟩ := hstart
  obtain ⟨line, ts₃, rfl, _⟩ := words_eq_cons h
  have hless := length_member_lt htype
  refine ⟨⟨rest, Nat.lt_trans (Nat.lt_trans hshorter' hshorter) hless⟩, ?_, hafter⟩
  rw [typeBody, if_neg hbrace, if_neg hsemicolon]
  split
  · rename_i hm
    rw [htype] at hm
    cases hm
  · rename_i hm
    rw [htype] at hm
    cases hm
  · rename_i hm
    rw [htype] at hm
    cases hm
  · rename_i hm
    rw [htype] at hm
    cases hm
    simp only [hinner', hrest]

theorem startsMember_field (field : FieldDecl) : StartsMember field.tokens := by
  obtain ⟨name, visibility, isStatic⟩ := field
  cases visibility <;> cases isStatic <;> exact ⟨_, _, rfl, by simp, by simp⟩

/-- A type starts with a modifier, an annotation sign or the word for its kind. -/
theorem startsMember_type (t : TypeDecl) : StartsMember t.headTokens := by
  unfold TypeDecl.headTokens
  cases t.kind <;> exact ⟨_, _, rfl, by simp, by simp⟩

/-- Types in a body are read back if their own bodies are. -/
theorem readsBody_types {kind : TypeKind} {name : String} {types : List TypeDecl}
    (htypes : ∀ t ∈ types, t.WellFormed)
    (hbodies : ∀ t ∈ types, ReadsBody t.kind t.name
      (t.fields.flatMap FieldDecl.tokens ++ TypeDecl.tokensOf t.nested) ⟨t.fields, t.nested⟩) :
    ReadsBody kind name (TypeDecl.tokensOf types) ⟨[], types⟩ := by
  induction types with
  | nil => exact readsBody_nil kind name
  | cons t types ih =>
      have hrest := ih (fun other hother => htypes other (List.mem_cons_of_mem t hother))
        (fun other hother => hbodies other (List.mem_cons_of_mem t hother))
      have hinner := hbodies t List.mem_cons_self
      obtain ⟨name', kind', superclass?, fields, nested, hname, hsuper, _, _⟩ :=
        htypes t List.mem_cons_self
      have hmember := reads_member_type kind name ⟨name', kind', superclass?, fields, nested⟩ hsuper
      have hall := readsBody_type (startsMember_type _) hmember hinner hrest
      simpa [TypeDecl.tokensOf, TypeDecl.tokens, TypeBody.append, TypeStart.withBody,
        TypeDecl.start] using hall

/-- Fields stand in front of the types, one declaration for each. -/
theorem readsBody_members {kind : TypeKind} {name : String} {fields : List FieldDecl}
    {tokens : List Token} {nested : List TypeDecl} (hname : name ∉ reservedWords)
    (hfields : ∀ field ∈ fields, field.WellFormed kind)
    (hnested : ReadsBody kind name tokens ⟨[], nested⟩) :
    ReadsBody kind name (fields.flatMap FieldDecl.tokens ++ tokens) ⟨fields, nested⟩ := by
  induction fields with
  | nil => exact hnested
  | cons field fields ih =>
      have hrest := ih fun other hother => hfields other (List.mem_cons_of_mem field hother)
      have hmember := reads_member_field hname (hfields field List.mem_cons_self)
      have hall := readsBody_fields (startsMember_field field) hmember hrest
      simpa [TypeBody.append] using hall

/-- The body of a well-formed type is read back, at any depth of nesting. -/
theorem readsBody_of_wellFormed {t : TypeDecl} (h : t.WellFormed) :
    ReadsBody t.kind t.name
      (t.fields.flatMap FieldDecl.tokens ++ TypeDecl.tokensOf t.nested) ⟨t.fields, t.nested⟩ := by
  induction h with
  | intro name kind superclass? fields nested hname hsuper hfields hnested ih =>
      exact readsBody_members hname.notReserved hfields (readsBody_types hnested ih)

/-- A well-formed type declaration is read back. -/
theorem reads_modifiedType {t : TypeDecl} (h : t.WellFormed) (after : List Token) :
    Reads modifiedType t.tokens t after := by
  intro ts hts
  have hbody := readsBody_of_wellFormed h
  obtain ⟨name, kind, superclass?, fields, nested, hname, hsuper, _, _⟩ := h
  simp only [TypeDecl.tokens, List.append_assoc, List.cons_append, List.nil_append] at hts
  have hmodifiers := modifiers_of_headTokens _ hts
  obtain ⟨ts₁, hstart, h₁⟩ := reads_typeStart _ hsuper _ ts hts
  obtain ⟨⟨rest, hshorter⟩, hrest, hafter⟩ := hbody ts₁ after (by simpa using h₁)
  refine ⟨rest, ?_, hafter⟩
  simp only [modifiedType, hmodifiers, typeDecl, hstart]
  simp only [TypeDecl.start, hrest, TypeStart.withBody, List.nil_append]

/-- The types of a unit are read up to the end of the source. -/
theorem types_of_words {decls : List TypeDecl} (hdecls : ∀ t ∈ decls, t.WellFormed)
    (h : words ts = TypeDecl.tokensOf decls) : types ts = .ok decls := by
  induction decls generalizing ts with
  | nil =>
      obtain rfl : ts = [] := by simpa [words, TypeDecl.tokensOf] using h
      rw [types]
  | cons t decls ih =>
      rw [TypeDecl.tokensOf] at h
      obtain ⟨rest, hdecl, hrest⟩ := reads_modifiedType (hdecls t List.mem_cons_self) _ ts h
      have htypes := ih (fun other hother => hdecls other (List.mem_cons_of_mem t hother)) hrest
      obtain ⟨name, kind, superclass?, fields, nested⟩ := t
      obtain ⟨token, tokens, hhead, _, hsemicolon⟩ :=
        startsMember_type ⟨name, kind, superclass?, fields, nested⟩
      rw [TypeDecl.tokens, hhead] at h
      obtain ⟨line, ts₁, rfl, _⟩ := words_eq_cons h
      rw [types, if_neg hsemicolon]
      split
      · rename_i herror
        rw [hdecl] at herror
        cases herror
      · rename_i hsame
        rw [hdecl] at hsame
        cases hsame
        simp only [htypes]

/-- A dotted name starts with the first of its segments. -/
theorem head?_nameTokens (name : String) :
    ∃ first segments, Text.split '.' name = first :: segments ∧
      ∀ after, (nameTokens name ++ after).head? = some (.ident first) := by
  cases hsplit : Text.split '.' name with
  | nil => exact absurd hsplit (Text.split_ne_nil '.' name)
  | cons first segments =>
      refine ⟨first, segments, rfl, ?_⟩
      intro after
      rw [nameTokens, hsplit, dottedTokens_cons]
      rfl

theorem importStar_of_words (isWildcard : Bool)
    (h : words ts = (if isWildcard then [Token.dot, .other '*'] else []) ++
      Token.semicolon :: after) :
    ∃ rest, importStar ts = (isWildcard, rest) ∧ words rest = Token.semicolon :: after := by
  cases isWildcard with
  | true =>
      obtain ⟨line, ts₁, rfl, h₁⟩ := words_eq_cons h
      obtain ⟨line', rest, rfl, hrest⟩ := words_eq_cons h₁
      exact ⟨rest, rfl, hrest⟩
  | false =>
      refine ⟨ts, ?_, h⟩
      rw [importStar, if_neg]
      rw [next?_eq_head?, h]
      simp

/-- The tokens behind the word `import` are read as the import. -/
theorem reads_importDecl {i : Import} (hpath : IsPlainQualified i.path) (after : List Token) :
    Reads importDecl i.tokens.tail i after := by
  intro ts h
  obtain ⟨path, isStatic, isWildcard⟩ := i
  simp only [Import.tokens, List.tail_cons, List.append_assoc, List.cons_append,
    List.nil_append] at h
  obtain ⟨ts₁, hstatic, h₁⟩ : ∃ ts₁, importStatic ts = (isStatic, ts₁) ∧
      words ts₁ = nameTokens path ++ ((if isWildcard then [Token.dot, .other '*'] else []) ++
        Token.semicolon :: after) := by
    cases isStatic with
    | true =>
        obtain ⟨line, ts₁, rfl, h₁⟩ := words_eq_cons h
        exact ⟨ts₁, rfl, h₁⟩
    | false =>
        refine ⟨ts, ?_, h⟩
        obtain ⟨first, segments, hsplit, hhead⟩ := head?_nameTokens path
        have hplain := (hpath first (by simp [hsplit])).notReserved
        rw [importStatic, if_neg]
        rw [next?_eq_head?, h]
        change (nameTokens path ++ _).head? ≠ _
        rw [hhead]
        intro hsame
        cases hsame
        exact hplain (by decide)
  have hend : EndsName ((if isWildcard then [Token.dot, .other '*'] else []) ++
      Token.semicolon :: after) := by
    cases isWildcard <;> intro text rest hsame <;> cases hsame
  obtain ⟨ts₂, hname, h₂⟩ := reads_qualifiedName path hend ts₁ h₁
  obtain ⟨ts₃, hstar, h₃⟩ := importStar_of_words isWildcard h₂
  obtain ⟨rest, hsemicolon, hrest⟩ := reads_expect .semicolon after ts₃ h₃
  refine ⟨rest, ?_, hrest⟩
  simp only [importDecl, hstatic, hname, hstar, hsemicolon]

/-- Imports are read as long as the next token is the word for one. -/
theorem reads_imports {is : List Import} (hpaths : ∀ i ∈ is, IsPlainQualified i.path)
    (hafter : after.head? ≠ some (.ident "import")) :
    Reads imports (is.flatMap Import.tokens) is after := by
  induction is with
  | nil =>
      intro ts h
      refine ⟨ts, ?_, h⟩
      rw [imports, if_neg]
      rw [next?_eq_head?, h]
      exact hafter
  | cons i is ih =>
      intro ts h
      rw [List.flatMap_cons, List.append_assoc] at h
      obtain ⟨line, ts₁, rfl, h₁⟩ := words_eq_cons h
      obtain ⟨ts₂, hdecl, h₂⟩ := reads_importDecl (hpaths i List.mem_cons_self) _ ts₁ h₁
      obtain ⟨rest, hrest, hwords⟩ :=
        ih (fun other hother => hpaths other (List.mem_cons_of_mem i hother)) ts₂ h₂
      refine ⟨rest, ?_, hwords⟩
      have hword : next? (⟨.ident "import", line⟩ :: ts₁) = some (.ident "import") := rfl
      rw [imports, if_pos hword]
      split
      · rename_i herror
        rw [List.tail_cons, hdecl] at herror
        cases herror
      · rename_i hsame
        rw [List.tail_cons, hdecl] at hsame
        cases hsame
        simp only [hrest]

/-- Tokens that start neither with a modifier nor with a package declaration. -/
def StartsUnit (tokens : List Token) : Prop :=
  ∀ ts, words ts = tokens → modifiers ts = .ok (⟨none, false⟩, ts) ∧
    next? ts ≠ some (.ident "package")

/-- The package is read if there is one, and nothing is taken if there is none. -/
theorem reads_packageDecl (package? : Option String) (hafter : StartsUnit after) :
    Reads packageDecl
      (package?.elim [] fun package => Token.ident "package" ::
        (nameTokens package ++ [Token.semicolon]))
      package? after := by
  intro ts h
  cases package? with
  | none =>
      obtain ⟨hmodifiers, hnext⟩ := hafter ts h
      exact ⟨ts, by simp [packageDecl, hmodifiers, hnext], h⟩
  | some package =>
      simp only [Option.elim_some, List.cons_append, List.append_assoc, List.nil_append] at h
      obtain ⟨first, segments, _, hhead⟩ := head?_nameTokens package
      have hmodifiers : modifiers ts = .ok (⟨none, false⟩, ts) :=
        modifiersFrom_of_word rfl (by rw [hhead]; simp) h
      obtain ⟨line, ts₁, rfl, h₁⟩ := words_eq_cons h
      obtain ⟨ts₂, hname, h₂⟩ := reads_qualifiedName package (endsName_of_head (by simp)) ts₁ h₁
      obtain ⟨rest, hsemicolon, hrest⟩ := reads_expect .semicolon after ts₂ h₂
      refine ⟨rest, ?_, hrest⟩
      simp [packageDecl, hmodifiers, next?, hname, hsemicolon]

theorem head?_tokensOf (decls : List TypeDecl) :
    (TypeDecl.tokensOf decls).head? ≠ some (.ident "import") ∧
      (TypeDecl.tokensOf decls).head? ≠ some (.ident "package") := by
  cases decls with
  | nil => simp [TypeDecl.tokensOf]
  | cons t decls =>
      obtain ⟨name, kind, superclass?, fields, nested⟩ := t
      simp only [TypeDecl.tokensOf, TypeDecl.tokens, TypeDecl.headTokens]
      cases kind <;> simp [TypeKind.tokens]

/-- Imports and types do not start as a package declaration would. -/
theorem startsUnit_imports (is : List Import) (decls : List TypeDecl) :
    StartsUnit (is.flatMap Import.tokens ++ TypeDecl.tokensOf decls) := by
  intro ts h
  cases is with
  | nil =>
      refine ⟨?_, by rw [next?_eq_head?, h]; exact (head?_tokensOf decls).2⟩
      cases decls with
      | nil =>
          obtain rfl : ts = [] := by simpa [words, TypeDecl.tokensOf] using h
          rw [modifiers, modifiersFrom]
      | cons t decls =>
          obtain ⟨name, kind, superclass?, fields, nested⟩ := t
          simp only [List.flatMap_nil, List.nil_append, TypeDecl.tokensOf, TypeDecl.tokens,
            List.append_assoc] at h
          exact modifiers_of_headTokens _ h
  | cons i is =>
      simp only [List.flatMap_cons, Import.tokens, List.cons_append, List.append_assoc] at h
      refine ⟨modifiersFrom_of_word rfl ?_ h, by rw [next?_eq_head?, h]; simp⟩
      cases i.isStatic with
      | true => simp
      | false =>
          obtain ⟨first, segments, _, hhead⟩ := head?_nameTokens i.path
          rw [if_neg (by simp), List.nil_append, hhead]
          simp

/-- The tokens of a well-formed unit are read as the unit. -/
theorem compilationUnit_of_words {unit : CompilationUnit} (hunit : unit.WellFormed)
    (h : words ts = unit.tokens) : compilationUnit ts = .ok unit := by
  obtain ⟨ts₁, hpackage, h₁⟩ := reads_packageDecl unit.package?
    (startsUnit_imports unit.imports unit.types) ts h
  obtain ⟨ts₂, himports, h₂⟩ := reads_imports hunit.imports (head?_tokensOf unit.types).1 ts₁ h₁
  simp only [compilationUnit, hpackage, himports, types_of_words hunit.types h₂]

/-- Parsing undoes printing. The plain source of a well-formed unit parses, and what it parses to
is the unit itself, down to the order of its fields and the types nested in its types. -/
theorem parse_source (unit : CompilationUnit) (hunit : unit.WellFormed) :
    CompilationUnit.parse unit.source = .ok unit := by
  obtain ⟨ts, hscan, hwords⟩ := scan_source hunit
  simp only [CompilationUnit.parse, hscan, compilationUnit_of_words hunit hwords]

def nestedUnit : CompilationUnit where
  package? := some "com.acme"
  imports := [⟨"java.util.List", false, false⟩, ⟨"com.acme.Names", true, true⟩]
  types :=
    [⟨"Leaf", .class_, some "base.Mid", [⟨"id", .private_, false⟩, ⟨"record", .package, true⟩],
      [⟨"Kind", .enum, none, [⟨"code", .protected_, false⟩],
        [⟨"record", .record, none, [⟨"x", .public_, true⟩], []⟩]⟩]⟩,
    ⟨"Marker", .annotationType, none, [⟨"LEVEL", .public_, false⟩], []⟩]

theorem nestedUnit_wellFormed : nestedUnit.WellFormed where
  package := by
    rintro _ ⟨⟩
    decide
  imports := by decide
  types := by
    have hrecord : TypeDecl.WellFormed ⟨"record", .record, none, [⟨"x", .public_, true⟩], []⟩ :=
      ⟨_, _, _, _, _, by decide, by simp, by decide, by simp⟩
    have hkind : TypeDecl.WellFormed ⟨"Kind", .enum, none, [⟨"code", .protected_, false⟩],
        [⟨"record", .record, none, [⟨"x", .public_, true⟩], []⟩]⟩ :=
      ⟨_, _, _, _, _, by decide, by simp, by decide, by simpa using hrecord⟩
    intro t ht
    rcases List.mem_cons.mp ht with rfl | ht
    · refine ⟨_, _, _, _, _, by decide, ?_, by decide, by simpa using hkind⟩
      rintro _ ⟨⟩
      exact ⟨rfl, by decide⟩
    · obtain rfl := List.mem_singleton.mp ht
      exact ⟨_, _, _, _, _, by decide, by simp, by decide, by simp⟩

/-- A unit with four of the kinds of types, one nested in the other, is read back from its source.
-/
theorem parse_source_nestedUnit :
    nestedUnit.WellFormed ∧ CompilationUnit.parse nestedUnit.source = .ok nestedUnit :=
  ⟨nestedUnit_wellFormed, parse_source nestedUnit nestedUnit_wellFormed⟩

end WireMapper.Java
